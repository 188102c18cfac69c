import L0vi0x.Core.HypothesisTriggers
import L0vi0x.Core.QuietText
import L0vi0x.Core.StoreCommits
import L0vi0x.Sql.StrictEngine

/-! Calls that succeed. On an engine that reads JSON strictly, a call that passes its
guard on the stored hypothesis commits, where no secret is to be redacted. -/
namespace L0vi0x.Core.Store

open L0vi0x.Python L0vi0x.Sql L0vi0x.Core.Redaction

/-- Redaction leaves a body and its text. -/
structure Plain (alnum : Char → Bool) (data : Fields) : Prop where
  fields : redactFields alnum data = data
  text : redact alnum (Json.obj data).dumps = (Json.obj data).dumps

/-- The columns of a body are texts and a number, or null. -/
structure Columned (data : Fields) : Prop where
  lens : ∃ text, fieldOf "lens" data = textOrNull text
  protocolType : ∃ text, fieldOf "protocol_type" data = textOrNull text
  priorP : fieldOf "prior_p" data = .null ∨ ∃ x, fieldOf "prior_p" data = .float (.finite x)

/-- A row that has the columns of its body. -/
structure Mirrors (row : HypothesisRow) (hid : String) (st : HState) (data : Fields) : Prop
    extends RowOf row hid st data where
  named : getField? "id" data = some (.str hid)
  columned : Columned data
  columns : bindColumns Engine.strict data = .ok ⟨row.lens, row.protocolType, row.priorP⟩

/-- A store whose rows name events of its log, which takes more of them. -/
structure Ready (p : Platform) (s : System) : Prop extends Filed p s where
  logged : eventGuards.allows s.db.events = true
  earlier : ∀ row ∈ s.db.hypotheses, ∃ i, row.lastEventId = .int i ∧ i < nextEventId s.db.events

structure Holds (p : Platform) (s : System) (hid : String) (st : HState) (data : Fields) :
    Prop where
  ready : Ready p s
  row : ∃ row ∈ s.db.hypotheses, Mirrors row hid st data

section Columns

variable {alnum : Char → Bool} {data : Fields}

/-- A text or null binds to a value that the column of a text keeps. -/
theorem bind_textOrNull (text : Option String) : ∃ b, Sql.bind (textOrNull text) = .ok b ∧
    (Engine.strict.textAffinity b).is (ofJson (some (textOrNull text))) = true := by
  cases text with
  | none => exact ⟨_, rfl, rfl⟩
  | some s => exact ⟨_, rfl, decide_eq_true (rfl : s = s)⟩

/-- A number or null binds to a value that the column of a number keeps. -/
theorem bind_number {v : Json} (h : v = .null ∨ ∃ x, v = .float (.finite x)) :
    ∃ b, Sql.bind v = .ok b ∧ (Engine.strict.realAffinity b).is (ofJson (some v)) = true := by
  rcases h with rfl | ⟨x, rfl⟩
  · exact ⟨_, rfl, rfl⟩
  · refine ⟨.real (.finite x), rfl, ?_⟩
    simp [Engine.strict, Engine.asReal, ofJson, Value.is, Number.eq, PyFloat.number]

/-- Columns that can be stored and that a snapshot of the body matches. -/
theorem Columned.bound (h : Columned data) : ∃ bound, bindColumns Engine.strict data = .ok bound ∧
    bound.lens.is (ofJson (some (fieldOf "lens" data))) = true ∧
    bound.protocolType.is (ofJson (some (fieldOf "protocol_type" data))) = true ∧
    bound.priorP.is (ofJson (some (fieldOf "prior_p" data))) = true := by
  obtain ⟨lens, hLens⟩ := h.lens
  obtain ⟨protocolType, hProtocol⟩ := h.protocolType
  obtain ⟨bl, hBindLens, hIsLens⟩ := bind_textOrNull lens
  obtain ⟨bt, hBindProtocol, hIsProtocol⟩ := bind_textOrNull protocolType
  obtain ⟨bp, hBindPrior, hIsPrior⟩ := bind_number h.priorP
  rw [← hLens] at hBindLens hIsLens
  rw [← hProtocol] at hBindProtocol hIsProtocol
  refine ⟨⟨_, _, _⟩, ?_, hIsLens, hIsProtocol, hIsPrior⟩
  simp only [bindColumns, bind_eq_ok, pure_eq_ok]
  exact ⟨bl, hBindLens, bt, hBindProtocol, bp, hBindPrior, rfl⟩

theorem lens_dump (h : HypothesisRecord) :
    getField? "lens" h.dump = some (textOrNull h.lens) := by
  rw [h.getField?_dump]
  rfl

theorem protocolType_dump (h : HypothesisRecord) :
    getField? "protocol_type" h.dump = some (textOrNull (some h.protocolType)) := by
  rw [h.getField?_dump]
  rfl

theorem priorP_dump (h : HypothesisRecord) :
    getField? "prior_p" h.dump = some (.float (.finite h.priorP.value)) := by
  rw [h.getField?_dump]
  rfl

/-- The dump of a hypothesis has columns that can be stored. -/
theorem columned_dump (h : HypothesisRecord) : Columned h.dump := by
  refine ⟨⟨h.lens, ?_⟩, ⟨some h.protocolType, ?_⟩, .inr ⟨h.priorP.value, ?_⟩⟩
  · rw [fieldOf, lens_dump, Option.getD_some]
  · rw [fieldOf, protocolType_dump, Option.getD_some]
  · rw [fieldOf, priorP_dump, Option.getD_some]

/-- Redaction acts on each field by itself. -/
theorem fieldOf_redactFields (key : String) (data : Fields) :
    fieldOf key (redactFields alnum data) = redactPayload alnum (fieldOf key data) := by
  rw [fieldOf, fieldOf, getField?_redactFields]
  cases getField? key data <;> rfl

/-- Redaction leaves every field of a plain body. -/
theorem Plain.fieldOf (h : Plain alnum data) (key : String) :
    redactPayload alnum (fieldOf key data) = fieldOf key data := by
  rw [← fieldOf_redactFields, h.fields]

end Columns
section Events

variable {p : Platform} {now hid kind : String} {s : System} {db : Database} {c : Commit}

/-- An event that is not null anywhere is taken. -/
theorem allows_logged (hLogged : eventGuards.allows db.events = true) (e : Event)
    (hId : e.id = nextEventId db.events) (hText : e.ts ≠ .null ∧ e.kind ≠ .null ∧
      e.entity ≠ .null ∧ e.entityId ≠ .null ∧ e.payload ≠ .null) :
    eventGuards.allows (db.events ++ [e]) = true := by
  simp only [eventGuards, Bool.and_eq_true, decide_eq_true_eq, List.all_eq_true, ne_eq,
    List.map_append, List.map_singleton, List.nodup_append] at hLogged ⊢
  refine ⟨⟨hLogged.1, List.nodup_singleton _, ?_⟩, fun e' he' => ?_⟩
  · rintro i hi j hj rfl
    obtain ⟨old, hOld, rfl⟩ := List.mem_map.mp hi
    rw [List.mem_singleton, hId] at hj
    have hLt := lt_nextEventId hOld
    omega
  · rcases List.mem_append.mp he' with he' | he'
    · exact hLogged.2 e' he'
    · rw [List.mem_singleton.mp he']
      obtain ⟨hTs, hKind, hEntity, hEntityId, hPayload⟩ := hText
      exact ⟨⟨⟨⟨hTs, hKind⟩, hEntity⟩, hEntityId⟩, hPayload⟩

theorem allows_newEvent (hLogged : eventGuards.allows db.events = true) (payload : Fields) :
    eventGuards.allows (db.events ++ [newEvent p now db hid kind payload]) = true :=
  allows_logged hLogged _ rfl (by simp [newEvent])

/-- The event of an entity whose kind no redaction changes. -/
def entityEvent (p : Platform) (now : String) (db : Database) (entity id kind : String)
    (payload : Fields) : Event :=
  ⟨nextEventId db.events, .text now, .text kind, .text entity, .text id,
    .text (Json.obj (redactFields p.alnum payload)).dumps⟩

/-- An event of a valid kind that no redaction changes is appended to the log. -/
theorem recordEvent_logs (entity kind now id : String) {payload : Fields}
    (hLogged : eventGuards.allows db.events = true)
    (hKind : getField? "kind" payload = some (.str kind)) (hPlain : redact p.alnum kind = kind)
    (hValid : kind ∈ eventKinds) (hNot : kind ≠ "entity_saved") :
    recordEvent p now db entity id payload =
      .ok (nextEventId db.events, db.logged (entityEvent p now db entity id kind payload)) := by
  have hInsert : (Statement.insert [entityEvent p now db entity id kind payload]).run eventGuards ()
      db.events = some (db.events ++ [entityEvent p now db entity id kind payload]) :=
    Statement.run_insert_one rfl (allows_logged hLogged _ rfl (by simp [entityEvent]))
  rw [recordEvent]
  simp only [getField?_redactFields, hKind, Option.map_some, redactPayload, hPlain,
    Option.getD_some, Json.text_str, bind_eq_ok, executed_eq_ok, pure_eq_ok]
  refine ⟨kind, ?_, (), ?_, _, hInsert, rfl⟩
  · rw [validateKind, if_pos (List.contains_iff_mem.mpr hValid)]
    rfl
  · rw [checkOp, if_neg hNot]
    rfl

/-- The events of hypotheses have kinds that no redaction changes, so recording one appends it. -/
theorem recordEvent_succeeds (kind now hid : String) {payload : Fields}
    (hLogged : eventGuards.allows db.events = true) (hKind : getField? "kind" payload = some (.str kind)) (hPlain : kind ∈ plainNames)
    (hValid : kind ∈ eventKinds) (hNot : kind ≠ "entity_saved") :
    recordEvent p now db "hypothesis" hid payload =
      .ok (nextEventId db.events, db.logged (newEvent p now db hid kind payload)) :=
  recordEvent_logs "hypothesis" kind now hid hLogged hKind (redact_plain hPlain) hValid hNot

theorem createdPayload_kind (data : Fields) :
    getField? "kind" (createdPayload data) = some (.str "hyp_created") := by
  simp [createdPayload, getField?_dictOf, lookupLast]

theorem updatedPayload_kind (cause : String) (evidence : List Json) (data : Fields) :
    getField? "kind" (updatedPayload cause evidence data) = some (.str "hyp_updated") := by
  simp [updatedPayload, getField?_dictOf, lookupLast]

/-- The event of a transition names its kind. -/
theorem transitionPayload_kind (p : Platform) (src dst : HState) (cause : String)
    (evidence : List String) (payload : Fields) :
    getField? "kind" (transitionPayload p src dst cause evidence payload) =
      some (.str "hyp_transition") := by
  simp [transitionPayload, getField?_dictOf, lookupLast]

theorem awardPayload_kind (p : Platform) (proof : LadderProof) (payload : Fields) :
    getField? "kind" (awardPayload p proof payload) = some (.str "hyp_ladder_award") := by
  simp [awardPayload, getField?_dictOf, lookupLast]

/-- What the snapshot in the event of a commit matches. -/
theorem commit_matches (hEngine : p.engine = Engine.strict) (hSound : c.Sound)
    {columns : List (String × Value)}
    (h : ∀ q ∈ columns, q.1 ∈ ["id", "state", "lens", "protocol_type", "prior_p", "body"] ∧
      q.2.is (ofJson (some (redactPayload p.alnum (snapshotField (c.source now)
        (Json.obj (c.body p now)).dumps q.1)))) = true) :
    matchesSnapshot p.engine (c.event p now db) columns = true := by
  have hNormal : (Json.obj (redactFields p.alnum (c.payload p now))).Normal :=
    redactFields_normal (Commit.payload_normal hSound)
  refine matchesSnapshot_iff.mpr fun q hq => ?_
  obtain ⟨hKey, hIs⟩ := h q hq
  refine ⟨_, ?_, hIs⟩
  rw [hEngine, Commit.event, newEvent, Engine.strict_dumps hNormal, walk_rowSnapshot hKey]

/-- The event of a commit backs the row that mirrors its body. -/
theorem Mirrors.matches (now : String) (db : Database) (hEngine : p.engine = Engine.strict) (hSound : c.Sound) {st : HState}
    {data : Fields} {row : HypothesisRow} (h : Mirrors row hid st data)
    (hSource : c.source now = data) (hBody : c.body p now = data)
    (hPlain : Plain p.alnum data) :
    matchesSnapshot p.engine (c.event p now db) row.snapshotColumns = true := by
  obtain ⟨bound, hBound, hLens, hProtocol, hPrior⟩ := h.columned.bound
  obtain rfl : bound = ⟨row.lens, row.protocolType, row.priorP⟩ :=
    Except.ok.inj (hBound.symm.trans h.columns)
  have hId : fieldOf "id" data = .str hid := by rw [fieldOf, h.named, Option.getD_some]
  have hState : fieldOf "state" data = .str st.text := by
    rw [fieldOf, h.inner, Option.getD_some]
  have hText : ∀ s, (Value.text s).is (ofJson (some (.str s))) = true :=
    fun s => decide_eq_true (rfl : s = s)
  refine commit_matches hEngine hSound ?_
  rw [hSource, hBody]
  simp only [HypothesisRow.snapshotColumns, List.forall_mem_cons, List.not_mem_nil, false_implies,
    implies_true, and_true, snapshotField, reduceIte, String.reduceEq, hPlain.fieldOf, h.id,
    h.state, h.body, redactPayload, hPlain.text]
  simp [hId, hState, hText, hLens, hProtocol, hPrior]

end Events
section Updates

variable {p : Platform} {now hid : String} {s : System} {c : Commit} {old new : HypothesisRow}

/-- The stored row of an id is the one that is found. -/
theorem Filed.found (hFiled : Filed p s) (hMem : old ∈ s.db.hypotheses)
    (hId : old.id = .text hid) :
    ∃ i, findHypothesis s.db hid = some i ∧ s.db.hypotheses[i]? = some old := by
  cases hFind : findHypothesis s.db hid with
  | none => exact absurd hId (findHypothesis_eq_none hFind old hMem)
  | some i =>
      obtain ⟨found, hAt, hFound⟩ := findHypothesis_eq_some hFind
      obtain rfl := row_eq_of_id hFiled.unique (List.mem_of_getElem? hAt) hMem
        (hFound.trans hId.symm)
      exact ⟨i, rfl, hAt⟩

/-- A filed row is the one that is found under its id. -/
theorem Filed.storedRow (hFiled : Filed p s) (hMem : old ∈ s.db.hypotheses)
    (hId : old.id = .text hid) : storedRow s.db hid = .ok old := by
  obtain ⟨i, hFind, hAt⟩ := hFiled.found hMem hId
  rw [Store.storedRow, hFind, Option.bind_some, hAt]
  rfl

/-- The constraints hold of rows of distinct ids that are well formed. -/
theorem allows_rows {engine : Engine} {rows : List HypothesisRow}
    (hUnique : (rows.map HypothesisRow.id).Nodup)
    (hRows : ∀ row ∈ rows, (∃ st : HState, row.state = .text st.text) ∧ row.body ≠ .null ∧
      row.lastEventId ≠ .null) : (hypothesisGuards engine).allows rows = true := by
  simp only [hypothesisGuards, Bool.and_eq_true, decide_eq_true_eq, List.all_eq_true]
  refine ⟨hUnique.sublist List.filter_sublist, fun row hRow => ?_⟩
  obtain ⟨⟨st, hState⟩, hBody, hEvent⟩ := hRows row hRow
  refine ⟨⟨List.any_eq_true.mpr ⟨st, st.mem_all, ?_⟩, hBody⟩, hEvent⟩
  rw [hState, Value.equals_text]

/-- A row of a ready store has a state, a body and an event. -/
theorem Ready.wellFormed (hReady : Ready p s) (hMem : old ∈ s.db.hypotheses) :
    (∃ st : HState, old.state = .text st.text) ∧ old.body ≠ .null ∧ old.lastEventId ≠ .null := by
  obtain ⟨hid, st, data, hRow⟩ := hReady.stored old hMem
  obtain ⟨i, hEvent, -⟩ := hReady.earlier old hMem
  refine ⟨⟨st, hRow.state⟩, ?_, ?_⟩
  · rw [hRow.body]
    simp
  · rw [hEvent]
    simp

/-- An update of the stored row that its guard passes succeeds. -/
theorem updateHypothesis_succeeds {engine : Engine} (assign : HypothesisRow → HypothesisRow)
    (hReady : Ready p s) {e : Event} (hMem : old ∈ s.db.hypotheses)
    (hId : old.id = .text hid) (hNew : Mirrors (assign old) hid st data)
    (hEvent : (assign old).lastEventId = .int e.id)
    (hGuard : (hypothesisGuards engine).update (s.db.events ++ [e]) old (assign old) = true) :
    ∃ after, updateHypothesis engine (s.db.logged e) hid assign = .ok after ∧
      after.events = s.db.events ++ [e] := by
  obtain ⟨i, hFind, hAt⟩ := hReady.found hMem hId
  have hFind' : findHypothesis (s.db.logged e) hid = some i := hFind
  have hAt' : (s.db.logged e).hypotheses[i]? = some old := hAt
  have hIds : (s.db.hypotheses.set i (assign old)).map HypothesisRow.id =
      s.db.hypotheses.map HypothesisRow.id := by
    obtain ⟨hLt, hGet⟩ := List.getElem?_eq_some_iff.mp hAt
    have hLt' : i < (s.db.hypotheses.map HypothesisRow.id).length := by simpa using hLt
    have hOld : old.id = (s.db.hypotheses.map HypothesisRow.id)[i] := by
      rw [List.getElem_map, hGet]
    rw [List.map_set, hNew.id, ← hId, hOld]
    exact List.set_getElem_self _
  have hAllows : (hypothesisGuards engine).allows (s.db.hypotheses.set i (assign old)) = true := by
    refine allows_rows (hIds ▸ hReady.unique) fun row hRow => ?_
    rcases List.mem_or_eq_of_mem_set hRow with hRow | rfl
    · exact hReady.wellFormed hRow
    · rw [hNew.state, hNew.body, hEvent]
      exact ⟨⟨_, rfl⟩, by simp, by simp⟩
  have hRun : (Statement.update [(i, assign old)]).run (hypothesisGuards engine)
      (s.db.events ++ [e]) s.db.hypotheses = some (s.db.hypotheses.set i (assign old)) :=
    Statement.run_update_one hAt hGuard hAllows
  refine ⟨{ s.db.logged e with hypotheses := s.db.hypotheses.set i (assign old) }, ?_, rfl⟩
  simp only [updateHypothesis, hFind', hAt', Option.map_some, Option.toList_some, bind_eq_ok,
    executed_eq_ok, pure_eq_ok]
  exact ⟨_, hRun, rfl⟩

/-- The guard of an update by a commit: its event backs the row, and the state stays
or moves as the event says. -/
theorem update_guard (now : String) (hEngine : p.engine = Engine.strict) (hReady : Ready p s)
    (hSound : c.Sound) (hMem : old ∈ s.db.hypotheses) (hId : old.id = .text c.hid)
    (hKind : c.kind ∈ updateKinds) {st : HState} {data : Fields}
    (hNew : Mirrors new c.hid st data) (hSource : c.source now = data)
    (hBody : c.body p now = data) (hPlain : Plain p.alnum data)
    (hEvent : new.lastEventId = .int (nextEventId s.db.events))
    (hState : old.state = new.state ∨ isLegal old.state new.state = true ∧
      backsTransition p.engine old new (c.event p now s.db) = true) :
    (hypothesisGuards p.engine).update (s.db.events ++ [c.event p now s.db]) old new = true := by
  obtain ⟨i, hOld, hLt⟩ := hReady.earlier old hMem
  have hLast : c.event p now s.db ∈ s.db.events ++ [c.event p now s.db] := by simp
  have hBacks : backsHypothesis p.engine updateKinds old.id new (c.event p now s.db) = true := by
    have hMatches := hNew.matches now s.db hEngine hSound hSource hBody hPlain
    simp only [backsHypothesis, Bool.and_eq_true, decide_eq_true_eq, List.any_eq_true]
    refine ⟨⟨⟨⟨?_, ?_⟩, hEvent⟩, c.kind, hKind, ?_⟩, hMatches⟩
    · exact Value.equals_text.mpr rfl
    · rw [hId]
      exact Value.equals_text.mpr rfl
    · exact Value.equals_text.mpr rfl
  simp only [hypothesisGuards, Bool.and_eq_true, Bool.not_eq_true', Bool.or_eq_true,
    List.any_eq_true]
  refine ⟨⟨?_, _, hLast, hBacks⟩, ?_⟩
  · rw [hOld, hEvent, Value.lessEq_int, decide_eq_false_iff_not]
    omega
  · rcases hState with hSame | ⟨hLegal, hMoved⟩
    · obtain ⟨⟨s', hText⟩, -⟩ := hReady.wellFormed hMem
      rw [hText] at hSame
      exact .inl (by rw [hText, ← hSame]; exact Value.is_text.mpr rfl)
    · exact .inr ⟨hLegal, _, hLast, hMoved⟩

end Updates
section Calls

variable {p : Platform} {now hid : String} {s : System} {c : Commit} {call : Call}

theorem ready_empty (p : Platform) : Ready p System.empty :=
  ⟨filed_empty p, rfl, fun _ hMem => absurd hMem List.not_mem_nil⟩

theorem lt_nextEventId_append {events more : List Event} {e : Event} :
    e.id < nextEventId (events ++ e :: more) := lt_nextEventId (by simp)

/-- A commit leaves the store ready. -/
theorem Ready.committed (h : Ready p s) (hCommit : commit? p now s call = some c) :
    Ready p (step p now s call) := by
  have hCommitted := step_some h.toFiled hCommit
  obtain ⟨new, hWrote, -, hRows⟩ := hCommitted.row
  have hEvents := hCommitted.events
  refine ⟨h.toFiled.step now call, ?_, fun row hMem => ?_⟩
  · have hOne : eventGuards.allows (s.db.logged (c.event p now s.db)).events = true :=
      allows_newEvent h.logged _
    rw [hEvents, List.append_cons]
    rcases alarm_cases p now s.db c with hNone | hAlarm
    · rwa [hNone, List.append_nil]
    · rw [hAlarm]
      exact allows_newEvent hOne _
  · rw [hEvents]
    rcases (hRows row).mp hMem with rfl | ⟨hMem, -⟩
    · refine ⟨nextEventId s.db.events, ?_, lt_nextEventId_append⟩
      cases hWrote <;> rfl
    · obtain ⟨hid, st, data, hRow⟩ := h.stored row hMem
      obtain ⟨i, hEvent, hLt⟩ := h.earlier row hMem
      exact ⟨i, hEvent, hLt.trans lt_nextEventId_append⟩

/-- What a commit leaves of its hypothesis, where it has the columns of its body. -/
theorem Ready.holds (h : Ready p s) (hCommit : commit? p now s call = some c) {st : HState}
    {data : Fields} (hNew : ∀ new, Wrote p now s.db c new → Mirrors new c.hid st data) :
    Holds p (step p now s call) c.hid st data := by
  obtain ⟨new, hWrote, -, hRows⟩ := (step_some h.toFiled hCommit).row
  exact ⟨h.committed hCommit, new, (hRows new).mpr (.inl rfl), hNew new hWrote⟩

theorem newData_named (p : Platform) (payload : Fields) (hid : String) :
    getField? "id" (newData p payload hid) = some (.str hid) := by
  unfold newData
  simp only
  split
  · exact getField?_setField_self _ _ _
  · rw [getField?_setField_ne _ _ (by decide)]
    exact getField?_setField_self _ _ _

/-- A creation under an id that no row has inserts a row that mirrors its body. -/
theorem insertHypothesis_succeeds (now : String) (h : Ready p s) (hEngine : p.engine = Engine.strict)
    {data : Fields} {bound : BoundColumns}
    (hNew : ∀ row ∈ s.db.hypotheses, row.id ≠ .text hid)
    (hRow : Mirrors (createdRow hid bound data (nextEventId s.db.events)) hid .open data)
    (hPlain : Plain p.alnum data) :
    ∃ after, insertHypothesis p now s.db hid data = .ok (data, after) := by
  have hRecord := recordEvent_succeeds (p := p) "hyp_created" now hid h.logged
    (createdPayload_kind data) (by decide) (by decide) (by decide)
  have hSound : (Commit.created hid data).Sound := hRow.normal
  have hMatches := hRow.matches now s.db hEngine hSound rfl rfl hPlain
  have hGuard : (hypothesisGuards p.engine).insert
      (s.db.events ++ [Commit.event p now s.db (.created hid data)])
      (createdRow hid bound data (nextEventId s.db.events)) = true := by
    simp only [hypothesisGuards, Bool.and_eq_true, List.any_eq_true, backsHypothesis,
      decide_eq_true_eq]
    exact ⟨Value.equals_text.mpr rfl, _, List.mem_append_right _ (List.mem_singleton_self _),
      ⟨⟨⟨Value.equals_text.mpr rfl, Value.equals_text.mpr rfl⟩, rfl⟩, _,
        List.mem_singleton_self _, Value.equals_text.mpr rfl⟩, hMatches⟩
  have hAllows : (hypothesisGuards p.engine).allows
      (s.db.hypotheses ++ [createdRow hid bound data (nextEventId s.db.events)]) = true := by
    refine allows_rows ?_ fun row hMem => ?_
    · rw [List.map_append, List.nodup_append]
      refine ⟨h.unique, List.nodup_singleton _, ?_⟩
      rintro id hId other hOther rfl
      obtain ⟨row, hMem, hSame⟩ := List.mem_map.mp hId
      rw [List.map_singleton, List.mem_singleton] at hOther
      exact hNew row hMem (hSame.trans hOther)
    · rcases List.mem_append.mp hMem with hMem | hMem
      · exact h.wellFormed hMem
      · rw [List.mem_singleton.mp hMem]
        exact ⟨⟨.open, rfl⟩, by simp [createdRow], by simp [createdRow]⟩
  have hBound : bindColumns p.engine data = .ok bound := hEngine ▸ hRow.columns
  have hRun := Statement.run_insert_one hGuard hAllows
  refine ⟨{ s.db.logged (Commit.event p now s.db (.created hid data)) with
    hypotheses := s.db.hypotheses ++ [createdRow hid bound data (nextEventId s.db.events)] }, ?_⟩
  simp only [insertHypothesis, hRecord, bind_eq_ok, pure_eq_ok, executed_eq_ok]
  exact ⟨_, rfl, _, hBound, _, hRun, rfl⟩

/-- A new hypothesis is created in `OPEN`. -/
theorem Ready.creates (h : Ready p s) (hEngine : p.engine = Engine.strict) (now : String)
    (hid : String) (payload : NormalFields) (hText : hid ≠ "")
    (hNew : ∀ row ∈ s.db.hypotheses, row.id ≠ .text hid)
    (hOpen : getField? "state" (newData p payload hid) = some (.str HState.open.text))
    (hPlain : Plain p.alnum (newData p payload hid))
    (hColumned : Columned (newData p payload hid)) :
    commit? p now s (.create payload (some hid)) = some (.created hid (newData p payload hid)) ∧
      Holds p (step p now s (.create payload (some hid))) hid .open (newData p payload hid) := by
  obtain ⟨bound, hBound, -⟩ := hColumned.bound
  have hMirrors : ∀ bound event, bindColumns Engine.strict (newData p payload hid) = .ok bound →
      Mirrors (createdRow hid bound (newData p payload hid) event) hid .open
        (newData p payload hid) := fun bound event hBound =>
    ⟨⟨rfl, rfl, rfl, newData_normal p payload hid, hOpen⟩, newData_named p payload hid, hColumned,
      hBound⟩
  have hChosen : chooseId s.db (redactFields p.alnum payload) (some hid) = (hid, s.db) := by
    simp [chooseId, hasText, hText]
  obtain ⟨after, hInsert⟩ := insertHypothesis_succeeds now h hEngine hNew
    (hMirrors bound _ hBound) hPlain
  have hCommit : commit? p now s (.create payload (some hid)) =
      some (.created hid (newData p payload hid)) := by
    have hState : fieldOf "state" (newData p payload hid) = .str HState.open.text := by
      rw [fieldOf, hOpen, Option.getD_some]
    simp [commit?, createdBy, createHypothesis, hChosen, hState, hInsert, submit]
  refine ⟨hCommit, h.holds hCommit ?_⟩
  rintro new hWrote
  cases hWrote with
  | created payload' hData hOpen' hNew' hBound' => exact hMirrors _ _ (hEngine ▸ hBound')

theorem id_dump (h : HypothesisRecord) : getField? "id" h.dump = some (.str h.id) := by
  rw [h.getField?_dump]
  rfl

/-- The row that a transition assigns mirrors the dump that it is given. -/
theorem mirrors_movedRow {h : HypothesisRecord} {bound : BoundColumns} {event : Int}
    {old : HypothesisRow} (hId : old.id = .text h.id) (hPlain : Plain p.alnum h.dump)
    (hBound : bindColumns Engine.strict h.dump = .ok bound) :
    Mirrors (movedRow p bound h event old) h.id h.state h.dump := by
  refine ⟨⟨hId, rfl, ?_, h.dump_normal, Commit.source_state⟩, id_dump h, columned_dump h, hBound⟩
  rw [movedRow, bodyText, hPlain.fields]

/-- The row that an award assigns does so too, where it has the columns already. -/
theorem mirrors_awardedRow {candidate : HypothesisRecord} {event : Int} {old : HypothesisRow}
    (hId : old.id = .text candidate.id) (hState : old.state = .text candidate.state.text)
    (hPlain : Plain p.alnum candidate.dump) (hColumns : bindColumns Engine.strict candidate.dump =
      .ok ⟨old.lens, old.protocolType, old.priorP⟩) :
    Mirrors (awardedRow p candidate event old) candidate.id candidate.state candidate.dump := by
  refine ⟨⟨hId, hState, ?_, candidate.dump_normal, Commit.source_state⟩, id_dump candidate,
    columned_dump candidate, hColumns⟩
  rw [awardedRow, bodyText, hPlain.fields]

/-- The alarm of the threshold is always recorded. -/
theorem recordThreshold_succeeds {db : Database} (hLogged : eventGuards.allows db.events = true)
    (h : HypothesisRecord) (newState : HState) :
    ∃ after, recordThreshold p now db h newState = .ok after := by
  unfold recordThreshold
  split
  · rw [recordEvent_succeeds "reopen_threshold_exceeded" now h.id hLogged
      (by simp [thresholdPayload, getField?_dictOf, lookupLast]) (by decide) (by decide)
      (by decide)]
    exact ⟨_, rfl⟩
  · exact ⟨db, rfl⟩

/-- The event of a transition is one that the state guard asks for. -/
theorem backsTransition_moved (hEngine : p.engine = Engine.strict) {token : Option DriverToken}
    {h : HypothesisRecord} {newState : HState} {cause : String} {evidence : List String}
    {old new : HypothesisRow} (hId : old.id = .text h.id) (hOld : old.state = .text h.state.text)
    (hNew : new.state = .text newState.text)
    (hEvent : new.lastEventId = .int (nextEventId s.db.events)) :
    backsTransition p.engine old new
      (Commit.event p now s.db (.moved token h newState cause evidence)) = true := by
  have hSound : (Commit.moved token h newState cause evidence).Sound := trivial
  have hNormal : (Json.obj (redactFields p.alnum
      (Commit.payload p now (.moved token h newState cause evidence)))).Normal :=
    redactFields_normal (Commit.payload_normal hSound)
  have hWalk : ∀ key text, getField? key (Commit.payload p now
      (.moved token h newState cause evidence)) = some (.str text) → redact p.alnum text = text →
      p.engine.jsonExtract (Commit.event p now s.db (.moved token h newState cause evidence)).payload
        [key] = some (.text text) := by
    intro key text hField hRedact
    rw [hEngine, Commit.event, newEvent, Engine.strict_dumps hNormal, walk, Json.get?,
      getField?_redactFields, hField, Option.map_some, redactPayload, hRedact]
    rfl
  have hFrom := hWalk "from" h.state.text
    (by simp [Commit.payload, transitionPayload, getField?_dictOf, lookupLast])
    (redact_state p.alnum h.state)
  have hTo := hWalk "to" newState.text
    (by simp [Commit.payload, transitionPayload, getField?_dictOf, lookupLast])
    (redact_state p.alnum newState)
  simp only [backsTransition, hFrom, hTo, hId, hOld, hNew, hEvent, Option.any_some,
    Bool.and_eq_true, decide_eq_true_eq, Value.equals_text, and_true]
  exact ⟨⟨⟨rfl, rfl⟩, rfl⟩, rfl⟩

/-- A transition whose guard passes on the stored state moves the hypothesis, whatever
else its copy holds. -/
theorem Holds.moves {h : HypothesisRecord} {data : Fields}
    (hHolds : Holds p s h.id h.state data) (hEngine : p.engine = Engine.strict)
    {token : Option DriverToken} {newState : HState} {cause : String} {evidence : List String}
    (hValid : Lifecycle.validateTransition p.host p.secret token h newState cause evidence =
      .ok ()) (hPlain : Plain p.alnum (moved h newState now).dump) :
    commit? p now s (.transition token h newState cause evidence) =
        some (.moved token h newState cause evidence) ∧
      Holds p (step p now s (.transition token h newState cause evidence)) h.id newState
        (moved h newState now).dump := by
  obtain ⟨hReady, old, hMem, hOld⟩ := hHolds
  obtain ⟨-, -, -, -, -, hLegal, -⟩ := Lifecycle.validateTransition_eq_ok.mp hValid
  obtain ⟨bound, hBound, -⟩ := (columned_dump (moved h newState now)).bound
  have hNew : ∀ bound event, bindColumns Engine.strict (moved h newState now).dump = .ok bound →
      Mirrors (movedRow p bound (moved h newState now) event old) h.id newState
        (moved h newState now).dump :=
    fun bound event hBound => mirrors_movedRow (h := moved h newState now) hOld.id hPlain hBound
  have hGuard := update_guard now (c := .moved token h newState cause evidence) hEngine hReady trivial
    hMem hOld.id (by simp [Commit.kind, updateKinds]) (hNew bound (nextEventId s.db.events) hBound) rfl hPlain.fields hPlain
    rfl (.inr ⟨isLegal_iff.mpr ⟨_, _, hLegal, hOld.state, rfl⟩,
      backsTransition_moved hEngine hOld.id hOld.state rfl rfl⟩)
  obtain ⟨mid, hUpdate, hEvents⟩ := updateHypothesis_succeeds
    (movedRow p bound (moved h newState now) (nextEventId s.db.events)) hReady hMem
    hOld.id (hNew bound _ hBound) rfl hGuard
  obtain ⟨after, hLast⟩ : ∃ after, recordThreshold p now mid h newState = .ok after := by
    refine recordThreshold_succeeds ?_ h newState
    rw [hEvents]
    exact allows_newEvent hReady.logged _
  have hRecord := recordEvent_succeeds (p := p) "hyp_transition" now h.id hReady.logged
    (transitionPayload_kind p h.state newState cause evidence (moved h newState now).dump)
    (by decide) (by decide) (by decide)
  have hRun : commitTransition p now s.db h newState cause evidence =
      .ok (moved h newState now, after) := by
    simp only [commitTransition, hReady.toFiled.storedRow hMem hOld.id, hRecord, bind_eq_ok,
      pure_eq_ok, raiseIf_eq_ok, decide_eq_false_iff_not, not_not]
    exact ⟨old, rfl, (), hOld.state, _, rfl, bound, hEngine ▸ hBound, mid, hUpdate, after, hLast,
      rfl⟩
  have hCommit : commit? p now s (.transition token h newState cause evidence) =
      some (.moved token h newState cause evidence) := by
    simp [commit?, transitionHypothesis, hValid, hRun, submit]
  refine ⟨hCommit, hReady.holds hCommit ?_⟩
  rintro new hWrote
  cases hWrote with
  | moved hOld' hId' hState' hValid' hBound' =>
      exact mirrors_movedRow hId' hPlain (hEngine ▸ hBound')

/-- An award that passes its guard is stored, where its copy has the stored state and
columns. -/
theorem Holds.awards (candidate : HypothesisRecord) {h : HypothesisRecord} {proof : LadderProof}
    {data : Fields}
    (hHolds : Holds p s candidate.id candidate.state data) (hEngine : p.engine = Engine.strict)
    {token : Option DriverToken}
    (hAward : Ladder.award p.host p.secret token (some h) proof.axis proof.level (some proof) =
      .ok (true, some candidate)) (hPlain : Plain p.alnum candidate.dump)
    (hColumns : bindColumns Engine.strict candidate.dump = bindColumns Engine.strict data) :
    commit? p now s (.award token h proof) = some (.awarded token h candidate proof) ∧
      Holds p (step p now s (.award token h proof)) candidate.id candidate.state
        candidate.dump := by
  obtain ⟨hReady, old, hMem, hOld⟩ := hHolds
  have hNew : ∀ event, Mirrors (awardedRow p candidate event old) candidate.id candidate.state
      candidate.dump := fun event =>
    mirrors_awardedRow hOld.id hOld.state hPlain (hColumns.trans hOld.columns)
  have hGuard := update_guard now (c := .awarded token h candidate proof) hEngine hReady
    trivial hMem hOld.id (by simp [Commit.kind, updateKinds]) (hNew (nextEventId s.db.events)) rfl
    hPlain.fields hPlain rfl (.inl rfl)
  obtain ⟨after, hUpdate, -⟩ := updateHypothesis_succeeds
    (awardedRow p candidate (nextEventId s.db.events)) hReady hMem hOld.id (hNew _) rfl
    hGuard
  have hRecord := recordEvent_succeeds (p := p) "hyp_ladder_award" now candidate.id hReady.logged
    (awardPayload_kind p proof candidate.dump) (by decide) (by decide) (by decide)
  have hLoads : Json.loads old.body.toJson.text = .ok (.obj data) := by
    rw [hOld.body]
    exact Json.loads_dumps hOld.normal
  have hGet : (Json.obj data).attrGet "state" .null = .ok (.str candidate.state.text) := by
    rw [Json.attrGet, hOld.inner]
    rfl
  have hSame : (Json.str candidate.state.text).pyEq (.str candidate.state.text) = true := by
    simp [Json.pyEq]
  have hRun : commitAward p now s.db candidate proof = .ok (candidate, after) := by
    simp only [commitAward, hReady.toFiled.storedRow hMem hOld.id, hRecord, bind_eq_ok,
      pure_eq_ok, raiseIf_eq_ok, Bool.not_eq_false']
    exact ⟨old, rfl, _, hLoads, _, hGet, (), hSame, _, rfl, after, hUpdate, rfl⟩
  have hCommit : commit? p now s (.award token h proof) =
      some (.awarded token h candidate proof) := by
    simp [commit?, awardLadder, hAward, hRun, submit]
  refine ⟨hCommit, hReady.holds hCommit ?_⟩
  rintro new hWrote
  cases hWrote with
  | @awarded _ _ _ _ old' fields hOld' hId' hLoads' hState' hAward' =>
      obtain rfl := row_eq_of_id hReady.unique hMem hOld' (hOld.id.trans hId'.symm)
      exact hNew _

/-- A save that names a cause and evidence, and no state, plans the merge with the
stored body. -/
theorem Holds.reads {st : HState} {data : Fields} (hHolds : Holds p s hid st data) (now : String)
    {payload : NormalFields} {cause : Json} {evidence : List Json}
    (hCause : getField? "cause" payload.val = some cause)
    (hEvidence : getField? "evidence" payload.val = some (.arr evidence))
    (hState : getField? "state" payload.val = none) :
    step p now s (.saveRead hid payload) =
        { s with pending := s.pending ++
          [⟨hid, payload, .update cause.text evidence (mergedFields p data payload.val hid st)⟩] } ∧
      Holds p (step p now s (.saveRead hid payload)) hid st data := by
  obtain ⟨hReady, old, hMem, hOld⟩ := hHolds
  obtain ⟨i, hFind, hAt⟩ := hReady.toFiled.found hMem hOld.id
  have hLoads : Json.loads old.body.toJson.text = .ok (.obj data) := by
    rw [hOld.body]
    exact Json.loads_dumps hOld.normal
  have hText : old.state.toJson = .str st.text := by
    rw [hOld.state]
    rfl
  have hNonempty : payload.val ≠ [] := by
    intro hNil
    rw [hNil] at hCause
    cases hCause
  have hPlan : savePlan p s.db hid payload = .ok (.update cause.text evidence
      (mergedFields p data payload.val hid st)) := by
    rw [savePlan, hFind, Option.bind_some, hAt]
    simp only [planUpdate, planMerge, hState, hText, hCause, hEvidence, if_neg hNonempty,
      bind_eq_ok, raiseIf_eq_ok, pure_eq_ok, Option.getD_none]
    refine ⟨(), by simp [Json.pyEq], evidence, rfl, _, hLoads, _, rfl, rfl⟩
  have hStep : step p now s (.saveRead hid payload) =
      { s with pending := s.pending ++
        [⟨hid, payload, .update cause.text evidence (mergedFields p data payload.val hid st)⟩] } := by
    rw [step, hPlan]
  have hFiled := hReady.toFiled.step now (.saveRead hid payload)
  refine ⟨hStep, ⟨hFiled, ?_, ?_⟩, old, ?_, hOld⟩
  · rw [hStep]
    exact hReady.logged
  · rw [hStep]
    exact hReady.earlier
  · rw [hStep]
    exact hMem

/-- The transaction of a save commits its merge, whatever was stored since. -/
theorem Holds.saves {st : HState} {stored data : Fields} (hHolds : Holds p s hid st stored)
    (hEngine : p.engine = Engine.strict) {i : Nat} {save : PendingSave} {cause : String}
    {evidence : List Json} (hAt : s.pending[i]? = some save) (hHid : save.hid = hid)
    (hPlan : save.plan = .update cause evidence data)
    (hNamed : getField? "id" data = some (.str hid))
    (hState : getField? "state" data = some (.str st.text)) (hPlain : Plain p.alnum data)
    (hColumned : Columned data) :
    commit? p now s (.saveCommit i) = some (.saved save cause evidence data) ∧
      Holds p (step p now s (.saveCommit i)) hid st data := by
  subst hHid
  obtain ⟨hReady, old, hMem, hOld⟩ := hHolds
  have hSound : (Commit.saved save cause evidence data).Sound := by
    have hPlanned := hReady.planned save (List.mem_of_getElem? hAt)
    rw [hPlan] at hPlanned
    cases hPlanned with
    | update cause evidence fields st' hEvidence hFields =>
        exact ⟨mergedFields_normal hFields, hEvidence⟩
  obtain ⟨bound, hBound, -⟩ := hColumned.bound
  have hNew : ∀ bound event, bindColumns Engine.strict data = .ok bound →
      Mirrors (savedRow bound data event old) save.hid st data := fun bound event hBound =>
    ⟨⟨hOld.id, hOld.state, rfl, hSound.1, hState⟩, hNamed, hColumned, hBound⟩
  have hGuard := update_guard now (c := .saved save cause evidence data) hEngine hReady
    hSound hMem hOld.id (by simp [Commit.kind, updateKinds])
    (hNew bound (nextEventId s.db.events) hBound) rfl rfl hPlain rfl (.inl rfl)
  obtain ⟨after, hUpdate, -⟩ := updateHypothesis_succeeds
    (savedRow bound data (nextEventId s.db.events)) hReady hMem hOld.id
    (hNew bound _ hBound) rfl hGuard
  have hRecord := recordEvent_succeeds (p := p) "hyp_updated" now save.hid hReady.logged
    (updatedPayload_kind cause evidence data) (by decide) (by decide) (by decide)
  have hRun : commitSave p now s.db save.hid cause evidence data = .ok (.obj data, after) := by
    simp only [commitSave, hRecord, bind_eq_ok, pure_eq_ok]
    exact ⟨_, rfl, bound, hEngine ▸ hBound, after, hUpdate, rfl⟩
  have hCommit : commit? p now s (.saveCommit i) = some (.saved save cause evidence data) := by
    simp [commit?, hAt, savedBy, hPlan, hRun, submit]
  refine ⟨hCommit, hReady.holds hCommit ?_⟩
  rintro new hWrote
  cases hWrote with
  | saved hOld' hId' hPlan' hPlanned' hBound' =>
      obtain rfl := row_eq_of_id hReady.unique hMem hOld' (hOld.id.trans hId'.symm)
      exact hNew _ _ (hEngine ▸ hBound')

/-- A hypothesis that is held has its data as the stored body. -/
theorem Holds.body {st : HState} {data : Fields} (hHolds : Holds p s hid st data) :
    Body s.db hid data := by
  obtain ⟨-, row, hMem, hRow⟩ := hHolds
  exact ⟨row, hMem, st, hRow.toRowOf⟩

end Calls
section Sample

def sampleSecret : Bytes := List.replicate 32 0

/-- What HMAC-SHA256 gives for `driver|1` under that secret. -/
def sampleMac : String := "c68d32962e7e6f5712cc5a25eddf824cc77971427cfc1e6633c3ddde529d9a16"

theorem sampleMac_ascii : ∀ c ∈ sampleMac.toList, c.toNat < 128 := by
  have h : sampleMac.toList.all (fun c => c.toNat < 128) = true := by decide
  simpa using h

def sampleToken : DriverToken := ⟨"driver", true, sampleMac⟩

/-- The runs of the sample take no digest and read no files. -/
def sampleHost : Host where
  sha256 raw := hexOfBytes raw
  hmacSha256 key raw := if key = sampleSecret ∧ raw = sampleToken.payload then sampleMac else ""
  keccak _ := []
  safeLoad _ := .error "not read"
  tomlLoads _ := .error "not read"
  forgeBuild _ := .error "not run"
  hmac_ascii key raw := by
    split
    · exact sampleMac_ascii
    · simp

def samplePlatform : Platform := ⟨Engine.strict, fun _ => false, sampleHost, sampleSecret⟩

/-- The token of the sample is the driver's. -/
theorem sampleToken_valid : sampleToken.isValid sampleHost sampleSecret = .ok true := by
  decide

def sampleTime : String := "2026-01-01T00:00:00Z"

/-- A hypothesis in some state, with some levels and some count of reopenings. -/
def sample (state : HState) (ladder : LadderMap) (count : Nat) : HypothesisRecord where
  claim := "shares round up"
  target := ⟨"src/Vault.sol", 1, 1, "", by decide⟩
  mechanismTag := "rounding"
  provenance := []
  id := "H-001"
  invariantId := "I-001"
  capabilities := [.permissionless]
  preconditions := []
  assumptions := []
  attackSketch := []
  lens := none
  channel := .lens
  protocolType := "vault"
  canonicalKey := none
  priorP := ⟨⟨false, 0, by decide +kernel, by decide +kernel⟩, by decide +kernel⟩
  estImpact := "low"
  estCost := "low"
  state := state
  ladder := ladder
  witnessFeasibility := .undetermined
  skepticDisposition := .none
  skepticDefects := []
  secondOpinionDisposition := .none
  secondOpinionDefects := []
  disputed := false
  dispute := none
  parkedUnblock := none
  closeReason := none
  mergedInto := none
  duplicateOf := none
  reopenCount := count
  parentHypotheses := []
  compositionRationale := none
  createdAt := sampleTime
  updatedAt := sampleTime
  provenanceNormal := ⟨.nil, trivial⟩

/-- Where no pattern can begin, redaction leaves the fields. -/
theorem plain_quiet {alnum : Char → Bool} {data : Fields} (h : quietFields data = true) :
    Plain alnum data := by
  refine ⟨?_, redact_dumps_quiet h⟩
  have hFields := @redactPayload_quiet alnum (.obj data) h
  rw [redactPayload] at hFields
  exact Json.obj.inj hFields

/-- A body is quiet where the fields of its record are. -/
theorem dump_plain {alnum : Char → Bool} {h : HypothesisRecord}
    (hQuiet : quietFields h.pairs = true) : Plain alnum h.dump :=
  plain_quiet (quietFields_dictOf hQuiet)

/-- The states and counts that the sample goes through. -/
def sampleStates : List (HState × Nat) :=
  [(.open, 0), (.investigating, 0), (.closed, 0), (.investigating, 1)]

/-- No pattern of redaction can begin in any of the sample bodies. -/
theorem samples_quiet :
    (sampleStates.all fun x => quietFields (sample x.1 ∅ x.2).pairs) = true := by decide +kernel

/-- Redaction leaves every body of the sample, whatever counts as a letter. -/
theorem sample_plain {alnum : Char → Bool} {x : HState × Nat} (h : x ∈ sampleStates) :
    Plain alnum (sample x.1 ∅ x.2).dump :=
  dump_plain (List.all_eq_true.mp samples_quiet x h)

theorem sample_open : Plain (fun _ => false) (sample .open ∅ 0).dump :=
  @sample_plain _ (.open, 0) (by simp [sampleStates])

/-- The dump of a hypothesis in `OPEN` is what its creation stores. -/
theorem newData_dump {p : Platform} {h : HypothesisRecord} (hPlain : Plain p.alnum h.dump) :
    newData p h.dump h.id = h.dump := by
  have hId : setField "id" (.str h.id) h.dump = h.dump :=
    setField_same h.dump_normal.1 (id_dump h)
  have hState : getField? "state" h.dump = some (.str h.state.text) := Commit.source_state
  simp only [newData, hPlain.fields, hId, hState]

def samplePayload : NormalFields := ⟨(sample .open ∅ 0).dump, HypothesisRecord.dump_normal _⟩

def sampleCreate : String × Call := (sampleTime, .create samplePayload (some "H-001"))

/-- The first call of the sample creates its hypothesis. -/
theorem sample_created : commit? samplePlatform sampleCreate.1 System.empty sampleCreate.2 =
      some (.created "H-001" (sample .open ∅ 0).dump) ∧
    Holds samplePlatform (run samplePlatform System.empty [sampleCreate]) "H-001" .open
      (sample .open ∅ 0).dump := by
  have hData : newData samplePlatform samplePayload.val "H-001" = (sample .open ∅ 0).dump :=
    newData_dump (h := sample .open ∅ 0) sample_open
  have hCreates := (ready_empty samplePlatform).creates rfl sampleTime
    "H-001" samplePayload (by decide) (fun _ hMem => absurd hMem List.not_mem_nil)
    (by rw [hData]; exact Commit.source_state (h := sample .open ∅ 0))
    (by rw [hData]; exact sample_open) (by rw [hData]; exact columned_dump _)
  rw [hData] at hCreates
  exact hCreates

def sampleMove (src dst : HState) (count : Nat) (evidence : List String) : String × Call :=
  (sampleTime, .transition (some sampleToken) (sample src ∅ count) dst "reviewed" evidence)

/-- Where `validate_transition` accepts it, a transition of the held hypothesis commits. -/
theorem sample_moves (after : HypothesisRecord) {s : System} {src dst : HState} {count : Nat}
    {evidence : List String} {data : Fields} (hHolds : Holds samplePlatform s "H-001" src data)
    (hValid : Lifecycle.validateTransition sampleHost sampleSecret (some sampleToken)
      (sample src ∅ count) dst "reviewed" evidence = .ok ())
    (hAfter : moved (sample src ∅ count) dst sampleTime = after)
    (hPlain : Plain (fun _ => false) after.dump) :
    commit? samplePlatform (sampleMove src dst count evidence).1 s
        (sampleMove src dst count evidence).2 =
        some (.moved (some sampleToken) (sample src ∅ count) dst "reviewed" evidence) ∧
      Holds samplePlatform (run samplePlatform s [sampleMove src dst count evidence]) "H-001" dst
        after.dump := by
  subst hAfter
  exact Holds.moves (h := sample src ∅ count) hHolds rfl hValid hPlain

def sampleBegin : String × Call :=
  sampleMove .open .investigating 0 ["task:T-001", "scope:Vault"]

theorem sample_investigating : Plain (fun _ => false) (sample .investigating ∅ 0).dump :=
  @sample_plain _ (.investigating, 0) (by simp [sampleStates])

/-- The second call of the sample takes the hypothesis to `INVESTIGATING`. -/
theorem sample_begun : commit? samplePlatform sampleBegin.1
      (run samplePlatform System.empty [sampleCreate]) sampleBegin.2 = some (.moved
        (some sampleToken) (sample .open ∅ 0) .investigating "reviewed"
        ["task:T-001", "scope:Vault"]) ∧
    Holds samplePlatform (run samplePlatform System.empty ([sampleCreate] ++ [sampleBegin])) "H-001"
      .investigating (sample .investigating ∅ 0).dump := by
  rw [run_append]
  exact sample_moves _ sample_created.2 (by decide +kernel) rfl sample_investigating

/-- A payload that names none of the columns. -/
def barePayload : NormalFields := ⟨[("claim", .str "shares round up")], by decide +kernel⟩

def bareData : Fields :=
  [("claim", .str "shares round up"), ("id", .str "H-001"), ("state", .str "OPEN")]

def bareCreate : String × Call := (sampleTime, .create barePayload (some "H-001"))

theorem bare_plain : Plain (fun _ => false) bareData := plain_quiet (by decide +kernel)

/-- What the creation makes of the bare payload. -/
theorem bare_newData : newData samplePlatform barePayload.val "H-001" = bareData := by
  have hPlain : Plain (fun _ => false) barePayload.val := plain_quiet (by decide +kernel)
  have hFields : redactFields samplePlatform.alnum barePayload.val = barePayload.val :=
    hPlain.fields
  rw [newData, hFields]
  decide +kernel

/-- A payload without the columns is stored under the defaults of the columns. -/
theorem bare_created : commit? samplePlatform bareCreate.1 System.empty bareCreate.2 =
      some (.created "H-001" bareData) ∧
    Holds samplePlatform (run samplePlatform System.empty [bareCreate]) "H-001" .open bareData := by
  have hCreates := (ready_empty samplePlatform).creates rfl sampleTime
    "H-001" barePayload (by decide) (fun _ hMem => absurd hMem List.not_mem_nil)
    (by rw [bare_newData]; rfl) (by rw [bare_newData]; exact bare_plain)
    (by rw [bare_newData]; exact ⟨⟨none, rfl⟩, ⟨none, rfl⟩, .inl rfl⟩)
  rw [bare_newData] at hCreates
  exact hCreates

end Sample
end L0vi0x.Core.Store
