import L0vi0x.Core.GuardedTables
import L0vi0x.Core.Store

/-! What the transactions of the store do to the log and to the row of a
hypothesis, one inversion for each. -/
namespace L0vi0x.Core.Store

open L0vi0x.Python L0vi0x.Sql L0vi0x.Core.Redaction

/-- The event that a transaction on a hypothesis records. -/
def newEvent (p : Platform) (now : String) (db : Database) (hid kind : String)
    (payload : Fields) : Event :=
  ⟨nextEventId db.events, .text now, .text kind, .text "hypothesis", .text hid,
    .text (Json.obj (redactFields p.alnum payload)).dumps⟩

def Database.logged (db : Database) (e : Event) : Database :=
  { db with events := db.events ++ [e] }

section Log

/-- The next event id is above every one of the log. -/
theorem lt_nextEventId {events : List Event} {e : Event} (h : e ∈ events) :
    e.id < nextEventId events := by
  unfold nextEventId
  cases hMax : (events.map Event.id).max? with
  | none =>
      rw [List.max?_eq_none_iff, List.map_eq_nil_iff] at hMax
      rw [hMax] at h
      cases h
  | some top =>
      have hLe := (List.max?_eq_some_iff.mp hMax).2 e.id (List.mem_map_of_mem h)
      change e.id < top + 1
      omega

theorem executed_eq_ok {α : Type} {after : Option α} {rows : α} :
    executed after = .ok rows ↔ after = some rows := by
  cases after <;> simp [executed, raise, pure, Except.pure]

/-- An event that is recorded is appended with the next id. -/
theorem recordEvent_appends {p : Platform} {now entity entityId : String} {db db' : Database}
    {payload : Fields} {id : Int}
    (h : recordEvent p now db entity entityId payload = .ok (id, db')) :
    ∃ e : Event, e.entity = .text entity ∧ e.id = nextEventId db.events ∧
      e.payload = .text (Json.obj (redactFields p.alnum payload)).dumps ∧ id = e.id ∧
      db' = db.logged e := by
  simp only [recordEvent, bind_eq_ok, executed_eq_ok, pure_eq_ok] at h
  obtain ⟨written, -, _, -, events, hInsert, h⟩ := h
  simp only [Statement.run, List.foldlM_cons, List.foldlM_nil, Option.bind_eq_bind,
    Option.bind_eq_some_iff, Option.pure_def, Option.some.injEq] at hInsert
  obtain ⟨rows, hRow, rfl⟩ := hInsert
  obtain ⟨-, -, rfl⟩ := insertRow_eq_some.mp hRow
  rw [Prod.mk.injEq] at h
  exact ⟨_, rfl, rfl, rfl, h.1.symm, h.2.symm⟩

/-- An event whose kind no redaction changes is appended as it is. -/
theorem recordEvent_eq_ok (kind : String) {p : Platform} {now hid : String} {db db' : Database}
    {payload : Fields} {id : Int} (hKind : getField? "kind" payload = some (.str kind))
    (hPlain : kind ∈ plainNames)
    (h : recordEvent p now db "hypothesis" hid payload = .ok (id, db')) :
    id = nextEventId db.events ∧ db' = db.logged (newEvent p now db hid kind payload) := by
  rw [recordEvent] at h
  simp only [getField?_redactFields, hKind, Option.map_some, redactPayload, redact_plain hPlain,
    Option.getD_some, Json.text_str, bind_eq_ok, executed_eq_ok, pure_eq_ok] at h
  obtain ⟨written, hValid, _, _, events, hInsert, h⟩ := h
  have hSame : written = kind := by
    unfold validateKind at hValid
    split at hValid
    · exact (pure_eq_ok.mp hValid).symm
    · simp at hValid
  subst hSame
  simp only [Statement.run, List.foldlM_cons, List.foldlM_nil, Option.bind_eq_bind,
    Option.bind_eq_some_iff, Option.pure_def, Option.some.injEq] at hInsert
  obtain ⟨rows, hRow, rfl⟩ := hInsert
  obtain ⟨-, -, rfl⟩ := insertRow_eq_some.mp hRow
  rw [Prod.mk.injEq] at h
  exact ⟨h.1.symm, h.2.symm⟩

end Log

section Update

variable {p : Platform} {db db' : Database} {hid : String}

/-- A hypothesis that is found has the id that was looked for. -/
theorem findHypothesis_eq_some {i : Nat} (h : findHypothesis db hid = some i) :
    ∃ row, db.hypotheses[i]? = some row ∧ row.id = .text hid := by
  rw [findHypothesis, List.findIdx?_eq_some_iff_getElem] at h
  obtain ⟨hLt, hId, -⟩ := h
  exact ⟨db.hypotheses[i], List.getElem?_eq_getElem hLt, Value.equals_text.mp hId⟩

/-- Where no hypothesis is found, no row has its id. -/
theorem findHypothesis_eq_none (h : findHypothesis db hid = none) :
    ∀ row ∈ db.hypotheses, row.id ≠ .text hid := by
  rw [findHypothesis, List.findIdx?_eq_none_iff] at h
  intro row hRow hId
  have hNot := h row hRow
  rw [hId, Value.equals_text.mpr rfl] at hNot
  cases hNot

/-- The event is logged, and the row of the hypothesis, where there is one, is
assigned under the guards of its table. -/
inductive Rewrites (engine : Engine) (db : Database) (hid : String) (e : Event)
    (assign : HypothesisRow → HypothesisRow) : Database → Prop where
  | absent (hNone : ∀ row ∈ db.hypotheses, row.id ≠ .text hid) :
      Rewrites engine db hid e assign (db.logged e)
  | row (i : Nat) (old : HypothesisRow) (hFind : findHypothesis db hid = some i)
      (hAt : db.hypotheses[i]? = some old) (hId : old.id = .text hid)
      (hGuard : (hypothesisGuards engine).update (db.events ++ [e]) old (assign old) = true)
      (hAllows : (hypothesisGuards engine).allows (db.hypotheses.set i (assign old)) = true) :
      Rewrites engine db hid e assign
        { db.logged e with hypotheses := db.hypotheses.set i (assign old) }

/-- An update that returns has assigned the row under the guards. -/
theorem updateHypothesis_eq_ok {engine : Engine} {e : Event}
    {assign : HypothesisRow → HypothesisRow}
    (h : updateHypothesis engine (db.logged e) hid assign = .ok db') :
    Rewrites engine db hid e assign db' := by
  unfold updateHypothesis at h
  cases hFind : findHypothesis (db.logged e) hid with
  | none =>
      rw [hFind, pure_eq_ok] at h
      subst h
      exact .absent (@findHypothesis_eq_none db _ hFind)
  | some i =>
      obtain ⟨old, hAt, hId⟩ := @findHypothesis_eq_some db _ _ hFind
      have hAt' : (db.logged e).hypotheses[i]? = some old := hAt
      simp only [hFind, hAt', Option.map_some, Option.toList_some, bind_eq_ok, executed_eq_ok,
        pure_eq_ok, Statement.run, List.foldlM_cons, List.foldlM_nil, Option.bind_eq_bind,
        Option.bind_eq_some_iff, Option.pure_def, Option.some.injEq] at h
      obtain ⟨rows, ⟨rows', hRow, rfl⟩, rfl⟩ := h
      obtain ⟨old', hOld, hGuard, hAllows, rfl⟩ := updateRow_eq_some.mp hRow
      rw [hAt'] at hOld
      cases hOld
      exact .row i old hFind hAt hId hGuard hAllows

/-- A row that is read is the one that is found. -/
theorem storedRow_eq_ok {row : HypothesisRow} (h : storedRow db hid = .ok row) :
    ∃ i, findHypothesis db hid = some i ∧ db.hypotheses[i]? = some row := by
  unfold storedRow at h
  cases hFind : findHypothesis db hid with
  | none => simp [hFind] at h
  | some i =>
      obtain ⟨found, hAt, -⟩ := findHypothesis_eq_some hFind
      rw [hFind, Option.bind_some, hAt, pure_eq_ok] at h
      exact ⟨i, rfl, h ▸ hAt⟩

end Update

section Transactions

variable {p : Platform} {now hid : String} {db db' : Database}

theorem submit_eq_ok {α : Type} {txn : Py (α × Database)} {a : α}
    (h : submit db txn = (.ok a, db')) : txn = .ok (a, db') := by
  unfold submit at h
  cases txn with
  | ok r =>
      simp only [Prod.mk.injEq, Except.ok.injEq] at h
      rw [← h.1, ← h.2]
  | error e => simp at h

/-- A transaction that raises leaves the database. -/
theorem submit_error {α : Type} {txn : Py (α × Database)} {e : PyError}
    (h : submit db txn = (.error e, db')) : db' = db := by
  unfold submit at h
  cases txn with
  | ok r => simp at h
  | error e' =>
      rw [Prod.mk.injEq] at h
      exact h.2.symm

def savedRow (bound : BoundColumns) (data : Fields) (event : Int) (row : HypothesisRow) :
    HypothesisRow :=
  { row with
    lens := bound.lens, protocolType := bound.protocolType, priorP := bound.priorP,
    body := .text (Json.obj data).dumps, lastEventId := .int event }

/-- What the commit of a save has done when it returns. -/
theorem commitSave_eq_ok {cause : String} {evidence : List Json} {data : Fields} {result : Json}
    (h : commitSave p now db hid cause evidence data = .ok (result, db')) :
    result = .obj data ∧ ∃ bound, bindColumns p.engine data = .ok bound ∧
      Rewrites p.engine db hid
        (newEvent p now db hid "hyp_updated" (updatedPayload cause evidence data))
        (savedRow bound data (nextEventId db.events)) db' := by
  simp only [commitSave, bind_eq_ok, pure_eq_ok, Prod.mk.injEq] at h
  obtain ⟨⟨id, mid⟩, hRecord, bound, hBound, after, hUpdate, rfl, rfl⟩ := h
  obtain ⟨rfl, rfl⟩ := recordEvent_eq_ok "hyp_updated"
    (by simp [updatedPayload, getField?_dictOf, lookupLast]) (by decide) hRecord
  exact ⟨rfl, bound, hBound, updateHypothesis_eq_ok hUpdate⟩

def movedRow (p : Platform) (bound : BoundColumns) (h : HypothesisRecord) (event : Int)
    (row : HypothesisRow) : HypothesisRow :=
  { row with
    state := .text h.state.text, lens := bound.lens, protocolType := bound.protocolType,
    priorP := bound.priorP, body := .text (bodyText p h.dump), lastEventId := .int event }

/-- The event of the third reopening, where the transition is one. -/
def thresholdEvents (p : Platform) (now : String) (db : Database) (h : HypothesisRecord)
    (newState : HState) : List Event :=
  if Lifecycle.isReopen h.state newState && h.reopenCount + 1 = 3 then
    [newEvent p now db h.id "reopen_threshold_exceeded" thresholdPayload]
  else []

theorem recordThreshold_eq_ok {h : HypothesisRecord} {newState : HState}
    (hRecord : recordThreshold p now db h newState = .ok db') :
    db' = { db with events := db.events ++ thresholdEvents p now db h newState } := by
  unfold recordThreshold at hRecord
  unfold thresholdEvents
  split
  · rename_i hThird
    rw [if_pos hThird, bind_eq_ok] at hRecord
    obtain ⟨⟨id, after⟩, hRecord, hPure⟩ := hRecord
    rw [pure_eq_ok] at hPure
    obtain ⟨-, rfl⟩ := recordEvent_eq_ok "reopen_threshold_exceeded"
      (by simp [thresholdPayload, getField?_dictOf, lookupLast]) (by decide) hRecord
    exact hPure.symm
  · rename_i hThird
    rw [if_neg hThird, pure_eq_ok] at hRecord
    simp [hRecord]

/-- What the commit of a transition has done when it returns. -/
theorem commitTransition_eq_ok {h : HypothesisRecord} {newState : HState} {cause : String}
    {evidence : List String} {result : HypothesisRecord}
    (hCommit : commitTransition p now db h newState cause evidence = .ok (result, db')) :
    result = moved h newState now ∧ ∃ i row bound mid, findHypothesis db h.id = some i ∧
      db.hypotheses[i]? = some row ∧ row.state = .text h.state.text ∧
      bindColumns p.engine (moved h newState now).dump = .ok bound ∧
      Rewrites p.engine db h.id (newEvent p now db h.id "hyp_transition"
          (transitionPayload p h.state newState cause evidence (moved h newState now).dump))
        (movedRow p bound (moved h newState now) (nextEventId db.events)) mid ∧
      db' = { mid with events := mid.events ++ thresholdEvents p now mid h newState } := by
  simp only [commitTransition, bind_eq_ok, pure_eq_ok, Prod.mk.injEq, raiseIf_eq_ok,
    decide_eq_false_iff_not, not_not] at hCommit
  obtain ⟨row, hRow, _, hState, ⟨id, mid⟩, hRecord, bound, hBound, after, hUpdate, last, hLast,
    rfl, rfl⟩ := hCommit
  obtain ⟨i, hFind, hAt⟩ := storedRow_eq_ok hRow
  obtain ⟨rfl, rfl⟩ := recordEvent_eq_ok "hyp_transition"
    (by simp [transitionPayload, getField?_dictOf, lookupLast]) (by decide) hRecord
  exact ⟨rfl, i, row, bound, after, hFind, hAt, hState, hBound, updateHypothesis_eq_ok hUpdate,
    recordThreshold_eq_ok hLast⟩

def awardedRow (p : Platform) (candidate : HypothesisRecord) (event : Int)
    (row : HypothesisRow) : HypothesisRow :=
  { row with body := .text (bodyText p candidate.dump), lastEventId := .int event }

/-- What the commit of an award has done when it returns. -/
theorem commitAward_eq_ok {candidate : HypothesisRecord} {proof : LadderProof}
    {result : HypothesisRecord}
    (hCommit : commitAward p now db candidate proof = .ok (result, db')) :
    result = candidate ∧ ∃ i row fields, findHypothesis db candidate.id = some i ∧
      db.hypotheses[i]? = some row ∧ Json.loads row.body.toJson.text = .ok (.obj fields) ∧
      ((getField? "state" fields).getD .null).pyEq (.str candidate.state.text) = true ∧
      Rewrites p.engine db candidate.id
        (newEvent p now db candidate.id "hyp_ladder_award" (awardPayload p proof candidate.dump))
        (awardedRow p candidate (nextEventId db.events)) db' := by
  simp only [commitAward, bind_eq_ok, pure_eq_ok, Prod.mk.injEq, raiseIf_eq_ok,
    Bool.not_eq_false'] at hCommit
  obtain ⟨row, hRow, current, hLoads, state, hGet, _, hState, ⟨id, mid⟩, hRecord, after, hUpdate,
    rfl, rfl⟩ := hCommit
  obtain ⟨i, hFind, hAt⟩ := storedRow_eq_ok hRow
  obtain ⟨rfl, rfl⟩ := recordEvent_eq_ok "hyp_ladder_award"
    (by simp [awardPayload, getField?_dictOf, lookupLast]) (by decide) hRecord
  cases current with
  | obj fields =>
      rw [Json.attrGet, pure_eq_ok] at hGet
      rw [← hGet] at hState
      exact ⟨rfl, i, row, fields, hFind, hAt, hLoads, hState, updateHypothesis_eq_ok hUpdate⟩
  | _ => simp [Json.attrGet] at hGet

def createdRow (hid : String) (bound : BoundColumns) (data : Fields) (event : Int) :
    HypothesisRow :=
  ⟨.text hid, .text HState.open.text, bound.lens, bound.protocolType, bound.priorP,
    .text (Json.obj data).dumps, .int event⟩

theorem insertHypothesis_eq_ok {data result : Fields}
    (h : insertHypothesis p now db hid data = .ok (result, db')) :
    result = data ∧ ∃ bound, bindColumns p.engine data = .ok bound ∧
      let e := newEvent p now db hid "hyp_created" (createdPayload data)
      let row := createdRow hid bound data (nextEventId db.events)
      (hypothesisGuards p.engine).insert (db.events ++ [e]) row = true ∧
        (hypothesisGuards p.engine).allows (db.hypotheses ++ [row]) = true ∧
        db' = { db.logged e with hypotheses := db.hypotheses ++ [row] } := by
  simp only [insertHypothesis, bind_eq_ok, pure_eq_ok, Prod.mk.injEq, executed_eq_ok] at h
  obtain ⟨⟨id, mid⟩, hRecord, bound, hBound, rows, hInsert, rfl, rfl⟩ := h
  obtain ⟨rfl, rfl⟩ := recordEvent_eq_ok "hyp_created"
    (by simp [createdPayload, getField?_dictOf, lookupLast]) (by decide) hRecord
  simp only [Statement.run, List.foldlM_cons, List.foldlM_nil, Option.bind_eq_bind,
    Option.bind_eq_some_iff, Option.pure_def, Option.some.injEq] at hInsert
  obtain ⟨rows', hRow, rfl⟩ := hInsert
  obtain ⟨hGuard, hAllows, rfl⟩ := insertRow_eq_some.mp hRow
  exact ⟨rfl, bound, hBound, hGuard, hAllows, rfl⟩

end Transactions
end L0vi0x.Core.Store
