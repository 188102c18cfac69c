import L0vi0x.Core.StoreRuns

/-! What a call commits, and what every store that calls have built keeps. -/
namespace L0vi0x.Core.Store

open L0vi0x.Python L0vi0x.Sql L0vi0x.Core.Redaction

/-- What a stored row holds: a hypothesis in a state, with its body. -/
structure RowOf (row : HypothesisRow) (hid : String) (s : HState) (data : Fields) : Prop where
  id : row.id = .text hid
  state : row.state = .text s.text
  body : row.body = .text (Json.obj data).dumps
  normal : (Json.obj data).Normal
  inner : getField? "state" data = some (.str s.text)

/-- `{**fields, **payload, "id": hid, "state": s}` without the cause and the
evidence, redacted. -/
def mergedFields (p : Platform) (fields payload : Fields) (hid : String) (s : HState) : Fields :=
  redactFields p.alnum (setField "state" (.str s.text) (setField "id" (.str hid)
    (updateFields fields (eraseField "evidence" (eraseField "cause" payload)))))

/-- What a save can plan. -/
inductive Planned (p : Platform) (hid : String) (payload : NormalFields) : SavePlan → Prop where
  | create : Planned p hid payload (.create payload)
  | unchanged (value : Json) : Planned p hid payload (.unchanged value)
  | update (cause : Json) (evidence : List Json) (fields : Fields) (s : HState)
      (hEvidence : ∀ j ∈ evidence, j.Normal) (hFields : (Json.obj fields).Normal) :
      Planned p hid payload
        (.update cause.text evidence (mergedFields p fields payload.val hid s))

def SavePlan.isUpdate : SavePlan → Bool
  | .update .. => true
  | _ => false

/-- The row that a commit leaves, by what it found. -/
inductive Wrote (p : Platform) (now : String) (db : Database) : Commit → HypothesisRow → Prop where
  | created {hid : String} {data : Fields} {bound : BoundColumns} (payload : NormalFields)
      (hData : data = newData p payload.val hid) (hOpen : fieldOf "state" data = .str "OPEN")
      (hNew : ∀ row ∈ db.hypotheses, row.id ≠ .text hid)
      (hBound : bindColumns p.engine data = .ok bound) :
      Wrote p now db (.created hid data) (createdRow hid bound data (nextEventId db.events))
  | saved {save : PendingSave} {cause : String} {evidence : List Json} {data : Fields}
      {bound : BoundColumns} {old : HypothesisRow} (hOld : old ∈ db.hypotheses)
      (hId : old.id = .text save.hid) (hPlan : save.plan = .update cause evidence data)
      (hPlanned : Planned p save.hid save.payload save.plan)
      (hBound : bindColumns p.engine data = .ok bound) :
      Wrote p now db (.saved save cause evidence data)
        (savedRow bound data (nextEventId db.events) old)
  | moved {token : Option DriverToken} {h : HypothesisRecord} {newState : HState}
      {cause : String} {evidence : List String} {bound : BoundColumns} {old : HypothesisRow}
      (hOld : old ∈ db.hypotheses) (hId : old.id = .text h.id)
      (hState : old.state = .text h.state.text)
      (hValid : Lifecycle.validateTransition p.host p.secret token h newState cause evidence =
        .ok ())
      (hBound : bindColumns p.engine (moved h newState now).dump = .ok bound) :
      Wrote p now db (.moved token h newState cause evidence)
        (movedRow p bound (moved h newState now) (nextEventId db.events) old)
  | awarded {token : Option DriverToken} {h candidate : HypothesisRecord} {proof : LadderProof}
      {old : HypothesisRow} {fields : Fields} (hOld : old ∈ db.hypotheses)
      (hId : old.id = .text candidate.id)
      (hLoads : Json.loads old.body.toJson.text = .ok (.obj fields))
      (hState : ((getField? "state" fields).getD .null).pyEq (.str candidate.state.text) = true)
      (hAward : Ladder.award p.host p.secret token (some h) proof.axis proof.level (some proof) =
        .ok (true, some candidate)) :
      Wrote p now db (.awarded token h candidate proof)
        (awardedRow p candidate (nextEventId db.events) old)

/-- A commit logs its events and leaves one row of its hypothesis, which the
event of the commit backs; the other rows stay. -/
structure Committed (p : Platform) (now : String) (db : Database) (c : Commit)
    (after : Database) : Prop where
  events : after.events = db.events ++ c.event p now db :: c.alarm p now db
  row : ∃ new, Wrote p now db c new ∧
    matchesSnapshot p.engine (c.event p now db) new.snapshotColumns = true ∧
    ∀ row, row ∈ after.hypotheses ↔ row = new ∨ row ∈ db.hypotheses ∧ row.id ≠ .text c.hid
  unique : (after.hypotheses.map HypothesisRow.id).Nodup

/-- A call that commits nothing leaves the rows and the events of hypotheses. -/
structure Quiet (db after : Database) : Prop where
  rows : after.hypotheses = db.hypotheses
  events : after.events = db.events ∨ ∃ e, e.entity ≠ .text "hypothesis" ∧
    e.id = nextEventId db.events ∧ after.events = db.events ++ [e]

/-- What every store that calls have built keeps. -/
structure Filed (p : Platform) (s : System) : Prop where
  increasing : (s.db.events.map Event.id).Pairwise (· < ·)
  unique : (s.db.hypotheses.map HypothesisRow.id).Nodup
  stored : ∀ row ∈ s.db.hypotheses, ∃ hid st data, RowOf row hid st data
  planned : ∀ save ∈ s.pending, Planned p save.hid save.payload save.plan
  present : ∀ save ∈ s.pending, save.plan.isUpdate = true →
    ∃ row ∈ s.db.hypotheses, row.id = .text save.hid

section Rows

variable {engine : Engine} {p : Platform} {db after : Database} {hid : String} {e : Event}

theorem RowOf.agree {row : HypothesisRow} {hid hid' : String} {s s' : HState}
    {data data' : Fields} (h : RowOf row hid s data) (h' : RowOf row hid' s' data') :
    hid = hid' ∧ s = s' ∧ data = data' := by
  have hId := h.id.symm.trans h'.id
  have hState := h.state.symm.trans h'.state
  have hBody := h.body.symm.trans h'.body
  rw [Value.text.injEq] at hId hState hBody
  have hData := Json.dumps_injective h.normal h'.normal hBody
  exact ⟨hId, HState.text_injective hState, Json.obj.inj hData⟩

/-- The primary key of hypotheses keeps their ids apart, where none is null. -/
theorem allows_nodup {rows : List HypothesisRow}
    (h : (hypothesisGuards engine).allows rows = true) (hText : ∀ row ∈ rows, row.id ≠ .null) :
    (rows.map HypothesisRow.id).Nodup := by
  rw [hypothesisGuards, Bool.and_eq_true, decide_eq_true_eq] at h
  have hAll : (rows.map HypothesisRow.id).filter (· ≠ .null) = rows.map HypothesisRow.id := by
    rw [List.filter_eq_self]
    intro id hMem
    obtain ⟨row, hRow, rfl⟩ := List.mem_map.mp hMem
    exact decide_eq_true (hText row hRow)
  rw [hAll] at h
  exact h.1

/-- A stored id names one row. -/
theorem row_eq_of_id {rows : List HypothesisRow} (hUnique : (rows.map HypothesisRow.id).Nodup)
    {a b : HypothesisRow} (ha : a ∈ rows) (hb : b ∈ rows) (h : a.id = b.id) : a = b :=
  List.inj_on_of_nodup_map hUnique ha hb h

/-- Replacing the row of an id leaves the rows of the other ids. -/
theorem mem_set_iff {rows : List HypothesisRow} (hUnique : (rows.map HypothesisRow.id).Nodup)
    {i : Nat} {old new row : HypothesisRow} (hAt : rows[i]? = some old) :
    row ∈ rows.set i new ↔ row = new ∨ row ∈ rows ∧ row.id ≠ old.id := by
  obtain ⟨hLt, -⟩ := List.getElem?_eq_some_iff.mp hAt
  constructor
  · intro hMem
    obtain ⟨j, hj⟩ := List.mem_iff_getElem?.mp hMem
    by_cases hij : i = j
    · subst hij
      rw [List.getElem?_set_self hLt, Option.some.injEq] at hj
      exact .inl hj.symm
    · rw [List.getElem?_set_ne hij] at hj
      refine .inr ⟨List.mem_of_getElem? hj, fun hId => hij ?_⟩
      refine (List.getElem?_inj (by simpa using hLt) hUnique).mp ?_
      rw [List.getElem?_map, List.getElem?_map, hAt, hj, Option.map_some, Option.map_some, hId]
  · rintro (rfl | ⟨hMem, hId⟩)
    · exact List.mem_iff_getElem?.mpr ⟨i, List.getElem?_set_self hLt⟩
    · obtain ⟨j, hj⟩ := List.mem_iff_getElem?.mp hMem
      have hij : i ≠ j := by
        rintro rfl
        rw [hAt, Option.some.injEq] at hj
        exact hId (congrArg HypothesisRow.id hj.symm)
      exact List.mem_iff_getElem?.mpr ⟨j, by rw [List.getElem?_set_ne hij, hj]⟩

/-- The event that backs a row is the new one, since no other has its id. -/
theorem backed_by_new {events : List Event} {kinds : List String} {id : Value}
    {row : HypothesisRow} (h : (events ++ [e]).any (backsHypothesis engine kinds id row) = true)
    (hRow : row.lastEventId = .int e.id) (hNew : e.id = nextEventId events) :
    matchesSnapshot engine e row.snapshotColumns = true := by
  obtain ⟨found, hMem, hBacks⟩ := List.any_eq_true.mp h
  simp only [backsHypothesis, Bool.and_eq_true, decide_eq_true_eq] at hBacks
  obtain ⟨⟨⟨-, hLast⟩, -⟩, hSnapshot⟩ := hBacks
  rw [hRow, Value.int.injEq] at hLast
  rcases List.mem_append.mp hMem with hMem | hMem
  · have hLt := lt_nextEventId hMem
    omega
  · rw [List.mem_singleton.mp hMem] at hSnapshot
    exact hSnapshot

/-- An update of the stored row of an id. -/
theorem Rewrites.rows {assign : HypothesisRow → HypothesisRow}
    (h : Rewrites engine db hid e assign after)
    (hUnique : (db.hypotheses.map HypothesisRow.id).Nodup)
    (hText : ∀ row ∈ db.hypotheses, row.id ≠ .null)
    (hPresent : ∃ row ∈ db.hypotheses, row.id = .text hid)
    (hAssignId : ∀ row, (assign row).id = row.id)
    (hAssignEvent : ∀ row, (assign row).lastEventId = .int e.id)
    (hNew : e.id = nextEventId db.events) :
    after.events = db.events ++ [e] ∧ ∃ old ∈ db.hypotheses, old.id = .text hid ∧
      matchesSnapshot engine e (assign old).snapshotColumns = true ∧
      (∀ row, row ∈ after.hypotheses ↔
        row = assign old ∨ row ∈ db.hypotheses ∧ row.id ≠ .text hid) ∧
      (after.hypotheses.map HypothesisRow.id).Nodup := by
  cases h with
  | absent hNone =>
      obtain ⟨row, hMem, hId⟩ := hPresent
      exact absurd hId (hNone row hMem)
  | row i old hFind hAt hId hGuard hAllows =>
      simp only [hypothesisGuards, Bool.and_eq_true] at hGuard
      have hMem := List.mem_of_getElem? hAt
      refine ⟨rfl, old, hMem, hId, backed_by_new hGuard.1.2 (hAssignEvent old) hNew,
        fun row => ?_, allows_nodup hAllows fun row hRow => ?_⟩
      · rw [← hId]
        exact mem_set_iff hUnique hAt
      · rcases List.mem_or_eq_of_mem_set hRow with hRow | rfl
        · exact hText row hRow
        · rw [hAssignId, hId]
          simp

end Rows

section Plans

variable {p : Platform} {db : Database} {hid : String} {payload : NormalFields}

theorem normal_updateFields {fields updates : Fields} (hFields : (Json.obj fields).Normal)
    (hUpdates : ∀ q ∈ updates, q.2.Normal) : (Json.obj (updateFields fields updates)).Normal := by
  unfold updateFields
  induction updates generalizing fields with
  | nil => exact hFields
  | cons q rest ih =>
      rw [List.forall_mem_cons] at hUpdates
      rw [List.foldl_cons]
      exact ih (hFields.setField hUpdates.1) hUpdates.2

theorem mem_eraseField {key : String} {fields : Fields} {q : String × Json}
    (h : q ∈ eraseField key fields) : q ∈ fields := (List.mem_filter.mp h).1

theorem mergedFields_normal {fields : Fields} {s : HState} (hFields : (Json.obj fields).Normal) :
    (Json.obj (mergedFields p fields payload.val hid s)).Normal := by
  have hUpdates : ∀ q ∈ eraseField "evidence" (eraseField "cause" payload.val), q.2.Normal :=
    fun q hq => Json.normalFields_iff.mp payload.property.2 q (mem_eraseField (mem_eraseField hq))
  have hId : (Json.str hid).Normal := trivial
  have hState : (Json.str s.text).Normal := trivial
  exact redactFields_normal
    (((normal_updateFields hFields hUpdates).setField hId).setField hState)

theorem redact_state (alnum : Char → Bool) (s : HState) : redact alnum s.text = s.text :=
  redact_plain (by cases s <;> simp [HState.text, plainNames])

/-- The body that a save plans names the state that it was read in. -/
theorem mergedFields_state {fields : Fields} {s : HState} :
    getField? "state" (mergedFields p fields payload.val hid s) = some (.str s.text) := by
  rw [mergedFields, getField?_redactFields, getField?_setField_self, Option.map_some,
    redactPayload, redact_state]

theorem iter_normal {j : Json} {items : List Json} (hNormal : j.Normal)
    (h : j.iter = .ok items) : ∀ item ∈ items, item.Normal := by
  cases j with
  | arr items' =>
      rw [Json.iter, pure_eq_ok] at h
      exact h ▸ Json.normalItems_iff.mp hNormal
  | obj fields =>
      rw [Json.iter, pure_eq_ok] at h
      intro item hItem
      rw [← h] at hItem
      obtain ⟨q, -, rfl⟩ := List.mem_map.mp hItem
      trivial
  | str s =>
      rw [Json.iter, pure_eq_ok] at h
      intro item hItem
      rw [← h] at hItem
      obtain ⟨c, -, rfl⟩ := List.mem_map.mp hItem
      trivial
  | _ => simp [Json.iter] at h

/-- A save plans to create the hypothesis, or to write the merge of the stored
body and the payload. -/
theorem planUpdate_eq_ok {row : HypothesisRow} {st : HState} {data : Fields} {plan : SavePlan}
    (hRow : RowOf row hid st data) (h : planUpdate p row hid payload = .ok plan) :
    Planned p hid payload plan := by
  have hLoads : Json.loads row.body.toJson.text = .ok (.obj data) := by
    rw [hRow.body]
    exact Json.loads_dumps hRow.normal
  rw [planUpdate, bind_eq_ok] at h
  obtain ⟨_, -, h⟩ := h
  split at h
  · rw [hLoads, map_eq_ok] at h
    obtain ⟨value, -, rfl⟩ := h
    exact .unchanged value
  · unfold planMerge at h
    split at h
    · rename_i cause evidence hCause hEvidence
      rw [bind_eq_ok] at h
      obtain ⟨items, hItems, h⟩ := h
      rw [bind_eq_ok] at h
      obtain ⟨body, hBody, h⟩ := h
      rw [hLoads, Except.ok.injEq] at hBody
      subst hBody
      rw [bind_eq_ok] at h
      obtain ⟨merged, hMerged, h⟩ := h
      rw [pure_eq_ok] at h
      rw [mergedData, pure_eq_ok, hRow.state] at hMerged
      rw [← h, ← hMerged]
      have hNormal := Json.normalFields_iff.mp payload.property.2 _ (mem_of_getField? hEvidence)
      exact .update cause items data st (iter_normal hNormal hItems) hRow.normal
    · simp at h

/-- A save that is planned as an update has found the row of its hypothesis. -/
theorem savePlan_eq_ok {plan : SavePlan}
    (hStored : ∀ row ∈ db.hypotheses, ∃ hid st data, RowOf row hid st data)
    (h : savePlan p db hid payload = .ok plan) : Planned p hid payload plan ∧
      (plan.isUpdate = true → ∃ row ∈ db.hypotheses, row.id = .text hid) := by
  unfold savePlan at h
  cases hFind : findHypothesis db hid with
  | none =>
      rw [hFind, Option.bind_none, pure_eq_ok] at h
      subst h
      exact ⟨.create, fun hUpdate => by cases hUpdate⟩
  | some i =>
      obtain ⟨row, hAt, hId⟩ := findHypothesis_eq_some hFind
      have hMem := List.mem_of_getElem? hAt
      rw [hFind, Option.bind_some, hAt] at h
      obtain ⟨hid', st, data, hRow⟩ := hStored row hMem
      obtain rfl : hid' = hid := Value.text.inj (hRow.id.symm.trans hId)
      exact ⟨planUpdate_eq_ok hRow h, fun _ => ⟨row, hMem, hId⟩⟩

end Plans
section Steps

variable {p : Platform} {now : String} {s : System}

/-- Choosing an id writes neither an event nor a hypothesis. -/
theorem chooseId_tables (db : Database) (data : Fields) (entityId : Option String) :
    (chooseId db data entityId).2.events = db.events ∧
      (chooseId db data entityId).2.hypotheses = db.hypotheses := by
  unfold chooseId nextId
  split
  · exact ⟨rfl, rfl⟩
  · split <;> exact ⟨rfl, rfl⟩

theorem Filed.text (h : Filed p s) : ∀ row ∈ s.db.hypotheses, row.id ≠ .null := by
  intro row hMem hNull
  obtain ⟨hid, st, data, hRow⟩ := h.stored row hMem
  rw [hRow.id] at hNull
  cases hNull

theorem Quiet.refl (db : Database) : Quiet db db := ⟨rfl, .inl rfl⟩

/-- A creation that raises leaves the rows and the events. -/
theorem createHypothesis_error {db after : Database} {payload : NormalFields}
    {entityId : Option String} {e : PyError}
    (h : createHypothesis p now db payload entityId = (.error e, after)) : Quiet db after := by
  obtain ⟨hEvents, hRows⟩ := chooseId_tables db (redactFields p.alnum payload) entityId
  rw [createHypothesis] at h
  generalize chooseId db (redactFields p.alnum payload) entityId = chosen at h hEvents hRows
  obtain ⟨hid, chosen⟩ := chosen
  simp only at h hEvents hRows
  split at h
  · rw [Prod.mk.injEq] at h
    exact h.2 ▸ ⟨hRows, .inl hEvents⟩
  · rw [submit_error h]
    exact ⟨hRows, .inl hEvents⟩

/-- A creation that returns commits its event and its row. -/
theorem createHypothesis_committed (hFiled : Filed p s) {after : Database}
    {payload : NormalFields} {entityId : Option String} {data : Fields}
    (h : createHypothesis p now s.db payload entityId = (.ok data, after)) :
    Committed p now s.db
      (.created (chooseId s.db (redactFields p.alnum payload) entityId).1 data) after := by
  obtain ⟨hEvents, hRows⟩ := chooseId_tables s.db (redactFields p.alnum payload) entityId
  rw [createHypothesis] at h
  generalize chooseId s.db (redactFields p.alnum payload) entityId = chosen at h hEvents hRows ⊢
  obtain ⟨hid, db⟩ := chosen
  simp only at h hEvents hRows
  split at h
  · simp [raise] at h
  · rename_i hOpen
    rw [not_not] at hOpen
    obtain ⟨rfl, bound, hBound, hGuard, hAllows, rfl⟩ := insertHypothesis_eq_ok (submit_eq_ok h)
    have hText : ∀ row ∈ db.hypotheses ++
        [createdRow hid bound (newData p payload hid) (nextEventId db.events)],
        row.id ≠ .null := by
      intro row hRow
      rcases List.mem_append.mp hRow with hRow | hRow
      · exact hFiled.text row (hRows ▸ hRow)
      · rw [List.mem_singleton.mp hRow]
        simp [createdRow]
    have hUnique := allows_nodup hAllows hText
    have hNew : ∀ row ∈ db.hypotheses, row.id ≠ .text hid := by
      intro row hRow hId
      rw [List.map_append, List.nodup_append] at hUnique
      exact hUnique.2.2 row.id (List.mem_map_of_mem hRow) (.text hid) (by simp [createdRow]) hId
    rw [hypothesisGuards, Bool.and_eq_true] at hGuard
    have hEvent : newEvent p now db hid "hyp_created" (createdPayload (newData p payload hid)) =
        Commit.event p now s.db (.created hid (newData p payload hid)) := by
      rw [Commit.event, newEvent, newEvent, hEvents]
      rfl
    refine ⟨?_, ⟨createdRow hid bound (newData p payload hid) (nextEventId s.db.events),
      .created payload rfl hOpen (hRows ▸ hNew) hBound, ?_, fun row => ?_⟩, hUnique⟩
    · rw [← hEvent, ← hEvents]
      rfl
    · rw [← hEvent, ← hEvents]
      exact backed_by_new hGuard.2 rfl rfl
    · rw [← hRows, ← hEvents]
      change row ∈ db.hypotheses ++ [_] ↔ _
      rw [List.mem_append, List.mem_singleton, or_comm]
      exact or_congr_right ⟨fun hRow => ⟨hRow, hNew row hRow⟩, And.left⟩

/-- A planned save that returns commits its event and the row that it has merged. -/
theorem commitSave_committed (hFiled : Filed p s) {after : Database} {save : PendingSave}
    {cause : String} {evidence : List Json} {data : Fields} {result : Json}
    (hMem : save ∈ s.pending) (hPlan : save.plan = .update cause evidence data)
    (h : commitSave p now s.db save.hid cause evidence data = .ok (result, after)) :
    Committed p now s.db (.saved save cause evidence data) after := by
  obtain ⟨rfl, bound, hBound, hRewrites⟩ := commitSave_eq_ok h
  obtain ⟨hEvents, old, hOld, hId, hSnapshot, hRows, hUnique⟩ := hRewrites.rows hFiled.unique
    hFiled.text (hFiled.present save hMem (by rw [hPlan]; rfl)) (fun _ => rfl) (fun _ => rfl) rfl
  exact ⟨hEvents, ⟨_, .saved hOld hId hPlan (hFiled.planned save hMem) hBound, hSnapshot, hRows⟩,
    hUnique⟩

/-- A transition that is valid and returns commits its event and the row of the new state. -/
theorem commitTransition_committed (hFiled : Filed p s) {after : Database}
    {token : Option DriverToken} {h : HypothesisRecord} {newState : HState} {cause : String}
    {evidence : List String} {result : HypothesisRecord}
    (hValid : Lifecycle.validateTransition p.host p.secret token h newState cause evidence =
      .ok ())
    (hCommit : commitTransition p now s.db h newState cause evidence = .ok (result, after)) :
    Committed p now s.db (.moved token h newState cause evidence) after := by
  obtain ⟨rfl, i, row, bound, mid, hFind, hAt, hState, hBound, hRewrites, rfl⟩ :=
    commitTransition_eq_ok hCommit
  obtain ⟨found, hFound, hId⟩ := findHypothesis_eq_some hFind
  rw [hAt, Option.some.injEq] at hFound
  subst hFound
  have hRow := List.mem_of_getElem? hAt
  obtain ⟨hEvents, old, hOld, hOldId, hSnapshot, hRows, hUnique⟩ := hRewrites.rows
    hFiled.unique hFiled.text ⟨row, hRow, hId⟩ (fun _ => rfl) (fun _ => rfl) rfl
  obtain rfl := row_eq_of_id hFiled.unique hOld hRow (hOldId.trans hId.symm)
  refine ⟨?_, ⟨_, .moved hOld hId hState hValid hBound, hSnapshot, hRows⟩, hUnique⟩
  have hAlarm : thresholdEvents p now mid h newState =
      Commit.alarm p now s.db (.moved token h newState cause evidence) := by
    simp only [Commit.alarm, thresholdEvents, newEvent, hEvents]
    rfl
  change mid.events ++ _ = _
  rw [hAlarm, hEvents, List.append_assoc]
  rfl

/-- An award that is granted and returns commits its event and the row with the new level. -/
theorem commitAward_committed (hFiled : Filed p s) {after : Database}
    {token : Option DriverToken} {h candidate result : HypothesisRecord} {proof : LadderProof}
    (hAward : Ladder.award p.host p.secret token (some h) proof.axis proof.level (some proof) =
      .ok (true, some candidate))
    (hCommit : commitAward p now s.db candidate proof = .ok (result, after)) :
    result = candidate ∧ Committed p now s.db (.awarded token h candidate proof) after := by
  obtain ⟨rfl, i, row, fields, hFind, hAt, hLoads, hState, hRewrites⟩ := commitAward_eq_ok hCommit
  obtain ⟨found, hFound, hId⟩ := findHypothesis_eq_some hFind
  rw [hAt, Option.some.injEq] at hFound
  subst hFound
  have hRow := List.mem_of_getElem? hAt
  obtain ⟨hEvents, old, hOld, hOldId, hSnapshot, hRows, hUnique⟩ := hRewrites.rows
    hFiled.unique hFiled.text ⟨row, hRow, hId⟩ (fun _ => rfl) (fun _ => rfl) rfl
  obtain rfl := row_eq_of_id hFiled.unique hOld hRow (hOldId.trans hId.symm)
  exact ⟨rfl, hEvents, ⟨_, .awarded hOld hId hLoads hState hAward, hSnapshot, hRows⟩, hUnique⟩

end Steps
section Kept

variable {p : Platform} {now : String} {s : System} {c : Commit}

/-- The state that a commit leaves its hypothesis in. -/
def Commit.Leaves (db : Database) (st : HState) : Commit → Prop
  | .created hid _ => st = .open ∧ ∀ row ∈ db.hypotheses, row.id ≠ .text hid
  | .moved _ h newState _ _ =>
      st = newState ∧ ∃ old ∈ db.hypotheses, ∃ data, RowOf old h.id h.state data
  | .saved save _ _ _ => ∃ old ∈ db.hypotheses, ∃ data, RowOf old save.hid st data
  | .awarded _ _ candidate _ => ∃ old ∈ db.hypotheses, ∃ data, RowOf old candidate.id st data

theorem newData_normal (p : Platform) (payload : NormalFields) (hid : String) :
    (Json.obj (newData p payload hid)).Normal := by
  have hId : (Json.str hid).Normal := trivial
  have hOpen : (Json.str HState.open.text).Normal := trivial
  have hData : (Json.obj (setField "id" (.str hid) (redactFields p.alnum payload))).Normal :=
    (redactFields_normal payload.property).setField hId
  unfold newData
  simp only
  split
  · exact hData
  · exact hData.setField hOpen

/-- What a commit writes is sound: its state is among the states, its body normal. -/
theorem Wrote.sound {db : Database} {new : HypothesisRow} (h : Wrote p now db c new) :
    c.Sound := by
  cases h with
  | created payload hData => exact hData ▸ newData_normal p payload _
  | saved _ _ hPlan hPlanned =>
      rw [hPlan] at hPlanned
      cases hPlanned with
      | update cause evidence fields st hEvidence hFields =>
          exact ⟨mergedFields_normal hFields, hEvidence⟩
  | moved => trivial
  | awarded => trivial

/-- What `json_extract` reads of a column in the snapshot of a commit. -/
theorem snapshot_column {db : Database} {new : HypothesisRow} (hSound : c.Sound)
    (hSnapshot : matchesSnapshot p.engine (c.event p now db) new.snapshotColumns = true)
    {key : String} {value : Value} (hColumn : (key, value) ∈ new.snapshotColumns) :
    ∃ v, value.is v = true ∧ Extracted (some (redactPayload p.alnum
      (snapshotField (c.source now) (Json.obj (c.body p now)).dumps key))) v := by
  obtain ⟨v, hExtract, hIs⟩ := matchesSnapshot_iff.mp hSnapshot _ hColumn
  have hKey : key ∈ ["id", "state", "lens", "protocol_type", "prior_p", "body"] :=
    List.mem_map_of_mem (f := Prod.fst) hColumn
  have hPayload : (Json.obj (c.payload p now)).Normal := Commit.payload_normal hSound
  have hExtracted := p.engine.extracted _ _ v (redactFields_normal hPayload) hExtract
  rw [walk_rowSnapshot hKey] at hExtracted
  exact ⟨v, hIs, hExtracted⟩

theorem beforeNul_state (st : HState) : beforeNul st.text = st.text := by
  cases st <;> decide

/-- The state column that goes with a snapshot in a state. -/
theorem state_of_snapshot {db : Database} {new : HypothesisRow} {st : HState}
    (hSound : c.Sound)
    (hSnapshot : matchesSnapshot p.engine (c.event p now db) new.snapshotColumns = true)
    (hState : getField? "state" (c.source now) = some (.str st.text)) :
    new.state = .text st.text := by
  have hColumn : ("state", new.state) ∈ new.snapshotColumns := by
    simp [HypothesisRow.snapshotColumns]
  obtain ⟨v, hIs, hExtracted⟩ := snapshot_column hSound hSnapshot hColumn
  rw [snapshotField, if_neg (by decide), fieldOf, hState, Option.getD_some, redactPayload,
    redact_state, Extracted, beforeNul_state, or_self] at hExtracted
  rw [hExtracted] at hIs
  exact Value.is_text.mp hIs

/-- The body of a caller's copy names its state. -/
theorem Commit.source_state {h : HypothesisRecord} :
    getField? "state" h.dump = some (.str h.state.text) := by
  rw [h.getField?_dump]
  rfl

/-- Redaction of a body leaves the state that it names. -/
theorem Commit.body_state {h : HypothesisRecord} :
    getField? "state" (redactFields p.alnum h.dump) = some (.str h.state.text) := by
  rw [getField?_redactFields, Commit.source_state, Option.map_some, redactPayload, redact_state]

/-- The row that a commit leaves is well formed. -/
theorem Wrote.rowOf {new : HypothesisRow}
    (hStored : ∀ row ∈ s.db.hypotheses, ∃ hid st data, RowOf row hid st data)
    (h : Wrote p now s.db c new)
    (hSnapshot : matchesSnapshot p.engine (c.event p now s.db) new.snapshotColumns = true) :
    ∃ st, RowOf new c.hid st (c.body p now) ∧ c.Leaves s.db st := by
  have hSound := h.sound
  have hNormal : (Json.obj (c.body p now)).Normal := Commit.body_normal hSound
  cases h with
  | @created hid data bound payload hData hOpen hNew hBound =>
      refine ⟨.open, ⟨rfl, rfl, rfl, hNormal, ?_⟩, rfl, hNew⟩
      rw [Commit.body]
      cases hState : getField? "state" data with
      | none => simp [fieldOf, hState] at hOpen
      | some v =>
          rw [fieldOf, hState, Option.getD_some] at hOpen
          rw [hOpen]
          rfl
  | @saved save cause evidence data bound old hOld hId hPlan hPlanned hBound =>
      obtain ⟨hid, st, oldData, hRow⟩ := hStored old hOld
      obtain rfl : hid = save.hid := Value.text.inj (hRow.id.symm.trans hId)
      have hData : ∃ st' : HState, getField? "state" data = some (.str st'.text) := by
        rw [hPlan] at hPlanned
        cases hPlanned with
        | update cause evidence fields st' => exact ⟨st', mergedFields_state⟩
      obtain ⟨st', hState⟩ := hData
      have hSame : (savedRow bound data (nextEventId s.db.events) old).state = .text st'.text :=
        state_of_snapshot hSound hSnapshot hState
      obtain rfl : st = st' :=
        HState.text_injective (Value.text.inj (hRow.state.symm.trans hSame))
      exact ⟨st, ⟨hId, hRow.state, rfl, hNormal, hState⟩, old, hOld, oldData, hRow⟩
  | @moved token h newState cause evidence bound old hOld hId hState hValid hBound =>
      obtain ⟨hid, st, oldData, hRow⟩ := hStored old hOld
      obtain rfl : hid = h.id := Value.text.inj (hRow.id.symm.trans hId)
      obtain rfl : st = h.state :=
        HState.text_injective (Value.text.inj (hRow.state.symm.trans hState))
      have hInner : getField? "state" (redactFields p.alnum (Store.moved h newState now).dump) =
          some (.str newState.text) :=
            Commit.body_state (h := Store.moved h newState now)
      exact ⟨newState, ⟨hId, rfl, rfl, hNormal, hInner⟩, rfl, old, hOld, oldData, hRow⟩
  | @awarded token h candidate proof old fields hOld hId hLoads hState hAward =>
      obtain ⟨hid, st, oldData, hRow⟩ := hStored old hOld
      obtain rfl : hid = candidate.id := Value.text.inj (hRow.id.symm.trans hId)
      rw [hRow.body, Value.toJson, Json.text_str, Json.loads_dumps hRow.normal, Except.ok.injEq,
        Json.obj.injEq] at hLoads
      rw [← hLoads, hRow.inner, Option.getD_some, Json.pyEq, decide_eq_true_eq] at hState
      obtain rfl : st = candidate.state := HState.text_injective hState
      have hInner : getField? "state" (redactFields p.alnum candidate.dump) =
          some (.str candidate.state.text) := Commit.body_state
      exact ⟨candidate.state, ⟨hId, hRow.state, rfl, hNormal, hInner⟩, old, hOld, oldData, hRow⟩

end Kept
section Run

variable {p : Platform} {now : String} {s : System} {c : Commit} {call : Call}

/-- Where `commit?` speaks of a creation, the store has committed it. -/
theorem createdBy_committed (hFiled : Filed p s) {payload : NormalFields}
    {entityId : Option String} (h : createdBy p now s.db payload entityId = some c) :
    Committed p now s.db c (createHypothesis p now s.db payload entityId).2 := by
  unfold createdBy at h
  split at h
  · rename_i data after hCreate
    rw [Option.some.injEq] at h
    rw [← h, hCreate]
    exact createHypothesis_committed hFiled hCreate
  · cases h

/-- Where `commit?` speaks of no creation, nothing was committed. -/
theorem createdBy_quiet {db : Database} {payload : NormalFields} {entityId : Option String}
    (h : createdBy p now db payload entityId = none) :
    Quiet db (createHypothesis p now db payload entityId).2 := by
  unfold createdBy at h
  split at h
  · cases h
  · rename_i e after hCreate
    rw [hCreate]
    exact createHypothesis_error hCreate

/-- A call that commits does what its commit says. -/
theorem step_some (hFiled : Filed p s) (h : commit? p now s call = some c) :
    Committed p now s.db c (step p now s call).db := by
  cases call with
  | create payload entityId => exact createdBy_committed hFiled h
  | saveRead hid payload => cases h
  | saveCommit i =>
      rw [commit?, Option.bind_eq_some_iff] at h
      obtain ⟨save, hAt, h⟩ := h
      have hMem := List.mem_of_getElem? hAt
      simp only [step, hAt]
      unfold savedBy at h
      cases hPlan : save.plan with
      | create payload =>
          simp only [hPlan] at h
          exact createdBy_committed hFiled h
      | unchanged value => simp [hPlan] at h
      | update cause evidence data =>
          simp only [hPlan] at h
          split at h
          · rename_i result after hSubmit
            rw [Option.some.injEq] at h
            rw [← h, runPlan, hSubmit]
            exact commitSave_committed hFiled hMem hPlan (submit_eq_ok hSubmit)
          · cases h
  | transition token h' newState cause evidence =>
      rw [commit?] at h
      rw [step]
      split at h
      · rename_i result after hTransition
        rw [Option.some.injEq] at h
        rw [← h, hTransition]
        unfold transitionHypothesis at hTransition
        split at hTransition
        · simp at hTransition
        · rename_i hValid
          exact commitTransition_committed hFiled hValid (submit_eq_ok hTransition)
      · cases h
  | award token h' proof =>
      rw [commit?] at h
      rw [step]
      split at h
      · rename_i result after hAwarded
        rw [Option.some.injEq] at h
        rw [← h, hAwarded]
        unfold awardLadder at hAwarded
        split at hAwarded
        · simp at hAwarded
        · rename_i candidate hAward
          obtain ⟨rfl, hCommitted⟩ :=
            commitAward_committed hFiled hAward (submit_eq_ok hAwarded)
          exact hCommitted
        · simp [raise] at hAwarded
      · cases h
  | record entity entityId payload => cases h

/-- A call that commits nothing leaves every hypothesis. -/
theorem step_none (h : commit? p now s call = none) : Quiet s.db (step p now s call).db := by
  cases call with
  | create payload entityId => exact createdBy_quiet h
  | saveRead hid payload =>
      rw [step]
      split <;> exact Quiet.refl _
  | saveCommit i =>
      cases hAt : s.pending[i]? with
      | none =>
          simp only [step, hAt]
          exact Quiet.refl _
      | some save =>
          simp only [step, hAt]
          rw [commit?, hAt, Option.bind_some] at h
          unfold savedBy at h
          cases hPlan : save.plan with
          | create payload =>
              simp only [hPlan] at h
              exact createdBy_quiet h
          | unchanged value => exact Quiet.refl _
          | update cause evidence data =>
              simp only [hPlan] at h
              split at h
              · cases h
              · rename_i e after hSubmit
                rw [runPlan, hSubmit, submit_error hSubmit]
                exact Quiet.refl _
  | transition token h' newState cause evidence =>
      rw [commit?] at h
      rw [step]
      split at h
      · cases h
      · rename_i e after hTransition
        rw [hTransition]
        unfold transitionHypothesis at hTransition
        split at hTransition
        · rw [Prod.mk.injEq] at hTransition
          exact hTransition.2 ▸ Quiet.refl _
        · rw [submit_error hTransition]
          exact Quiet.refl _
  | award token h' proof =>
      rw [commit?] at h
      rw [step]
      split at h
      · cases h
      · rename_i e after hAwarded
        rw [hAwarded]
        unfold awardLadder at hAwarded
        split at hAwarded
        · rw [Prod.mk.injEq] at hAwarded
          exact hAwarded.2 ▸ Quiet.refl _
        · rw [submit_error hAwarded]
          exact Quiet.refl _
        · rw [Prod.mk.injEq] at hAwarded
          exact hAwarded.2 ▸ Quiet.refl _
  | record entity entityId payload =>
      rw [step]
      split
      · rename_i id after hRecord
        obtain ⟨e, hEntity, hId, -, -, hAfter⟩ := recordEvent_appends hRecord
        rw [hAfter]
        refine ⟨rfl, .inr ⟨e, ?_, hId, rfl⟩⟩
        rw [hEntity]
        exact fun hSame => entity.property (Value.text.inj hSame)
      · exact Quiet.refl _

/-- The saves under way after a call: those before it, and what it has read. -/
theorem step_pending {save : PendingSave} (h : save ∈ (step p now s call).pending) :
    save ∈ s.pending ∨ savePlan p s.db save.hid save.payload = .ok save.plan := by
  cases call with
  | saveRead hid payload =>
      rw [step] at h
      split at h
      · rename_i plan hPlan
        rcases List.mem_append.mp h with h | h
        · exact .inl h
        · rw [List.mem_singleton.mp h]
          exact .inr hPlan
      · exact .inl h
  | saveCommit i =>
      rw [step] at h
      split at h
      · exact .inl (List.mem_of_mem_eraseIdx h)
      · exact .inl h
  | record entity entityId payload =>
      rw [step] at h
      split at h <;> exact .inl h
  | create payload entityId => exact .inl h
  | transition token h' newState cause evidence => exact .inl h
  | award token h' proof => exact .inl h

/-- The row of the hypothesis of a commit, and the rows of the others. -/
theorem Committed.rowOf {after : Database}
    (hStored : ∀ row ∈ s.db.hypotheses, ∃ hid st data, RowOf row hid st data)
    (h : Committed p now s.db c after) :
    ∃ new st, RowOf new c.hid st (c.body p now) ∧ c.Leaves s.db st ∧
      ∀ row, row ∈ after.hypotheses ↔ row = new ∨ row ∈ s.db.hypotheses ∧ row.id ≠ .text c.hid := by
  obtain ⟨new, hWrote, hSnapshot, hRows⟩ := h.row
  obtain ⟨st, hRow, hLeaves⟩ := hWrote.rowOf hStored hSnapshot
  exact ⟨new, st, hRow, hLeaves, hRows⟩

theorem increasing_append {events : List Event} {e : Event}
    (h : (events.map Event.id).Pairwise (· < ·)) (hNew : e.id = nextEventId events) :
    ((events ++ [e]).map Event.id).Pairwise (· < ·) := by
  rw [List.map_append, List.pairwise_append]
  refine ⟨h, List.pairwise_singleton _ _, fun id hId other hOther => ?_⟩
  obtain ⟨old, hOld, rfl⟩ := List.mem_map.mp hId
  rw [List.map_singleton, List.mem_singleton] at hOther
  rw [hOther, hNew]
  exact lt_nextEventId hOld

/-- The event after a third reopening, where there is one. -/
theorem alarm_cases (p : Platform) (now : String) (db : Database) (c : Commit) :
    c.alarm p now db = [] ∨ c.alarm p now db = [newEvent p now (db.logged (c.event p now db)) c.hid
      "reopen_threshold_exceeded" thresholdPayload] := by
  cases c with
  | moved token h newState cause evidence =>
      rw [Commit.alarm, thresholdEvents]
      split
      · exact .inr rfl
      · exact .inl rfl
  | _ => exact .inl rfl

/-- A commit keeps the ids of the events increasing. -/
theorem Committed.increasing {db after : Database} (h : Committed p now db c after)
    (hBefore : (db.events.map Event.id).Pairwise (· < ·)) :
    (after.events.map Event.id).Pairwise (· < ·) := by
  have hOne : ((db.events ++ [c.event p now db]).map Event.id).Pairwise (· < ·) :=
    increasing_append hBefore rfl
  rw [h.events, List.append_cons]
  rcases alarm_cases p now db c with hNone | hAlarm
  · rwa [hNone, List.append_nil]
  · rw [hAlarm]
    exact increasing_append hOne rfl

/-- A quiet call keeps the ids of the events increasing. -/
theorem Quiet.increasing {db after : Database} (h : Quiet db after)
    (hBefore : (db.events.map Event.id).Pairwise (· < ·)) :
    (after.events.map Event.id).Pairwise (· < ·) := by
  rcases h.events with hSame | ⟨e, -, hNew, hEvents⟩
  · rwa [hSame]
  · rw [hEvents]
    exact increasing_append hBefore hNew

theorem filed_empty (p : Platform) : Filed p System.empty := by
  constructor <;> simp [System.empty, Database.empty]

/-- A stored id stays stored. -/
theorem step_keeps_id (hFiled : Filed p s) {hid : String}
    (h : ∃ row ∈ s.db.hypotheses, row.id = .text hid) :
    ∃ row ∈ (step p now s call).db.hypotheses, row.id = .text hid := by
  obtain ⟨row, hMem, hId⟩ := h
  cases hCommit : commit? p now s call with
  | none =>
      rw [(step_none hCommit).rows]
      exact ⟨row, hMem, hId⟩
  | some c =>
      obtain ⟨new, st, hNew, -, hRows⟩ := (step_some hFiled hCommit).rowOf hFiled.stored
      by_cases hSame : hid = c.hid
      · exact ⟨new, (hRows new).mpr (.inl rfl), hSame ▸ hNew.id⟩
      · refine ⟨row, (hRows row).mpr (.inr ⟨hMem, ?_⟩), hId⟩
        rw [hId]
        exact fun hText => hSame (Value.text.inj hText)

theorem Filed.step (hFiled : Filed p s) (now : String) (call : Call) :
    Filed p (step p now s call) := by
  have hPlanned : ∀ save ∈ (Store.step p now s call).pending,
      Planned p save.hid save.payload save.plan ∧ (save.plan.isUpdate = true →
        ∃ row ∈ s.db.hypotheses, row.id = .text save.hid) := by
    intro save hMem
    rcases step_pending hMem with hMem | hPlan
    · exact ⟨hFiled.planned save hMem, hFiled.present save hMem⟩
    · exact savePlan_eq_ok hFiled.stored hPlan
  have hPresent : ∀ save ∈ (Store.step p now s call).pending, save.plan.isUpdate = true →
      ∃ row ∈ (Store.step p now s call).db.hypotheses, row.id = .text save.hid :=
    fun save hMem hUpdate => step_keeps_id hFiled ((hPlanned save hMem).2 hUpdate)
  cases hCommit : commit? p now s call with
  | none =>
      have hQuiet := step_none hCommit
      exact ⟨hQuiet.increasing hFiled.increasing, hQuiet.rows ▸ hFiled.unique,
        hQuiet.rows ▸ hFiled.stored, fun save hMem => (hPlanned save hMem).1, hPresent⟩
  | some c =>
      have hCommitted := step_some hFiled hCommit
      obtain ⟨new, st, hNew, -, hRows⟩ := hCommitted.rowOf hFiled.stored
      refine ⟨hCommitted.increasing hFiled.increasing, hCommitted.unique, fun row hRow => ?_,
        fun save hMem => (hPlanned save hMem).1, hPresent⟩
      rcases (hRows row).mp hRow with rfl | ⟨hMem, -⟩
      · exact ⟨c.hid, st, c.body p now, hNew⟩
      · exact hFiled.stored row hMem

/-- An invariant of filed stores that every call keeps holds after every run. -/
theorem run_induction {motive : System → Prop} (hFiled : Filed p s) (hInit : motive s)
    (hStep : ∀ now s call, Filed p s → motive s → motive (step p now s call))
    (calls : List (String × Call)) : Filed p (run p s calls) ∧ motive (run p s calls) := by
  induction calls generalizing s with
  | nil => exact ⟨hFiled, hInit⟩
  | cons call rest ih =>
      exact ih (hFiled.step call.1 call.2) (hStep call.1 s call.2 hFiled hInit)

end Run

section Bodies

variable {p : Platform} {now : String} {s : System} {c : Commit} {call : Call} {hid : String}
  {data : Fields}

def Body (db : Database) (hid : String) (data : Fields) : Prop :=
  ∃ row ∈ db.hypotheses, ∃ st, RowOf row hid st data

theorem Filed.body_unique (hFiled : Filed p s) {other : Fields} (h : Body s.db hid data)
    (hOther : Body s.db hid other) : data = other := by
  obtain ⟨row, hMem, st, hRow⟩ := h
  obtain ⟨row', hMem', st', hRow'⟩ := hOther
  obtain rfl := row_eq_of_id hFiled.unique hMem hMem' (hRow.id.trans hRow'.id.symm)
  exact (hRow.agree hRow').2.2

/-- A commit stores its body. -/
theorem body_written (hFiled : Filed p s) (h : commit? p now s call = some c) :
    Body (step p now s call).db c.hid (c.body p now) := by
  obtain ⟨new, st, hRow, -, hRows⟩ := (step_some hFiled h).rowOf hFiled.stored
  exact ⟨new, (hRows new).mpr (.inl rfl), st, hRow⟩

/-- The bodies of the other hypotheses stay. -/
theorem body_kept (hFiled : Filed p s)
    (h : ∀ c, commit? p now s call = some c → c.hid ≠ hid) (hBody : Body s.db hid data) :
    Body (step p now s call).db hid data := by
  obtain ⟨row, hMem, st, hRow⟩ := hBody
  refine ⟨row, ?_, st, hRow⟩
  cases hCommit : commit? p now s call with
  | none =>
      rw [(step_none hCommit).rows]
      exact hMem
  | some c =>
      obtain ⟨new, -, -, -, hRows⟩ := (step_some hFiled hCommit).rowOf hFiled.stored
      refine (hRows row).mpr (.inr ⟨hMem, ?_⟩)
      rw [hRow.id]
      exact fun hText => h c hCommit (Value.text.inj hText).symm

/-- What the caller of a commit held before: its copy of the hypothesis, or the
merge of what a save has read, as they are persisted. -/
def Commit.copy (p : Platform) : Commit → Fields
  | .created _ data | .saved _ _ _ data => data
  | .moved _ h _ _ _ | .awarded _ h _ _ => redactFields p.alnum h.dump

/-- The caller's copy has the stored value of a field. -/
def Fresh (p : Platform) (key : String) (db : Database) (c : Commit) : Prop :=
  ∀ data, Body db c.hid data → getField? key (c.copy p) = getField? key data

/-- Every commit of a run meets a condition on the store that it finds. -/
def Meets (p : Platform) (cond : Database → Commit → Prop) : System → List (String × Call) → Prop
  | _, [] => True
  | s, (now, call) :: rest => (∀ c, commit? p now s call = some c → cond s.db c) ∧
      Meets p cond (step p now s call) rest

/-- The rest of a run meets the condition from the state that the first part leaves. -/
theorem Meets.append {cond : Database → Commit → Prop} {calls more : List (String × Call)}
    (h : Meets p cond s (calls ++ more)) : Meets p cond (run p s calls) more := by
  induction calls generalizing s with
  | nil => exact h
  | cons call rest ih => exact ih h.2

theorem Meets.init {cond : Database → Commit → Prop} {calls more : List (String × Call)}
    (h : Meets p cond s (calls ++ more)) : Meets p cond s calls := by
  induction calls generalizing s with
  | nil => trivial
  | cons call rest ih => exact ⟨h.1, ih h.2⟩

/-- Every run meets what holds of every commit. -/
theorem meets_true (calls : List (String × Call)) : Meets p (fun _ _ => True) s calls := by
  induction calls generalizing s with
  | nil => trivial
  | cons call rest ih => exact ⟨fun _ _ => trivial, ih⟩

/-- A condition on one call. -/
theorem meets_singleton {cond : Database → Commit → Prop} {call : String × Call}
    (h : ∀ c, commit? p call.1 s call.2 = some c → cond s.db c) : Meets p cond s [call] :=
  ⟨h, trivial⟩

/-- A condition on one more call. -/
theorem Meets.snoc {cond : Database → Commit → Prop} {calls : List (String × Call)}
    {call : String × Call} (h : Meets p cond s calls)
    (hLast : ∀ c, commit? p call.1 (Store.run p s calls) call.2 = some c →
      cond (Store.run p s calls).db c) : Meets p cond s (calls ++ [call]) := by
  induction calls generalizing s with
  | nil => exact ⟨hLast, trivial⟩
  | cons first rest ih => exact ⟨h.1, ih h.2 hLast⟩

theorem Meets.and {cond other : Database → Commit → Prop} {calls : List (String × Call)}
    (h : Meets p cond s calls) (hOther : Meets p other s calls) :
    Meets p (fun db c => cond db c ∧ other db c) s calls := by
  induction calls generalizing s with
  | nil => trivial
  | cons call rest ih =>
      exact ⟨fun c hCommit => ⟨h.1 c hCommit, hOther.1 c hCommit⟩, ih h.2 hOther.2⟩

/-- A relation that every call keeps, where its commit meets the condition, holds
between the ends of a run. -/
theorem run_relation {cond : Database → Commit → Prop} {rel : Database → Database → Prop}
    (hRefl : ∀ db, rel db db) (hTrans : ∀ a b c, rel a b → rel b c → rel a c)
    (hStep : ∀ now s call, Filed p s → (∀ c, commit? p now s call = some c → cond s.db c) →
      rel s.db (step p now s call).db)
    (hFiled : Filed p s) {calls : List (String × Call)} (h : Meets p cond s calls) :
    rel s.db (run p s calls).db := by
  induction calls generalizing s with
  | nil => exact hRefl s.db
  | cons call rest ih =>
      exact hTrans _ _ _ (hStep call.1 s call.2 hFiled h.1) (ih (hFiled.step call.1 call.2) h.2)

/-- An invariant that every call keeps, where its commit meets the condition. -/
theorem run_meets {cond : Database → Commit → Prop} {motive : System → Prop}
    (hFiled : Filed p s) (hInit : motive s)
    (hStep : ∀ now s call, Filed p s → (∀ c, commit? p now s call = some c → cond s.db c) →
      motive s → motive (Store.step p now s call))
    {calls : List (String × Call)} (h : Meets p cond s calls) :
    Filed p (Store.run p s calls) ∧ motive (Store.run p s calls) := by
  induction calls generalizing s with
  | nil => exact ⟨hFiled, hInit⟩
  | cons call rest ih =>
      exact ih (hFiled.step call.1 call.2) (hStep call.1 s call.2 hFiled h.1 hInit) h.2

/-- Calls keep the store filed. -/
theorem Filed.run (hFiled : Filed p s) (calls : List (String × Call)) :
    Filed p (run p s calls) :=
  (run_induction (motive := fun _ => True) hFiled trivial (fun _ _ _ _ _ => trivial) calls).1

/-- A property of a run and of the store that it has built, which one more call keeps where
its commit meets the condition. -/
theorem meets_history {cond : Database → Commit → Prop}
    {motive : List (String × Call) → System → Prop} (hFiled : Filed p s) (hInit : motive [] s)
    (hStep : ∀ calls call, Filed p (Store.run p s calls) →
      (∀ c, commit? p call.1 (Store.run p s calls) call.2 = some c →
        cond (Store.run p s calls).db c) →
      motive calls (Store.run p s calls) →
      motive (calls ++ [call]) (Store.run p s (calls ++ [call])))
    {calls : List (String × Call)} (h : Meets p cond s calls) :
    motive calls (Store.run p s calls) := by
  induction calls using List.reverseRecOn with
  | nil => exact hInit
  | append_singleton calls call ih =>
      exact hStep calls call (hFiled.run calls) h.append.1 (ih h.init)

/-- A property of every run and of the store that it has built. -/
theorem run_history {motive : List (String × Call) → System → Prop} (hFiled : Filed p s)
    (hInit : motive [] s)
    (hStep : ∀ calls call, Filed p (Store.run p s calls) → motive calls (Store.run p s calls) →
      motive (calls ++ [call]) (Store.run p s (calls ++ [call])))
    (calls : List (String × Call)) : motive calls (Store.run p s calls) :=
  meets_history hFiled hInit (fun calls call hFiled _ h => hStep calls call hFiled h)
    (meets_true calls)

end Bodies
end L0vi0x.Core.Store
