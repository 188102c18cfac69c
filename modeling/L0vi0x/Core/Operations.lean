import L0vi0x.Core.Entities

/-! Every operation of the store appends the events of its entity and writes the one row of
its id, or it raises and writes nothing. -/
namespace L0vi0x.Core.Store

open L0vi0x.Python L0vi0x.Sql L0vi0x.Core.Redaction

/-- The operations that write, with their arguments. -/
inductive Operation
  | create (payload : NormalFields) (entityId : Option String)
  | save (entity id : String) (payload : NormalFields)
  | transition (token : Option DriverToken) (h : HypothesisRecord) (newState : HState)
      (cause : String) (evidence : List String)
  | award (token : Option DriverToken) (h : HypothesisRecord) (proof : LadderProof)
  | dispatch (taskId key kind phase role startedAt : String)
  | finish (taskId : String) (result : NormalJson) (finishedAt : String)
  | block (taskId : String) (reason : Option String) (finishedAt : String)

/-- What a call leaves: its result, the database, and the hypothesis that its caller holds. -/
structure CallEffect where
  result : Py Json
  db : Database
  held : Option HypothesisRecord

section Perform

variable (p : EntityPlatform) (now : String) (db : Database)

/-- The two names of the hypotheses in `save`. -/
def namesHypothesis (entity : String) : Bool :=
  ["hypothesis", "hypotheses"].contains (lower (strip entity))

def save (entity id : String) (payload : NormalFields) : Py Json × Database :=
  if namesHypothesis entity then
    match savePlan p.toPlatform db id payload with
    | .ok plan => runPlan p.toPlatform now db id plan
    | .error e => (.error e, db)
  else saveEntity p now db entity id payload

/-- A transaction on a task, and `return self.get("task", task_id)`. -/
def thenGet (taskId : String) : Py Unit × Database → Py Json × Database
  | (.ok (), db) => (.obj <$> getTask db taskId, db)
  | (.error e, db) => (.error e, db)

/-- `transition_hypothesis`: the caller's object is assigned once the transaction is through. -/
def performTransition (token : Option DriverToken) (h : HypothesisRecord) (newState : HState)
    (cause : String) (evidence : List String) : CallEffect :=
  match transitionHypothesis p.toPlatform now db token h newState cause evidence with
  | (.ok after, db) =>
      let h := { h with
        state := newState, updatedAt := after.updatedAt, reopenCount := after.reopenCount }
      ⟨.ok (.obj h.dump), db, some h⟩
  | (.error e, db) => ⟨.error e, db, some h⟩

/-- `award_ladder`: the caller's object is assigned once the transaction is through. -/
def performAward (token : Option DriverToken) (h : HypothesisRecord) (proof : LadderProof) :
    CallEffect :=
  match awardLadder p.toPlatform now db token h proof with
  | (.ok candidate, db) =>
      let h := { h with ladder := candidate.ladder, updatedAt := candidate.updatedAt }
      ⟨.ok (.obj h.dump), db, some h⟩
  | (.error e, db) => ⟨.error e, db, some h⟩

def unheld (called : Py Json × Database) : CallEffect := ⟨called.1, called.2, none⟩

def Operation.perform : Operation → CallEffect
  | .create payload entityId =>
      let (result, db) := createHypothesis p.toPlatform now db payload entityId
      unheld (.obj <$> result, db)
  | .save entity id payload => unheld (Store.save p now db entity id payload)
  | .transition token h newState cause evidence =>
      performTransition p now db token h newState cause evidence
  | .award token h proof => performAward p now db token h proof
  | .dispatch taskId key kind phase role startedAt => unheld <| thenGet taskId <| submit db <|
      commitDispatch p.toPlatform now db taskId key kind phase role startedAt
  | .finish taskId result finishedAt => unheld <| thenGet taskId <| submit db <|
      commitFinish p.toPlatform now db taskId result.val finishedAt
  | .block taskId reason finishedAt => unheld <| thenGet taskId <| submit db <|
      commitBlock p.toPlatform now db taskId reason finishedAt

end Perform

section Effect

/-- The tables that operations write to. -/
inductive EntityTable
  | hypotheses
  | mutable (table : MutableTable)

def EntityTable.canonical : EntityTable → String
  | .hypotheses => "hypothesis"
  | .mutable table => table.canonical

/-- Only the row of one id in one table is new or other, and it names the event. -/
def WroteRow (id : String) (event : Int) (db db' : Database) : EntityTable → Prop
  | .hypotheses => db'.tables = db.tables ∧ ∃ new : HypothesisRow,
      new.lastEventId = .int event ∧ OneRow HypothesisRow.id id new db.hypotheses db'.hypotheses
  | .mutable table => db'.hypotheses = db.hypotheses ∧
      (∀ other, other ≠ table → db'.tables other = db.tables other) ∧ ∃ new : GuardedRow,
        new.lastEventId = .int event ∧
          OneRow (rowKey table) id new (db.tables table) (db'.tables table)

/-- Nothing but the counters of ids differs. -/
structure SameTables (db db' : Database) : Prop where
  events : db'.events = db.events
  hypotheses : db'.hypotheses = db.hypotheses
  tables : db'.tables = db.tables

variable (p : EntityPlatform) (db : Database)

/-- The table of an operation, where its entity has one. -/
def Operation.table : Operation → Option EntityTable
  | .create .. | .transition .. | .award .. => some .hypotheses
  | .save entity .. => if namesHypothesis entity then some .hypotheses
      else (MutableTable.ofAlias (lower (strip entity))).map .mutable
  | .dispatch .. | .finish .. | .block .. => some (.mutable .tasks)

def Operation.id : Operation → String
  | .create payload entityId => (chooseId db (redactFields p.alnum payload) entityId).1
  | .save entity id payload => if namesHypothesis entity && (findHypothesis db id).isNone then
      (chooseId db (redactFields p.alnum payload) (some id)).1 else id
  | .transition _ h .. | .award _ h _ => h.id
  | .dispatch taskId .. | .finish taskId .. | .block taskId .. => taskId

/-- A save of an empty payload on an existing hypothesis. -/
def Operation.idle : Operation → Bool
  | .save entity id payload => namesHypothesis entity && (findHypothesis db id).isSome &&
      decide (payload.val = [])
  | _ => false

/-- The reopening that makes the count 3. -/
def Operation.reopensThird : Operation → Bool
  | .transition _ h newState _ _ => Lifecycle.isReopen h.state newState && h.reopenCount + 1 = 3
  | _ => false

/-- The caller's hypothesis before the call. -/
def Operation.held : Operation → Option HypothesisRecord
  | .transition _ h .. | .award _ h _ => some h
  | _ => none

/-- One event of its entity and id, one more for a third reopening, and the row of that id. -/
def Operation.Wrote (op : Operation) (db' : Database) : Prop :=
  ∃ table e more, op.table = some table ∧
    NewEvent db.events table.canonical (op.id p db) e ∧ db'.events = db.events ++ e :: more ∧
    (if op.reopensThird then ∃ alarm, more = [alarm] ∧
        NewEvent (db.events ++ [e]) table.canonical (op.id p db) alarm
      else more = []) ∧
    WroteRow (op.id p db) e.id db db' table

/-- What an operation has done when it returns. -/
def Operation.Done (op : Operation) (db' : Database) : Prop :=
  (op.idle db = true → SameTables db db') ∧ (op.idle db = false → op.Wrote p db db')

end Effect

section Writes

variable {p : EntityPlatform} {now id : String} {db db' : Database}

theorem SameTables.refl (db : Database) : SameTables db db := ⟨rfl, rfl, rfl⟩

theorem chooseId_same (data : Fields) (entityId : Option String) :
    SameTables db (chooseId db data entityId).2 := by
  unfold chooseId
  split
  · exact .refl db
  · split
    · exact .refl db
    · exact ⟨rfl, rfl, rfl⟩

/-- A new event has the next id, and is about its entity. -/
theorem newEvent_new {p : Platform} (kind : String) (payload : Fields) :
    NewEvent db.events "hypothesis" id (newEvent p now db id kind payload) :=
  ⟨rfl, rfl, fun _ hOther => lt_nextEventId hOther⟩

/-- The ids of the hypotheses are distinct, where they are no nulls. -/
theorem hypotheses_unique {engine : Engine} {rows : List HypothesisRow}
    (h : (hypothesisGuards engine).allows rows = true) :
    ((rows.map HypothesisRow.id).filter (· ≠ .null)).Nodup := by
  rw [hypothesisGuards, Bool.and_eq_true, decide_eq_true_eq] at h
  exact h.1

/-- An assigned hypothesis is the one row of its id. -/
theorem Rewrites.oneRow {e : Event} {assign : HypothesisRow → HypothesisRow}
    (h : Rewrites p.engine db id e assign db') (hFind : (findHypothesis db id).isSome = true)
    (hKeeps : ∀ row, (assign row).id = row.id)
    (hEvent : ∀ row, (assign row).lastEventId = .int e.id) :
    db'.events = db.events ++ [e] ∧ WroteRow id e.id db db' .hypotheses := by
  cases h with
  | absent hNone =>
      obtain ⟨i, hIndex⟩ := Option.isSome_iff_exists.mp hFind
      obtain ⟨row, hAt, hId⟩ := findHypothesis_eq_some hIndex
      exact absurd hId (hNone row (List.mem_of_getElem? hAt))
  | row i old hFind hAt hId hGuard hAllows =>
      exact ⟨rfl, rfl, assign old, hEvent old,
        oneRow_set hAt hId ((hKeeps old).trans hId) (hypotheses_unique hAllows)⟩

/-- A row of an entity that is written is the one row of its id. -/
theorem EntityWritten.wrote {table : MutableTable} (h : EntityWritten p db table id db') :
    ∃ e, NewEvent db.events table.canonical id e ∧ db'.events = db.events ++ [e] ∧
      WroteRow id e.id db db' (.mutable table) := by
  obtain ⟨e, bound, hNew, hBound, hWrites⟩ := h
  obtain ⟨new, rows, rfl, hRow, hEvent, -, -⟩ := hWrites.written hBound
  refine ⟨e, hNew, rfl, rfl, fun other => wrote_other _ _, new, hEvent, ?_⟩
  rw [wrote_table]
  exact hRow

end Writes

section Hypotheses

variable {p : EntityPlatform} {now id : String} {db db' : Database}

/-- A creation that returns has inserted the row of the chosen id. -/
theorem createHypothesis_wrote {payload : NormalFields} {entityId : Option String}
    {data : Fields}
    (h : createHypothesis p.toPlatform now db payload entityId = (.ok data, db')) :
    ∃ e, NewEvent db.events "hypothesis"
        (chooseId db (redactFields p.alnum payload) entityId).1 e ∧
      db'.events = db.events ++ [e] ∧
      WroteRow (chooseId db (redactFields p.alnum payload) entityId).1 e.id db db' .hypotheses := by
  have hSame := @chooseId_same db (redactFields p.alnum payload) entityId
  rw [createHypothesis] at h
  generalize chooseId db (redactFields p.alnum payload) entityId = chosen at h hSame ⊢
  obtain ⟨hid, mid⟩ := chosen
  simp only at h hSame ⊢
  split at h
  · cases h
  · obtain ⟨-, bound, -, -, hAllows, rfl⟩ := insertHypothesis_eq_ok (submit_eq_ok h)
    refine ⟨newEvent p.toPlatform now mid hid "hyp_created"
      (createdPayload (newData p.toPlatform payload hid)), ?_, ?_, hSame.tables,
      createdRow hid bound (newData p.toPlatform payload hid) (nextEventId mid.events), rfl, ?_⟩
    · rw [← hSame.events]
      exact newEvent_new ..
    · rw [← hSame.events]
      rfl
    · rw [← hSame.hypotheses]
      exact oneRow_append rfl (hypotheses_unique hAllows)

/-- A creation that raises touches the counters alone. -/
theorem createHypothesis_raised {payload : NormalFields} {entityId : Option String}
    {e : PyError}
    (h : createHypothesis p.toPlatform now db payload entityId = (.error e, db')) :
    SameTables db db' := by
  have hSame := @chooseId_same db (redactFields p.alnum payload) entityId
  rw [createHypothesis] at h
  simp only at h
  split at h
  · rw [← (Prod.mk.inj h).2]
    exact hSame
  · rw [submit_error h]
    exact hSame

/-- An update that returns has assigned the row of the hypothesis. -/
theorem commitSave_wrote {cause : String} {evidence : List Json} {data : Fields} {result : Json}
    (hFind : (findHypothesis db id).isSome = true)
    (h : commitSave p.toPlatform now db id cause evidence data = .ok (result, db')) :
    ∃ e, NewEvent db.events "hypothesis" id e ∧ db'.events = db.events ++ [e] ∧
      WroteRow id e.id db db' .hypotheses := by
  obtain ⟨-, bound, -, hRewrites⟩ := commitSave_eq_ok h
  exact ⟨_, newEvent_new .., hRewrites.oneRow hFind (fun _ => rfl) fun _ => rfl⟩

/-- What a save plans when there is no row, and when there is one. -/
theorem savePlan_cases {payload : NormalFields} {plan : SavePlan}
    (h : savePlan p.toPlatform db id payload = .ok plan) :
    (findHypothesis db id = none ∧ plan = .create payload) ∨
      ((findHypothesis db id).isSome = true ∧ payload.val = [] ∧ ∃ value, plan = .unchanged value) ∨
      ((findHypothesis db id).isSome = true ∧ payload.val ≠ [] ∧
        ∃ cause evidence data, plan = .update cause evidence data) := by
  rw [savePlan] at h
  cases hFind : findHypothesis db id with
  | none =>
      rw [hFind, Option.bind_none, pure_eq_ok] at h
      exact .inl ⟨rfl, h.symm⟩
  | some i =>
      obtain ⟨row, hAt, -⟩ := findHypothesis_eq_some hFind
      rw [hFind, Option.bind_some, hAt] at h
      obtain ⟨_, -, h⟩ := bind_eq_ok.mp h
      split at h
      · rename_i hEmpty
        obtain ⟨value, -, h⟩ := map_eq_ok.mp h
        exact .inr (.inl ⟨rfl, hEmpty, value, h.symm⟩)
      · rename_i hPayload
        refine .inr (.inr ⟨rfl, hPayload, ?_⟩)
        unfold planMerge at h
        split at h
        · obtain ⟨evidence, -, h⟩ := bind_eq_ok.mp h
          obtain ⟨body, -, h⟩ := bind_eq_ok.mp h
          obtain ⟨data, -, h⟩ := bind_eq_ok.mp h
          exact ⟨_, _, _, (pure_eq_ok.mp h).symm⟩
        · cases h

/-- A transition that returns has assigned the row, and recorded a third reopening. -/
theorem commitTransition_wrote {h result : HypothesisRecord} {newState : HState} {cause : String}
    {evidence : List String}
    (hCommit : commitTransition p.toPlatform now db h newState cause evidence =
      .ok (result, db')) :
    result = moved h newState now ∧ ∃ e more, NewEvent db.events "hypothesis" h.id e ∧
      db'.events = db.events ++ e :: more ∧
      (if Lifecycle.isReopen h.state newState && h.reopenCount + 1 = 3 then ∃ alarm,
          more = [alarm] ∧ NewEvent (db.events ++ [e]) "hypothesis" h.id alarm
        else more = []) ∧
      WroteRow h.id e.id db db' .hypotheses := by
  obtain ⟨hResult, i, row, bound, mid, hFind, -, -, -, hRewrites, rfl⟩ :=
    commitTransition_eq_ok hCommit
  have hFound : (findHypothesis db h.id).isSome = true := by rw [hFind]; rfl
  obtain ⟨hEvents, hRow⟩ := hRewrites.oneRow hFound (fun _ => rfl) fun _ => rfl
  refine ⟨hResult, _, thresholdEvents p.toPlatform now mid h newState, newEvent_new .., ?_, ?_,
    hRow⟩
  · change mid.events ++ _ = _
    rw [hEvents, List.append_assoc, List.singleton_append]
  · rw [thresholdEvents]
    split
    · refine ⟨_, rfl, ?_⟩
      rw [← hEvents]
      exact newEvent_new ..
    · rfl

/-- An award is about the hypothesis that it is given. -/
theorem award_id {host : Host} {secret : Bytes} {token : Option DriverToken}
    {h candidate : HypothesisRecord} {proof : LadderProof}
    (hAward : Ladder.award host secret token (some h) proof.axis proof.level (some proof) =
      .ok (true, some candidate)) : candidate.id = h.id := by
  obtain ⟨ok, -, hAward⟩ := bind_eq_ok.mp hAward
  split at hAward
  · cases hAward
  · obtain ⟨level, -, hAward⟩ := bind_eq_ok.mp hAward
    cases hAward
    rfl

/-- An award that returns has assigned the row. -/
theorem commitAward_wrote {candidate result : HypothesisRecord} {proof : LadderProof}
    (hCommit : commitAward p.toPlatform now db candidate proof = .ok (result, db')) :
    result = candidate ∧ ∃ e, NewEvent db.events "hypothesis" candidate.id e ∧
      db'.events = db.events ++ [e] ∧ WroteRow candidate.id e.id db db' .hypotheses := by
  obtain ⟨hResult, i, row, fields, hFind, -, -, -, hRewrites⟩ := commitAward_eq_ok hCommit
  have hFound : (findHypothesis db candidate.id).isSome = true := by rw [hFind]; rfl
  exact ⟨hResult, _, newEvent_new .., hRewrites.oneRow hFound (fun _ => rfl) fun _ => rfl⟩

end Hypotheses

section Tasks

variable {p : EntityPlatform} {now id : String} {db db' : Database}

/-- What a transaction on a task has done when it returns. -/
structure TaskWritten (p : EntityPlatform) (db : Database) (id : String) (db' : Database) :
    Prop where
  written : EntityWritten p db .tasks id db'
  readable : ReadableTask db' id

theorem commitDispatch_written {key kind phase role startedAt : String} {u : Unit}
    (h : commitDispatch p.toPlatform now db id key kind phase role startedAt = .ok (u, db')) :
    TaskWritten p db id db' := by
  simp only [commitDispatch, bind_eq_ok, pure_eq_ok, Prod.mk.injEq] at h
  obtain ⟨⟨event, mid⟩, hRecord, after, hInsert, -, rfl⟩ := h
  obtain ⟨written, rfl, rfl⟩ := recordEvent_entity hRecord
  obtain ⟨bound, hBound, hNone, hWrites⟩ := insertTask_writes rfl hInsert
  exact ⟨⟨_, bound, entityEvent_new .., hNone, hWrites⟩, hWrites.readable hNone hBound (.inl rfl)⟩

theorem commitEnd_written {kind status finishedAt : String} {result : Json}
    {extra : List (String × Json)} {u : Unit}
    (h : commitEnd p.toPlatform now db id kind status finishedAt result extra = .ok (u, db')) :
    TaskWritten p db id db' := by
  simp only [commitEnd, bind_eq_ok, pure_eq_ok, Prod.mk.injEq] at h
  obtain ⟨row, hStored, ⟨event, mid⟩, hRecord, after, hUpdate, -, rfl⟩ := h
  obtain ⟨written, rfl, rfl⟩ := recordEvent_entity hRecord
  have hFound : (findTask db id).isSome = true := by
    cases hFind : findTask db id with
    | none =>
        rw [storedTask, hFind] at hStored
        cases hStored
    | some i => rfl
  obtain ⟨bound, hBound, hNone, hWrites⟩ :=
    @updateTask_writes p id (db.logged _) _ _ _ rfl hFound hUpdate
  exact ⟨⟨_, bound, entityEvent_new .., hNone, hWrites⟩,
    hWrites.readable hNone hBound (.inr ⟨_, rfl⟩)⟩

theorem resultColumn_text (data : Fields) :
    (resultColumn data).2 = .null ∨ ∃ s, (resultColumn data).2 = .str s := by
  rw [resultColumn]
  cases fieldOf "result" data with
  | null => exact .inl rfl
  | _ => exact .inr ⟨_, rfl⟩

/-- A saved task does not change its id, and its result is null or a text. -/
theorem savedColumns_result {data : Fields} {columns : List (String × Json)}
    (h : savedColumns data = .ok columns) : columns.lookup "id" = none ∧
      (columns.lookup "result" = some .null ∨ ∃ s, columns.lookup "result" = some (.str s)) := by
  obtain ⟨key, -, h⟩ := bind_eq_ok.mp h
  rw [← pure_eq_ok.mp h]
  refine ⟨rfl, ?_⟩
  change some (resultColumn data).2 = _ ∨ ∃ s, some (resultColumn data).2 = _
  simpa only [Option.some.injEq] using resultColumn_text data

theorem commitSaveTask_written {payload : Fields} {u : Unit}
    (h : commitSaveTask p.toPlatform now db id payload = .ok (u, db')) :
    TaskWritten p db id db' := by
  simp only [commitSaveTask, bind_eq_ok, pure_eq_ok, Prod.mk.injEq] at h
  obtain ⟨columns, hColumns, ⟨event, mid⟩, hRecord, last, hSave, -, rfl⟩ := h
  obtain ⟨written, rfl, rfl⟩ := recordEvent_entity hRecord
  obtain ⟨hId, hResult⟩ := savedColumns_result hColumns
  unfold saveTask at hSave
  split at hSave
  · rename_i hFound
    obtain ⟨bound, hBound, hNone, hWrites⟩ :=
      @updateTask_writes p id (db.logged _) _ _ _ hId hFound hSave
    exact ⟨⟨_, bound, entityEvent_new .., hNone, hWrites⟩, hWrites.readable hNone hBound hResult⟩
  · obtain ⟨bound, hBound, hNone, hWrites⟩ := insertTask_writes hId hSave
    exact ⟨⟨_, bound, entityEvent_new .., hNone, hWrites⟩, hWrites.readable hNone hBound hResult⟩

/-- A call on a task that returns has written its row; one that raises has written nothing. -/
theorem thenGet_cases {txn : Py (Unit × Database)}
    (hTxn : ∀ u db', txn = .ok (u, db') → TaskWritten p db id db') :
    (∃ e, thenGet id (submit db txn) = (.error e, db)) ∨
      ∃ task db', thenGet id (submit db txn) = (.ok (.obj task), db') ∧
        TaskWritten p db id db' := by
  cases txn with
  | error e => exact .inl ⟨e, rfl⟩
  | ok r =>
      obtain ⟨u, db'⟩ := r
      have hWritten := hTxn u db' rfl
      obtain ⟨task, hTask⟩ := hWritten.readable.gets
      refine .inr ⟨task, db', ?_, hWritten⟩
      rw [submit, thenGet, hTask]
      rfl

end Tasks

section Entities

variable {p : EntityPlatform} {now id : String} {db db' : Database}

theorem savedBody_loads (payload : NormalFields) :
    Json.loads (Json.obj (savedBody p id payload.val)).dumps =
      .ok (.obj (savedBody p id payload.val)) := by
  have hId : (Json.str id).Normal := trivial
  exact Json.loads_dumps ((redactFields_normal payload.property).setField hId)

/-- A save of an entity that is no hypothesis writes its row, or raises and writes nothing. -/
theorem saveEntity_cases (entity : String) (payload : NormalFields) :
    (∃ e, saveEntity p now db entity id payload = (.error e, db)) ∨
      ∃ table value db', MutableTable.ofAlias (lower (strip entity)) = some table ∧
        saveEntity p now db entity id payload = (.ok value, db') ∧
        EntityWritten p db table id db' := by
  rw [saveEntity]
  cases MutableTable.ofAlias (lower (strip entity)) with
  | none => exact .inl ⟨_, rfl⟩
  | some table =>
      simp only
      cases hTxn : commitEntity p now db table id payload.val with
      | error e => exact .inl ⟨e, rfl⟩
      | ok r =>
          obtain ⟨u, db'⟩ := r
          refine .inr ⟨table, .obj (savedBody p id payload.val), db', rfl, ?_,
            commitEntity_written hTxn⟩
          rw [submit]
          simp only
          rw [savedBody_loads]

end Entities

section Operations

variable (p : EntityPlatform) (now : String) (db : Database)

/-- What a call does: it raises and nothing changes, or it returns and has done its work. -/
def Operation.Atomic (op : Operation) (after : CallEffect) : Prop :=
  (∀ e, after.result = .error e → SameTables db after.db ∧ after.held = op.held) ∧
    ∀ value, after.result = .ok value → op.Done p db after.db

variable {p now db} {op : Operation} {after : CallEffect}

/-- An operation that raises and leaves the tables is atomic. -/
theorem Operation.Atomic.raised {db' : Database} {e : PyError} (hSame : SameTables db db') :
    op.Atomic p db ⟨.error e, db', op.held⟩ :=
  ⟨fun _ _ => ⟨hSame, rfl⟩, by rintro value ⟨⟩⟩

/-- An operation that returns and has done its work is atomic. -/
theorem Operation.Atomic.returned {db' : Database} {value : Json} {held : Option HypothesisRecord}
    (hDone : op.Done p db db') : op.Atomic p db ⟨.ok value, db', held⟩ :=
  ⟨by rintro e ⟨⟩, fun _ _ => hDone⟩

/-- An operation that is not idle and no third reopening is done by one event and one row. -/
theorem Operation.done_of_one {db' : Database} {table : EntityTable} {id : String}
    (hIdle : op.idle db = false) (hThird : op.reopensThird = false) (hTable : op.table = some table)
    (hId : op.id p db = id)
    (h : ∃ e, NewEvent db.events table.canonical id e ∧ db'.events = db.events ++ [e] ∧
      WroteRow id e.id db db' table) : op.Done p db db' := by
  obtain ⟨e, hNew, hEvents, hRow⟩ := h
  refine ⟨fun h => absurd h (by simp [hIdle]), fun _ => ?_⟩
  refine ⟨table, e, [], hTable, hId ▸ hNew, hEvents, ?_, hId ▸ hRow⟩
  rw [hThird, if_neg (by simp)]

theorem create_atomic (payload : NormalFields) (entityId : Option String) :
    (Operation.create payload entityId).Atomic p db
      ((Operation.create payload entityId).perform p now db) := by
  rw [Operation.perform]
  cases hCall : createHypothesis p.toPlatform now db payload entityId with
  | mk result db' =>
      cases result with
      | error e =>
          have hSame := createHypothesis_raised hCall
          exact .raised hSame
      | ok data =>
          have hWrote := createHypothesis_wrote hCall
          have hId : (Operation.create payload entityId).id p db =
              (chooseId db (redactFields p.alnum payload) entityId).1 := by rw [Operation.id]
          exact .returned (Operation.done_of_one rfl rfl rfl hId hWrote)

/-- A save of a hypothesis, by what it plans. -/
theorem saveHypothesis_atomic {entity id : String} {payload : NormalFields}
    (hNames : namesHypothesis entity = true) :
    (Operation.save entity id payload).Atomic p db
      ((Operation.save entity id payload).perform p now db) := by
  have hTable : (Operation.save entity id payload).table = some .hypotheses := by
    rw [Operation.table, if_pos hNames]
  rw [Operation.perform, Store.save, if_pos hNames]
  cases hPlan : savePlan p.toPlatform db id payload with
  | error e => exact .raised (.refl db)
  | ok plan =>
      rcases savePlan_cases hPlan with ⟨hNone, rfl⟩ | ⟨hSome, hEmpty, value, rfl⟩ |
        ⟨hSome, hFull, cause, evidence, data, rfl⟩
      · simp only [runPlan]
        cases hCall : createHypothesis p.toPlatform now db payload (some id) with
        | mk result db' =>
            cases result with
            | error e =>
                have hSame := createHypothesis_raised hCall
                exact .raised hSame
            | ok data =>
                have hWrote := createHypothesis_wrote hCall
                have hIdle : (Operation.save entity id payload).idle db = false := by
                  simp [Operation.idle, hNone]
                have hId : (Operation.save entity id payload).id p db =
                    (chooseId db (redactFields p.alnum payload) (some id)).1 := by
                  simp [Operation.id, hNames, hNone]
                exact .returned (Operation.done_of_one hIdle rfl hTable hId hWrote)
      · refine .returned ?_
        have hIdle : (Operation.save entity id payload).idle db = true := by
          simp [Operation.idle, hNames, hSome, hEmpty]
        exact ⟨fun _ => .refl db, fun h => absurd h (by simp [hIdle])⟩
      · simp only [runPlan]
        cases hCall : submit db (commitSave p.toPlatform now db id cause evidence data) with
        | mk result db' =>
            cases result with
            | error e =>
                rw [submit_error hCall]
                exact .raised (.refl db)
            | ok value =>
                have hWrote := commitSave_wrote hSome (submit_eq_ok hCall)
                have hIdle : (Operation.save entity id payload).idle db = false := by
                  simp [Operation.idle, hFull]
                have hId : (Operation.save entity id payload).id p db = id := by
                  simp [Operation.id, Option.isSome_iff_ne_none.mp hSome]
                exact .returned (Operation.done_of_one hIdle rfl hTable hId hWrote)

/-- A save of another entity than a hypothesis is atomic. -/
theorem saveEntity_atomic {entity id : String} {payload : NormalFields}
    (hNames : namesHypothesis entity = false) :
    (Operation.save entity id payload).Atomic p db
      ((Operation.save entity id payload).perform p now db) := by
  rw [Operation.perform, Store.save, if_neg (by simp [hNames])]
  rcases @saveEntity_cases p now id db entity payload with ⟨e, hRaised⟩ |
    ⟨table, value, db', hAlias, hReturned, hWritten⟩
  · rw [hRaised]
    exact .raised (.refl db)
  · rw [hReturned]
    have hIdle : (Operation.save entity id payload).idle db = false := by
      simp [Operation.idle, hNames]
    have hTable : (Operation.save entity id payload).table = some (.mutable table) := by
      simp [Operation.table, hNames, hAlias]
    have hId : (Operation.save entity id payload).id p db = id := by
      simp [Operation.id, hNames]
    exact .returned (Operation.done_of_one hIdle rfl hTable hId hWritten.wrote)

/-- A transition is atomic, with the object of its caller. -/
theorem transition_atomic (token : Option DriverToken) (h : HypothesisRecord) (newState : HState)
    (cause : String) (evidence : List String) :
    (Operation.transition token h newState cause evidence).Atomic p db
      ((Operation.transition token h newState cause evidence).perform p now db) := by
  rw [Operation.perform, performTransition, transitionHypothesis]
  cases Lifecycle.validateTransition p.host p.secret token h newState cause evidence with
  | error e => exact .raised (.refl db)
  | ok u =>
      simp only
      cases hTxn : commitTransition p.toPlatform now db h newState cause evidence with
      | error e => exact .raised (.refl db)
      | ok r =>
          obtain ⟨result, db'⟩ := r
          obtain ⟨-, e, more, hNew, hEvents, hMore, hRow⟩ := commitTransition_wrote hTxn
          exact .returned ⟨fun h => (by cases h),
            fun _ => ⟨.hypotheses, e, more, rfl, hNew, hEvents, hMore, hRow⟩⟩

theorem award_atomic (token : Option DriverToken) (h : HypothesisRecord) (proof : LadderProof) :
    (Operation.award token h proof).Atomic p db
      ((Operation.award token h proof).perform p now db) := by
  rw [Operation.perform, performAward, awardLadder]
  split
  · rename_i candidate db' hCall
    split at hCall
    · cases hCall
    · rename_i candidate' hAward
      obtain ⟨rfl, hWrote⟩ := commitAward_wrote (submit_eq_ok hCall)
      rw [award_id hAward] at hWrote
      exact .returned (Operation.done_of_one rfl rfl rfl rfl hWrote)
    · cases hCall
  · rename_i e db' hCall
    split at hCall
    · cases hCall
      exact .raised (.refl db)
    · rw [submit_error hCall]
      exact .raised (.refl db)
    · cases hCall
      exact .raised (.refl db)

/-- A transaction on a task is atomic when it does the work of a task where it returns. -/
theorem task_atomic {op : Operation} {id : String} {txn : Py (Unit × Database)}
    (hIdle : op.idle db = false) (hThird : op.reopensThird = false) (hHeld : op.held = none)
    (hTable : op.table = some (.mutable .tasks)) (hId : op.id p db = id)
    (hTxn : ∀ u db', txn = .ok (u, db') → TaskWritten p db id db') :
    op.Atomic p db (unheld (thenGet id (submit db txn))) := by
  rcases thenGet_cases hTxn with ⟨e, hRaised⟩ | ⟨task, db', hReturned, hWritten⟩
  · rw [hRaised, unheld, ← hHeld]
    exact .raised (.refl db)
  · rw [hReturned]
    have hCanonical : "task" = (EntityTable.mutable .tasks).canonical := by decide
    refine .returned (Operation.done_of_one hIdle hThird hTable hId ?_)
    rw [← hCanonical]
    exact hWritten.written.wrote

end Operations
end L0vi0x.Core.Store
