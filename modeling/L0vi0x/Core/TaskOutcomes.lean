import L0vi0x.Core.SettledTasks
import L0vi0x.Python.Linearization
import L0vi0x.Sql.StrictEngine

/-! The outcomes of tasks are linearized by their write transactions. What `fail` has read
before its write is of no effect: all that it writes back is fixed. -/
namespace L0vi0x.Sql

open L0vi0x.Python

/-- `json_extract` gives what stands at a path of a document, whatever else the document holds. -/
def Engine.ReadsPath (engine : Engine) : Prop :=
  ∀ (a b : Json) (path : List String), a.Normal → b.Normal → walk path a = walk path b →
    engine.jsonExtract (.text a.dumps) path = engine.jsonExtract (.text b.dumps) path

/-- The strict engine reads a path as `json_extract` is documented to. -/
theorem Engine.strict_readsPath : Engine.strict.ReadsPath := by
  intro a b path ha hb hSame
  rw [Engine.strict_dumps ha, Engine.strict_dumps hb, hSame]

end L0vi0x.Sql

namespace L0vi0x.Core.Store

open L0vi0x.Python L0vi0x.Sql L0vi0x.Core.Redaction

section Same

/-- No column of the event is `NULL`. -/
def Event.complete (e : Event) : Bool :=
  e.ts ≠ .null && e.kind ≠ .null && e.entity ≠ .null && e.entityId ≠ .null && e.payload ≠ .null

/-- Two events that the triggers of `tasks` cannot tell apart. -/
structure SameEvent (engine : Engine) (e e' : Event) : Prop where
  id : e'.id = e.id
  entity : e'.entity = e.entity
  entityId : e'.entityId = e.entityId
  complete : e'.complete = e.complete
  op : engine.jsonExtract e'.payload ["entity_op"] = engine.jsonExtract e.payload ["entity_op"]
  snapshot : ∀ name, engine.jsonExtract e'.payload ["row_snapshot", name] =
    engine.jsonExtract e.payload ["row_snapshot", name]

theorem SameEvent.refl (engine : Engine) (e : Event) : SameEvent engine e e :=
  ⟨rfl, rfl, rfl, rfl, rfl, fun _ => rfl⟩

/-- Two databases with the same tasks, whose events the triggers cannot tell apart. -/
structure SameTasks (engine : Engine) (db db' : Database) : Prop where
  tasks : db'.tables .tasks = db.tables .tasks
  events : List.Forall₂ (SameEvent engine) db.events db'.events

variable {engine : Engine} {db db' : Database} {taskId : String}

theorem SameTasks.refl (engine : Engine) (db : Database) : SameTasks engine db db :=
  ⟨rfl, List.forall₂_same.mpr fun e _ => .refl engine e⟩

/-- A test that same events pass alike. -/
theorem any_same {events events' : List Event} (h : List.Forall₂ (SameEvent engine) events events')
    {f : Event → Bool} (hf : ∀ e e', SameEvent engine e e' → f e' = f e) :
    events'.any f = events.any f := by
  induction h with
  | nil => rfl
  | cons hHead _ ih => rw [List.any_cons, List.any_cons, hf _ _ hHead, ih]

/-- Events that the triggers cannot tell apart are complete together, and have the same ids. -/
theorem all_same {events events' : List Event} (h : List.Forall₂ (SameEvent engine) events events') :
    events'.all Event.complete = events.all Event.complete ∧
      events'.map Event.id = events.map Event.id := by
  induction h with
  | nil => exact ⟨rfl, rfl⟩
  | cons hHead _ ih =>
      rw [List.all_cons, List.all_cons, hHead.complete, ih.1, List.map_cons, List.map_cons,
        hHead.id, ih.2]
      exact ⟨rfl, rfl⟩

/-- Events that the triggers cannot tell apart pass the triggers of the log together. -/
theorem allows_same {events events' : List Event}
    (h : List.Forall₂ (SameEvent engine) events events') :
    eventGuards.allows events' = eventGuards.allows events := by
  obtain ⟨hComplete, hIds⟩ := all_same h
  change (decide (events'.map Event.id).Nodup && events'.all Event.complete) =
    (decide (events.map Event.id).Nodup && events.all Event.complete)
  rw [hComplete, hIds]

/-- Events that the triggers cannot tell apart back the same rows. -/
theorem backsRow_same {op : String} {key : Value} {row : GuardedRow} (e e' : Event)
    (h : SameEvent engine e e') :
    backsRow engine .tasks op key row e' = backsRow engine .tasks op key row e := by
  simp only [backsRow, matchesSnapshot, matchesPayload, h.id, h.entity, h.entityId, h.op, h.snapshot]

/-- Events that the triggers cannot tell apart give the updates of tasks the same triggers. -/
theorem guards_same {events events' : List Event}
    (h : List.Forall₂ (SameEvent engine) events events') :
    (taskGuards engine).update events' = (taskGuards engine).update events := by
  funext old new
  change (_ && events'.any _) = (_ && events.any _)
  rw [any_same h backsRow_same]

theorem findTask_same (h : SameTasks engine db db') : findTask db' taskId = findTask db taskId := by
  rw [findTask, findTask, h.tasks]

theorem storedTask_same (h : SameTasks engine db db') :
    storedTask db' taskId = storedTask db taskId := by
  rw [storedTask, storedTask, findTask_same h, h.tasks]

/-- An update goes through on both databases or on none. -/
theorem updateTask_same (h : SameTasks engine db db') {columns : List (String × Json)} {event : Int}
    {after : Database} (hUpdate : updateTask engine db taskId columns event = .ok after) :
    ∃ after', updateTask engine db' taskId columns event = .ok after' ∧
      SameTasks engine after after' := by
  rw [updateTask, bind_eq_ok] at hUpdate
  obtain ⟨bound, hBound, hUpdate⟩ := hUpdate
  rw [updateTask, hBound, findTask_same h, h.tasks]
  cases hFind : findTask db taskId with
  | none =>
      rw [hFind, pure_eq_ok] at hUpdate
      subst hUpdate
      exact ⟨db', rfl, h⟩
  | some i =>
      simp only [hFind, bind_eq_ok, executed_eq_ok, pure_eq_ok] at hUpdate
      obtain ⟨rows, hRows, rfl⟩ := hUpdate
      refine ⟨{ db' with tables := Function.update db'.tables .tasks rows }, ?_, ?_, h.events⟩
      · have hRow : updateRow (taskGuards engine) db'.events =
            updateRow (taskGuards engine) db.events := by
          funext rows change
          rw [updateRow, updateRow, guards_same h.events]
        simp only [bind_eq_ok, executed_eq_ok, pure_eq_ok, Except.ok.injEq, exists_eq_left']
        refine ⟨rows, ?_, rfl⟩
        rw [Statement.run, hRow]
        exact hRows
      · rw [tables_update, tables_update]

end Same

section Records

variable {p : Platform} {now now' taskId : String} {db db' mid : Database}
  {payload payload' : Fields} {event : Int}

/-- Payloads that differ in nothing that a trigger asks for are recorded alike. -/
theorem recordEvent_same (hEngine : p.engine.ReadsPath) (h : SameTasks p.engine db db')
    (hNormal : (Json.obj payload).Normal) (hNormal' : (Json.obj payload').Normal)
    (hFields : ∀ key ∈ ["kind", "entity_op", "row_snapshot"],
      getField? key payload' = getField? key payload)
    (hRecord : recordEvent p now db "task" taskId payload = .ok (event, mid)) :
    ∃ mid', recordEvent p now' db' "task" taskId payload' = .ok (event, mid') ∧
      SameTasks p.engine mid mid' := by
  have hRedacted : ∀ key ∈ ["kind", "entity_op", "row_snapshot"],
      getField? key (redactFields p.alnum payload') = getField? key (redactFields p.alnum payload) := by
    intro key hKey
    rw [getField?_redactFields, getField?_redactFields, hFields key hKey]
  have hKind := hRedacted "kind" (by simp)
  have hOp := hRedacted "entity_op" (by simp)
  have hSnapshot := hRedacted "row_snapshot" (by simp)
  have hReads : ∀ path, walk path (.obj (redactFields p.alnum payload')) =
      walk path (.obj (redactFields p.alnum payload)) →
      p.engine.jsonExtract (.text (Json.obj (redactFields p.alnum payload')).dumps) path =
        p.engine.jsonExtract (.text (Json.obj (redactFields p.alnum payload)).dumps) path :=
    fun path => hEngine _ _ path (redactFields_normal hNormal') (redactFields_normal hNormal)
  have hId : nextEventId db'.events = nextEventId db.events := by
    rw [nextEventId, nextEventId, (all_same h.events).2]
  simp only [recordEvent, bind_eq_ok, executed_eq_ok, pure_eq_ok] at hRecord
  obtain ⟨kind, hValid, _, hChecked, events, hInsert, hResult⟩ := hRecord
  simp only [Statement.run, List.foldlM_cons, List.foldlM_nil, Option.bind_eq_bind,
    Option.bind_eq_some_iff, Option.pure_def, Option.some.injEq] at hInsert
  obtain ⟨rows, hRow, rfl⟩ := hInsert
  obtain ⟨-, hAllows, rfl⟩ := insertRow_eq_some.mp hRow
  obtain ⟨rfl, rfl⟩ := Prod.mk.inj hResult
  have hNew : SameEvent p.engine
      ⟨nextEventId db.events, .text now, .text kind, .text "task", .text taskId,
        .text (Json.obj (redactFields p.alnum payload)).dumps⟩
      ⟨nextEventId db.events, .text now', .text kind, .text "task", .text taskId,
        .text (Json.obj (redactFields p.alnum payload')).dumps⟩ := by
    refine ⟨rfl, rfl, rfl, rfl, hReads _ ?_, fun name => hReads _ ?_⟩
    · rw [walk, walk, Json.get?, Json.get?, hOp]
    · rw [walk, walk, Json.get?, Json.get?, hSnapshot]
  have hEvents := List.rel_append h.events (List.Forall₂.cons hNew .nil)
  refine ⟨⟨db'.events ++ [_], db'.hypotheses, db'.tables, db'.idCounters⟩, ?_, h.tasks, hEvents⟩
  simp only [recordEvent, bind_eq_ok, executed_eq_ok, pure_eq_ok, hKind, hId]
  refine ⟨kind, hValid, (), ?_, _, Statement.run_insert_one rfl ?_, rfl⟩
  · rw [checkOp, hOp, ← checkOp]
    exact hChecked
  · rw [allows_same hEvents]
    exact hAllows

end Records

section Commits

variable {p : Platform} {now now' taskId reading : String} {db db' after : Database}
  {task task' : Fields} {result : Json}

theorem endedTask_normal (row : GuardedRow) (taskId status finishedAt : String)
    (hResult : result.Normal) : (endedTask row taskId status finishedAt result).Normal := by
  have hText : ∀ s, (Json.str s).Normal := fun _ => trivial
  refine normal_dictOf ?_
  simp only [List.forall_mem_cons, hText, toJson_normal, hResult, true_and]
  simp

/-- The end of a task commits in both databases, and leaves the same tasks. -/
theorem commitEnd_same (hEngine : p.engine.ReadsPath) (h : SameTasks p.engine db db')
    {kind status : String} {extra : List (String × Json)} (hResult : result.Normal)
    (hExtra : ∀ c ∈ extra, c.2.Normal)
    (hCommit : commitEnd p now db taskId kind status reading result extra = .ok ((), after)) :
    ∃ after', commitEnd p now' db' taskId kind status reading result extra = .ok ((), after') ∧
      SameTasks p.engine after after' := by
  simp only [commitEnd, bind_eq_ok, pure_eq_ok, Prod.mk.injEq, true_and] at hCommit
  obtain ⟨row, hStored, ⟨event, mid⟩, hRecord, _, hUpdate, rfl⟩ := hCommit
  have hNormal : (Json.obj (dictOf ([("kind", .str kind), ("entity_op", .str "update")] ++ extra ++
      [("snapshot", endedTask row taskId status reading result),
        ("row_snapshot", endedTask row taskId status reading (.str result.dumpsSpaced))]))).Normal := by
    refine normal_dictOf fun c hc => ?_
    simp only [List.mem_append, List.mem_cons, List.not_mem_nil, or_false] at hc
    rcases hc with ((rfl | rfl) | hc) | rfl | rfl
    · trivial
    · trivial
    · exact hExtra c hc
    · exact endedTask_normal row taskId status reading hResult
    · exact endedTask_normal row taskId status reading trivial
  obtain ⟨mid', hRecord', hMid⟩ :=
    @recordEvent_same p now now' taskId _ _ _ _ _ _ hEngine h hNormal hNormal (fun _ _ => rfl) hRecord
  obtain ⟨after', hUpdate', hAfter⟩ := updateTask_same hMid hUpdate
  refine ⟨after', ?_, hAfter⟩
  simp only [commitEnd, bind_eq_ok, pure_eq_ok, Prod.mk.injEq, true_and]
  exact ⟨row, (storedTask_same h).trans hStored, (event, mid'), hRecord', after', hUpdate', rfl⟩

def failedFields (task : Fields) (reading : String) (result : Json) : Fields :=
  updateFields task [("status", .str "failed"), ("finished_at", .str reading), ("result", result)]

/-- What `save` binds to the result column. -/
def savedResult : Json → Json
  | .null => .null
  | j => .str j.dumpsSpaced

/-- The columns that `fail` writes: all that is fixed, as it is in the row. -/
def failedColumns (p : Platform) (row : GuardedRow) (reading : String) (result : Json) :
    List (String × Json) :=
  [("idempotency_key", (row.column "idempotency_key").toJson), ("phase", (row.column "phase").toJson),
    ("role", (row.column "role").toJson), ("status", .str (redact p.alnum "failed")),
    ("started_at", (row.column "started_at").toJson),
    ("finished_at", .str (redact p.alnum reading)),
    ("result", savedResult (redactPayload p.alnum result))]

/-- Whatever else the task that was read says. -/
theorem savedColumns_failed {row : GuardedRow}
    (hFields : ∀ name ∈ fixedColumns, getField? name task = some (row.column name).toJson)
    (hSettled : ∀ name ∈ fixedColumns, Settled p (row.column name)) :
    savedColumns (redactFields p.alnum (failedFields task reading result)) =
      .ok (failedColumns p row reading result) := by
  have hFixed : ∀ name ∈ fixedColumns,
      getField? name (redactFields p.alnum (failedFields task reading result)) =
        some (row.column name).toJson := by
    intro name hName
    have hOther : lookupLast name [("status", Json.str "failed"), ("finished_at", .str reading),
        ("result", result)] = none := by
      simp only [fixedColumns, List.mem_cons, List.not_mem_nil, or_false] at hName
      rcases hName with rfl | rfl | rfl | rfl <;> simp [lookupLast]
    rw [getField?_redactFields, failedFields, getField?_updateFields_other hOther,
      hFields name hName, Option.map_some, (hSettled name hName).redacted]
  have hWritten : ∀ name j, lookupLast name [("status", Json.str "failed"),
      ("finished_at", .str reading), ("result", result)] = some j →
      getField? name (redactFields p.alnum (failedFields task reading result)) =
        some (redactPayload p.alnum j) := by
    intro name j hName
    rw [getField?_redactFields, failedFields, updateFields, getField?_foldl, hName]
    rfl
  have hStatus := hWritten "status" (.str "failed") rfl
  have hFinished := hWritten "finished_at" (.str reading) rfl
  have hResult := hWritten "result" result rfl
  have hKey := hFixed "idempotency_key" (by simp [fixedColumns])
  have hPhase := hFixed "phase" (by simp [fixedColumns])
  have hRole := hFixed "role" (by simp [fixedColumns])
  have hStarted := hFixed "started_at" (by simp [fixedColumns])
  simp only [savedColumns, Json.item, fieldOf, hStatus, hFinished, hResult, hKey, hPhase, hRole,
    hStarted, Option.getD_some, bind_eq_ok, pure_eq_ok, exists_eq_left', failedColumns]
  generalize redactPayload p.alnum result = saved
  cases saved <;> rfl

theorem failedColumns_normal (row : GuardedRow) (reading : String) (result : Json) :
    ∀ c ∈ failedColumns p row reading result, c.2.Normal := by
  have hText : ∀ s, (Json.str s).Normal := fun _ => trivial
  have hSaved : (savedResult (redactPayload p.alnum result)).Normal := by
    cases redactPayload p.alnum result <;> trivial
  simp only [failedColumns, List.forall_mem_cons, hText, toJson_normal, hSaved, true_and]
  simp

/-- The event of the save that `fail` does. -/
def failedPayload (p : Platform) (taskId : String) (row : GuardedRow) (task : Fields)
    (reading : String) (result : Json) : Fields :=
  savedPayload taskId true (redactFields p.alnum (failedFields task reading result))
    (failedColumns p row reading result)

theorem failedPayload_normal {row : GuardedRow} (hTask : (Json.obj task).Normal)
    (hResult : result.Normal) :
    (Json.obj (failedPayload p taskId row task reading result)).Normal := by
  have hFields : (Json.obj (failedFields task reading result)).Normal := by
    refine normal_updateFields hTask fun c hc => ?_
    simp only [List.mem_cons, List.not_mem_nil, or_false] at hc
    rcases hc with rfl | rfl | rfl
    · trivial
    · trivial
    · exact hResult
  exact savedPayload_normal (redactFields_normal hFields) (failedColumns_normal row reading result)

/-- The save that `fail` does, whatever it read before. -/
theorem commitSaveTask_failed {row : GuardedRow} (hStored : storedTask db taskId = .ok row)
    (hFields : ∀ name ∈ fixedColumns, getField? name task = some (row.column name).toJson)
    (hSettled : ∀ name ∈ fixedColumns, Settled p (row.column name)) :
    commitSaveTask p now db taskId (failedFields task reading result) = (do
      let (event, db) ← recordEvent p now db "task" taskId
        (failedPayload p taskId row task reading result)
      let db ← updateTask p.engine db taskId (failedColumns p row reading result) event
      pure ((), db)) := by
  have hIs : (findTask db taskId).isSome = true := by
    rw [storedTask] at hStored
    cases hFind : findTask db taskId with
    | none => simp [hFind] at hStored
    | some i => rfl
  rw [commitSaveTask, savedColumns_failed hFields hSettled, hIs]
  rfl

/-- The save of a failure commits in both databases, and leaves the same tasks. -/
theorem commitSave_same (hEngine : p.engine.ReadsPath) (hSettled : SettledTasks p (db.tables .tasks))
    (h : SameTasks p.engine db db') (hResult : result.Normal) (hShows : Shows db taskId task)
    (hShows' : Shows db' taskId task')
    (hCommit : commitSaveTask p now db taskId (failedFields task reading result) = .ok ((), after)) :
    ∃ after', commitSaveTask p now' db' taskId (failedFields task' reading result) = .ok ((), after') ∧
      SameTasks p.engine after after' := by
  obtain ⟨row, hStored, hFields⟩ := hShows.row
  obtain ⟨row', hStored', hFields'⟩ := hShows'.row
  obtain rfl : row = row' :=
    Except.ok.inj (hStored.symm.trans ((storedTask_same h).symm.trans hStored'))
  have hRow := hSettled.fixed row (mem_of_storedTask hStored)
  rw [commitSaveTask_failed hStored hFields hRow] at hCommit
  simp only [bind_eq_ok, pure_eq_ok, Prod.mk.injEq, true_and] at hCommit
  obtain ⟨⟨event, mid⟩, hRecord, _, hUpdate, rfl⟩ := hCommit
  have hAlike : ∀ key ∈ ["kind", "entity_op", "row_snapshot"],
      getField? key (failedPayload p taskId row task' reading result) =
        getField? key (failedPayload p taskId row task reading result) := by
    intro key hKey
    rw [failedPayload, failedPayload, savedPayload, savedPayload, getField?_dictOf, getField?_dictOf]
    simp only [List.mem_cons, List.not_mem_nil, or_false] at hKey
    rcases hKey with rfl | rfl | rfl <;> rfl
  obtain ⟨mid', hRecord', hMid⟩ := @recordEvent_same p now now' taskId _ _ _ _ _ _ hEngine h
    (failedPayload_normal hShows.normal hResult) (failedPayload_normal hShows'.normal hResult)
    hAlike hRecord
  obtain ⟨after', hUpdate', hAfter⟩ := updateTask_same hMid hUpdate
  refine ⟨after', ?_, hAfter⟩
  rw [commitSaveTask_failed hStored' hFields' hRow]
  simp only [bind_eq_ok, pure_eq_ok, Prod.mk.injEq, true_and]
  exact ⟨(event, mid'), hRecord', after', hUpdate', rfl⟩

end Commits

section Calls

variable {p : Platform} {reading taskId : String} {db after : Database} {result : NormalJson}
  {task : Fields}

/-- The database after a call that nothing interrupts, with this clock reading. -/
def TaskCall.alone (p : Platform) (call : TaskCall) (reading : String) (db : Database) : Database :=
  (call.program.alone (answerTask p) (fun _ => ⟨reading, none⟩) db).2

/-- A `finish` by itself commits the end of its task. -/
theorem finish_alone
    (hCommit : commitFinish p reading db taskId result.val reading = .ok ((), after)) :
    TaskCall.alone p (.finish taskId result) reading db = after := by
  simp [TaskCall.alone, TaskCall.program, TaskLedger.finish, TaskLedger.returning, Program.alone,
    answerTask, Moment.guarded, submit, hCommit]

/-- A `block_human` by itself commits the block of its task. -/
theorem blockHuman_alone {reason : Option String}
    (hCommit : commitBlock p reading db taskId reason reading = .ok ((), after)) :
    TaskCall.alone p (.blockHuman taskId reason) reading db = after := by
  simp [TaskCall.alone, TaskCall.program, TaskLedger.blockHuman, TaskLedger.returning, Program.alone,
    answerTask, Moment.guarded, submit, hCommit]

/-- A `fail` by itself reads the task, and commits its failure. -/
theorem fail_alone (hRead : getTask db taskId = .ok task)
    (hCommit : commitSaveTask p reading db taskId (failedFields task reading result.val) =
      .ok ((), after)) :
    TaskCall.alone p (.fail taskId result) reading db = after := by
  rw [failedFields] at hCommit
  simp [TaskCall.alone, TaskCall.program, TaskLedger.fail, TaskLedger.returning, Program.alone,
    answerTask, Moment.guarded, submit, hRead, hCommit]

/-- The clock reading of a write that commits. -/
def TaskRequest.committed : (request : TaskRequest) → TaskReply request → Option String
  | .finish _ _ finishedAt, .ok () => some finishedAt
  | .block _ _ finishedAt, .ok () => some finishedAt
  | .save _ payload, .ok () => some (fieldOf "finished_at" payload).text
  | _, _ => none

def TaskCall.ends : TaskCall → Bool
  | .begin .. => false
  | .finish .. | .fail .. | .blockHuman .. => true

/-- How far a call is that has not written yet. -/
inductive BeforeWrite : TaskCall → Database → TaskLedger.TaskProgram → Prop
  | start {call : TaskCall} {store : Database} (h : call.ends = true) :
      BeforeWrite call store call.program
  | finishing {id : String} {result : NormalJson} {store : Database} (reading : String) :
      BeforeWrite (.finish id result) store
        (.call (.finish id result reading) (TaskLedger.returning id))
  | blocking {id : String} {reason : Option String} {store : Database} (reading : String) :
      BeforeWrite (.blockHuman id reason) store
        (.call (.block id reason reading) (TaskLedger.returning id))
  | failing {id : String} {result : NormalJson} {store : Database} {task : Fields}
      (h : Shows store id task) : BeforeWrite (.fail id result) store
        (.call .clock fun reading => .call (.save id (failedFields task reading result.val))
          (TaskLedger.returning id))
  | saving {id : String} {result : NormalJson} {store : Database} {task : Fields}
      (h : Shows store id task) (reading : String) : BeforeWrite (.fail id result) store
        (.call (.save id (failedFields task reading result.val)) (TaskLedger.returning id))

inductive AfterWrite : TaskLedger.TaskProgram → Prop
  | returning (taskId : String) : AfterWrite (.call (.fetch taskId) .done)
  | done (task : Fields) : AfterWrite (.done (.ok task))

/-- What another call writes keeps a call before its own write where it is. -/
theorem BeforeWrite.kept {call : TaskCall} {program : TaskLedger.TaskProgram}
    (h : BeforeWrite call db program) (hKeeps : KeepsFixed db after) :
    BeforeWrite call after program := by
  cases h with
  | start h => exact .start h
  | finishing reading => exact .finishing reading
  | blocking reading => exact .blocking reading
  | failing h => exact .failing (h.kept hKeeps)
  | saving h reading => exact .saving (h.kept hKeeps) reading

/-- A transaction that the moment lets through, or that leaves all as it was. -/
theorem submit_cases (m : Moment) (db : Database) (txn : Py (Unit × Database)) :
    (∃ e, submit db (m.guarded txn) = (.error e, db)) ∨
      ∃ after, txn = .ok ((), after) ∧ submit db (m.guarded txn) = (.ok (), after) := by
  unfold Moment.guarded
  cases m.fault with
  | some e => exact .inl ⟨e, rfl⟩
  | none =>
      cases txn with
      | error e => exact .inl ⟨e, rfl⟩
      | ok r => exact .inr ⟨r.2, rfl, rfl⟩

/-- The end of a task keeps the tasks settled, and what is fixed of them. -/
theorem commitEnd_settled {now kind status finishedAt : String} {result : Json}
    {extra : List (String × Json)} (hSettled : SettledTasks p (db.tables .tasks))
    (h : commitEnd p now db taskId kind status finishedAt result extra = .ok ((), after)) :
    SettledTasks p (after.tables .tasks) ∧ KeepsFixed db after := by
  simp only [commitEnd, bind_eq_ok, pure_eq_ok, Prod.mk.injEq, true_and] at h
  obtain ⟨row, -, ⟨event, mid⟩, hRecord, _, hUpdate, rfl⟩ := h
  obtain ⟨e, -, -, -, -, rfl⟩ := recordEvent_appends hRecord
  refine @updateTask_settled p (db.logged e) _ taskId hSettled _ event rfl ?_ ?_ hUpdate
  · intro row _ name hName
    simp only [fixedColumns, List.mem_cons, List.not_mem_nil, or_false] at hName
    rcases hName with rfl | rfl | rfl | rfl <;> exact .inl rfl
  · intro j hj
    exact .inr ⟨_, (Option.some.inj hj).symm⟩

/-- The save of a failure keeps the tasks settled, and what is fixed of them. -/
theorem commitSave_settled {now : String} (hSettled : SettledTasks p (db.tables .tasks))
    (hShows : Shows db taskId task)
    (h : commitSaveTask p now db taskId (failedFields task reading result.val) = .ok ((), after)) :
    SettledTasks p (after.tables .tasks) ∧ KeepsFixed db after := by
  obtain ⟨row, hStored, hFields⟩ := hShows.row
  rw [commitSaveTask_failed hStored hFields (hSettled.fixed row (mem_of_storedTask hStored))] at h
  simp only [bind_eq_ok, pure_eq_ok, Prod.mk.injEq, true_and] at h
  obtain ⟨⟨event, mid⟩, hRecord, _, hUpdate, rfl⟩ := h
  obtain ⟨e, -, -, -, -, rfl⟩ := recordEvent_appends hRecord
  refine @updateTask_settled p (db.logged e) _ taskId hSettled _ event rfl ?_ ?_ hUpdate
  · intro found hFound name hName
    obtain rfl : row = found := Except.ok.inj (hStored.symm.trans hFound)
    simp only [fixedColumns, List.mem_cons, List.not_mem_nil, or_false] at hName
    rcases hName with rfl | rfl | rfl | rfl <;> exact .inr rfl
  · intro j hj
    obtain rfl : savedResult (redactPayload p.alnum result.val) = j := Option.some.inj hj
    cases redactPayload p.alnum result.val with
    | null => exact .inl rfl
    | _ => exact .inr ⟨_, rfl⟩

end Calls

section Linear

variable {p : Platform} {call : TaskCall} {db after : Database} {request : TaskRequest}
  {next : TaskReply request → TaskLedger.TaskProgram}

/-- What a step of a call does: it keeps what is fixed; without a write it leaves all that is
compared, and a write has the effect of the whole call. -/
def StepsRight (p : Platform) (call : TaskCall) (db : Database) (program : TaskLedger.TaskProgram)
    (written : Option String) (after : Database) : Prop :=
  SettledTasks p (after.tables .tasks) ∧ KeepsFixed db after ∧
    (written = none → (∀ t, SameTasks p.engine db t → SameTasks p.engine after t) ∧
      (BeforeWrite call after program ∨ ∃ a, (∃ e, a = .error e) ∧ program = .done a)) ∧
    ∀ reading, written = some reading →
      (∀ t, SameTasks p.engine db t → SameTasks p.engine after (call.alone p reading t)) ∧
        AfterWrite program

/-- A step that reads has no effect. -/
theorem steps_read {program : TaskLedger.TaskProgram} (hSettled : SettledTasks p (db.tables .tasks))
    (hNext : BeforeWrite call db program ∨ ∃ a, (∃ e, a = .error e) ∧ program = .done a) :
    StepsRight p call db program none db := by
  refine ⟨hSettled, rfl, fun _ => ⟨fun _ h => h, hNext⟩, ?_⟩
  intro reading h
  cases h

/-- A transaction either fails, with its call, or has the effect of the call. -/
theorem steps_write {m : Moment} {taskId reading : String} {txn : Py (Unit × Database)}
    (hSettled : SettledTasks p (db.tables .tasks))
    (hCommit : ∀ after, txn = .ok ((), after) →
      (SettledTasks p (after.tables .tasks) ∧ KeepsFixed db after) ∧
        ∀ t, SameTasks p.engine db t → SameTasks p.engine after (call.alone p reading t))
    {written : Py Unit → Option String} (hError : ∀ e, written (.error e) = none)
    (hOk : written (.ok ()) = some reading) :
    StepsRight p call db (TaskLedger.returning taskId (submit db (m.guarded txn)).1)
      (written (submit db (m.guarded txn)).1) (submit db (m.guarded txn)).2 := by
  rcases submit_cases m db txn with ⟨e, hFails⟩ | ⟨after, hTxn, hCommits⟩
  · rw [hFails, hError]
    exact steps_read hSettled (.inr ⟨_, ⟨e, rfl⟩, rfl⟩)
  · obtain ⟨hKept, hSame⟩ := hCommit after hTxn
    rw [hCommits, hOk]
    refine ⟨hKept.1, hKept.2, ?_, ?_⟩
    · intro h
      cases h
    · intro k hk
      obtain rfl := Option.some.inj hk
      exact ⟨hSame, .returning taskId⟩

/-- A task that was read is the one that the row shows. -/
theorem shows_of_getTask {taskId : String} {task : Fields}
    (hSettled : SettledTasks p (db.tables .tasks)) (h : getTask db taskId = .ok task) :
    Shows db taskId task := by
  have hRead := h
  rw [getTask, bind_eq_ok] at hRead
  obtain ⟨row, hStored, -⟩ := hRead
  obtain ⟨shown, hShown, hShows⟩ := getTask_shows hSettled hStored
  obtain rfl : shown = task := Except.ok.inj (hShown.symm.trans h)
  exact hShows

/-- A row that shows a task is found. -/
theorem storedTask_of_shows {taskId : String} {task : Fields} (h : Shows db taskId task) :
    ∃ row, storedTask db taskId = .ok row := by
  obtain ⟨row, hStored, -⟩ := h.row
  exact ⟨row, hStored⟩

/-- The save of a stale read has the effect of a call that reads now. -/
theorem fail_same (hEngine : p.engine.ReadsPath) (hSettled : SettledTasks p (db.tables .tasks))
    {now taskId reading : String} {task : Fields} {result : NormalJson} (hShows : Shows db taskId task)
    (hCommit : commitSaveTask p now db taskId (failedFields task reading result.val) =
      .ok ((), after)) {t : Database} (h : SameTasks p.engine db t) :
    SameTasks p.engine after (TaskCall.alone p (.fail taskId result) reading t) := by
  obtain ⟨row, hStored⟩ := storedTask_of_shows hShows
  obtain ⟨task', hRead, hShows'⟩ :=
    getTask_shows (h.tasks ▸ hSettled) ((storedTask_same h).trans hStored)
  obtain ⟨after', hCommit', hAfter⟩ :=
    @commitSave_same p now reading _ _ _ _ _ _ _ _ hEngine hSettled h result.property hShows hShows' hCommit
  rw [fail_alone hRead hCommit']
  exact hAfter

/-- A call that has not written reads, or has its whole effect in this step. -/
theorem beforeWrite_step (hEngine : p.engine.ReadsPath) (m : Moment)
    (hSettled : SettledTasks p (db.tables .tasks))
    (h : BeforeWrite call db (.call request next)) :
    StepsRight p call db (next (answerTask p m db request).1)
      (request.committed (answerTask p m db request).1) (answerTask p m db request).2 := by
  generalize hProgram : Program.call request next = program at h
  cases h with
  | start hEnds =>
      cases call with
      | begin key kind phase role => cases hEnds
      | finish taskId result =>
          cases hProgram
          exact steps_read hSettled (.inl (.finishing m.now))
      | blockHuman taskId reason =>
          cases hProgram
          exact steps_read hSettled (.inl (.blocking m.now))
      | fail taskId result =>
          cases hProgram
          cases hRead : m.guarded (getTask db taskId) with
          | error e =>
              have hAnswer : answerTask p m db (.fetch taskId) = (.error e, db) := by
                rw [answerTask, hRead]
              rw [hAnswer]
              exact steps_read hSettled (.inr ⟨_, ⟨e, rfl⟩, rfl⟩)
          | ok task =>
              have hAnswer : answerTask p m db (.fetch taskId) = (.ok task, db) := by
                rw [answerTask, hRead]
              rw [hAnswer]
              exact steps_read hSettled
                (.inl (.failing (shows_of_getTask hSettled (guarded_eq_ok hRead))))
  | @finishing taskId result _ reading =>
      cases hProgram
      refine @steps_write p _ db m taskId reading _ hSettled (fun after hCommit => ?_) _
        (fun _ => rfl) rfl
      refine ⟨commitEnd_settled hSettled hCommit, fun t h => ?_⟩
      obtain ⟨after', hCommit', hAfter⟩ := @commitEnd_same p m.now reading _ _ _ _ _ _ hEngine h _ _ _
        (redactPayload_normal result.property) (by simp) hCommit
      rw [finish_alone hCommit']
      exact hAfter
  | @blocking taskId reason _ reading =>
      cases hProgram
      refine @steps_write p _ db m taskId reading _ hSettled (fun after hCommit => ?_) _
        (fun _ => rfl) rfl
      refine ⟨commitEnd_settled hSettled hCommit, fun t h => ?_⟩
      obtain ⟨after', hCommit', hAfter⟩ := @commitEnd_same p m.now reading _ _ _ _ _ _ hEngine h _ _ _
        (normal_dictOf (by simp [Json.Normal])) (by simp [Json.Normal]) hCommit
      rw [blockHuman_alone hCommit']
      exact hAfter
  | failing hShows =>
      cases hProgram
      exact steps_read hSettled (.inl (.saving hShows m.now))
  | @saving taskId result _ task hShows reading =>
      cases hProgram
      refine @steps_write p _ db m taskId reading _ hSettled (fun after hCommit => ?_)
        (TaskRequest.committed (.save taskId (failedFields task reading result.val)))
        (fun _ => rfl) ?_
      · exact ⟨commitSave_settled hSettled hShows hCommit,
          fun t h => fail_same hEngine hSettled hShows hCommit h⟩
      · rw [TaskRequest.committed, fieldOf, failedFields, updateFields, getField?_foldl]
        rfl

/-- A call that has written has no effect left. -/
theorem afterWrite_step (m : Moment) (hSettled : SettledTasks p (db.tables .tasks))
    (h : AfterWrite (.call request next)) :
    SettledTasks p ((answerTask p m db request).2.tables .tasks) ∧
      KeepsFixed db (answerTask p m db request).2 ∧
      request.committed (answerTask p m db request).1 = none ∧
      (∀ t, SameTasks p.engine db t → SameTasks p.engine (answerTask p m db request).2 t) ∧
      (AfterWrite (next (answerTask p m db request).1) ∨
        ∃ a, (∃ e, a = .error e) ∧ next (answerTask p m db request).1 = .done a) := by
  cases h with
  | returning taskId =>
      refine ⟨hSettled, rfl, rfl, fun _ h => h, ?_⟩
      cases hRead : (answerTask p m db (.fetch taskId)).1 with
      | error e => exact .inr ⟨_, ⟨e, rfl⟩, rfl⟩
      | ok task => exact .inl (.done task)

theorem not_beforeWrite_done {a : Py Fields} : ¬ BeforeWrite call db (.done a) := by
  intro h
  generalize hProgram : Program.done a = program at h
  cases h with
  | start hEnds =>
      cases call with
      | begin key kind phase role => cases hEnds
      | _ => cases hProgram
  | _ => cases hProgram

/-- The calls that end tasks write once, and all of their effect is in that write. -/
def taskOutcomes (p : Platform) (hEngine : p.engine.ReadsPath) :
    Linearizable (answerTask p) TaskRequest.committed (TaskCall.alone p) (α := Py Fields) where
  good db := SettledTasks p (db.tables .tasks)
  rely := KeepsFixed
  same := SameTasks p.engine
  before := BeforeWrite
  after := AfterWrite
  failed result := ∃ e, result = .error e
  stable := BeforeWrite.kept
  before_calls := not_beforeWrite_done
  before_step m hSettled h := beforeWrite_step hEngine m hSettled h
  after_step m hSettled h := afterWrite_step m hSettled h

/-- The calls that end tasks, on any store and in any interleaving in which all of them
return: the tasks are what running the calls one after another leaves, in the order of their
writes and each with its own clock reading. -/
theorem outcomes_linearise (p : Platform) (hEngine : p.engine.ReadsPath) (db : SettledStore p)
    (calls : List TaskCall) (hEnds : ∀ call ∈ calls, call.ends = true)
    (moves : List (Nat × Moment))
    (hReturned : ∀ t ∈ ((Ledger.start db.val calls).run (answerTask p) moves).threads,
      ∃ task, t.2 = .done (.ok task)) :
    let order := (Ledger.start db.val calls).commits (answerTask p) TaskRequest.committed moves
    (order.map (·.1)).Perm (List.range calls.length) ∧
      ((Ledger.start db.val calls).run (answerTask p) moves).store.tables .tasks =
        (serially (TaskCall.alone p) calls db.val order).tables .tasks := by
  intro order
  have hStart : Linearized (taskOutcomes p hEngine)
      ((calls.map fun call => (call, call.program)).map (·.1)) db.val [] (Ledger.start db.val calls) := by
    refine linearized_start db.property (.refl _ _) fun t ht => ?_
    obtain ⟨call, hCall, rfl⟩ := List.mem_map.mp ht
    exact .start (hEnds call hCall)
  have hLabels : (calls.map fun call => (call, call.program)).map (·.1) = calls := by
    rw [List.map_map]
    exact List.map_id _
  rw [hLabels] at hStart
  have hEnd := hStart.run moves
  refine ⟨hEnd.complete fun t ht => ?_, hEnd.same.tasks.symm⟩
  obtain ⟨task, hTask⟩ := hReturned t ht
  refine ⟨.ok task, ?_, hTask⟩
  rintro ⟨e, he⟩
  cases he

end Linear

section Sample

def ledgerPlatform : Platform := ⟨Engine.strict, fun _ => false, .digesting fun _ => "", []⟩

def dispatchedEvent : Event :=
  ⟨1, .text "n", .text "task_dispatched", .text "task", .text "T",
    .text (Json.obj (dispatchedPayload "T" "k" "s" "p" "w" "n")).dumps⟩

def dispatchedTask : GuardedRow :=
  ⟨[("id", .text "T"), ("idempotency_key", .text "k"), ("phase", .text "p"), ("role", .text "w"),
    ("status", .text "dispatched"), ("started_at", .text "n"), ("finished_at", .null),
    ("result", .null)], .int 1⟩

def dispatchedDatabase : Database :=
  { Database.empty with
    events := [dispatchedEvent]
    tables := Function.update Database.empty.tables .tasks [dispatchedTask] }

theorem dispatchedDatabase_settled :
    SettledTasks ledgerPlatform (dispatchedDatabase.tables .tasks) := by
  have hRows : dispatchedDatabase.tables .tasks = [dispatchedTask] := by
    simp [dispatchedDatabase]
  have hSame : ["k", "p", "w", "n"].all (fun s => redact ledgerPlatform.alnum s = s) = true := by
    decide
  have hText : ∀ s ∈ ["k", "p", "w", "n"], Settled ledgerPlatform (.text s) := fun s hs =>
    .inr ⟨s, rfl, of_decide_eq_true (List.all_eq_true.mp hSame s hs)⟩
  rw [hRows]
  constructor
  · intro row hRow name hName
    obtain rfl := List.mem_singleton.mp hRow
    simp only [fixedColumns, List.mem_cons, List.not_mem_nil, or_false] at hName
    rcases hName with rfl | rfl | rfl | rfl
    · exact hText "k" (by simp)
    · exact hText "p" (by simp)
    · exact hText "w" (by simp)
    · exact hText "n" (by simp)
  · intro row hRow
    obtain rfl := List.mem_singleton.mp hRow
    exact .inl rfl

def dispatchedStore : SettledStore ledgerPlatform := ⟨dispatchedDatabase, dispatchedDatabase_settled⟩

/-- A task that is finished after its failure was read and before it is written. -/
def overtakenCalls : List TaskCall :=
  [.fail "T" ⟨.str "x", trivial⟩, .finish "T" ⟨.int 3, trivial⟩]

def overtakenMoves : List (Nat × Moment) :=
  [(0, ⟨"a", none⟩), (0, ⟨"b", none⟩), (1, ⟨"c", none⟩), (1, ⟨"d", none⟩), (0, ⟨"e", none⟩),
    (0, ⟨"f", none⟩), (1, ⟨"g", none⟩)]

def returnedTask : TaskLedger.TaskProgram → Bool
  | .done (.ok _) => true
  | _ => false

theorem overtaken_returned :
    ((Ledger.start dispatchedStore.val overtakenCalls).run (answerTask ledgerPlatform)
      overtakenMoves).threads.all (fun t => returnedTask t.2) = true := by
  change ((Ledger.start dispatchedDatabase overtakenCalls).run (answerTask
    ⟨Engine.strict, _, _, _⟩) overtakenMoves).threads.all (fun t => returnedTask t.2) = true
  rw [Engine.strict_eq_encoded]
  decide +kernel

theorem overtaken_linearise :
    (((Ledger.start dispatchedStore.val overtakenCalls).commits (answerTask ledgerPlatform)
        TaskRequest.committed overtakenMoves).map (·.1)).Perm (List.range overtakenCalls.length) ∧
      ((Ledger.start dispatchedStore.val overtakenCalls).run (answerTask ledgerPlatform)
        overtakenMoves).store.tables .tasks =
        (serially (TaskCall.alone ledgerPlatform) overtakenCalls dispatchedStore.val
          ((Ledger.start dispatchedStore.val overtakenCalls).commits (answerTask ledgerPlatform)
            TaskRequest.committed overtakenMoves)).tables .tasks := by
  have hReturned : ∀ t ∈ ((Ledger.start dispatchedStore.val overtakenCalls).run
      (answerTask ledgerPlatform) overtakenMoves).threads, ∃ task, t.2 = .done (.ok task) := by
    intro t ht
    have hTask := List.all_eq_true.mp overtaken_returned t ht
    unfold returnedTask at hTask
    split at hTask
    · rename_i task hProgram
      exact ⟨task, hProgram⟩
    · cases hTask
  have hEnds : ∀ call ∈ overtakenCalls, call.ends = true := by simp [overtakenCalls, TaskCall.ends]
  exact outcomes_linearise ledgerPlatform Engine.strict_readsPath
    dispatchedStore overtakenCalls hEnds overtakenMoves hReturned

end Sample
end L0vi0x.Core.Store
