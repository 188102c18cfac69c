import L0vi0x.Core.FreshIds
import L0vi0x.Core.Operations
import L0vi0x.Core.TaskOutcomes

/-! Whole runs of the store. Calls on hypotheses, steps of the task ledger and saves of the
other entities come in any order; the tables of entities follow the event log, and a read of
an entity gives what was last saved. -/
namespace L0vi0x.Core.Store

open L0vi0x.Python L0vi0x.Sql L0vi0x.Core.Redaction

/-- An entity that a save does not take for a hypothesis. -/
abbrev OtherEntity := { entity : String // namesHypothesis entity = false }

/-- One access of the store. The saves of hypotheses are calls on hypotheses. -/
inductive Use
  | plain (access : Access)
  | save (entity : OtherEntity) (id : String) (payload : NormalFields)

namespace Use

def perform (p : EntityPlatform) (m : Moment) (s : System) : Use → System
  | .plain access => access.perform p.toPlatform m s
  | .save entity id payload => match m.fault with
      | some _ => s
      | none => { s with db := (saveEntity p m.now s.db entity.val id payload).2 }

/-- Events that are recorded by hand are about entities without a table. -/
def Foreign : Use → Prop
  | .plain (.hypothesis (.record entity _ _)) =>
      ∀ table : MutableTable, entity.val ≠ table.canonical
  | _ => True

/-- What a save that returns has written, with its table and id. -/
def saved (p : EntityPlatform) (m : Moment) (s : System) : Use → Option (MutableTable × String × Json)
  | .plain _ => none
  | .save entity id payload =>
      match m.fault, MutableTable.ofAlias (lower (strip entity.val)),
        (saveEntity p m.now s.db entity.val id payload).1 with
      | none, some table, .ok value => some (table, id, value)
      | _, _, _ => none

/-- The save of one access, where it is one of the table. -/
def savesOf (p : EntityPlatform) (table : MutableTable) (m : Moment) (s : System) (use : Use) :
    List (String × Json) :=
  match use.saved p m s with
  | some (written, entry) => if written = table then [entry] else []
  | none => []

end Use

def used (p : EntityPlatform) (s : System) (history : List (Moment × Use)) : System :=
  history.foldl (fun s use => use.2.perform p use.1 s) s

/-- The saves of a table in a history, in their order. -/
def saves (p : EntityPlatform) (table : MutableTable) :
    System → List (Moment × Use) → List (String × Json)
  | _, [] => []
  | s, use :: rest =>
      use.2.savesOf p table use.1 s ++ saves p table (use.2.perform p use.1 s) rest

/-- The events of the entities of a table, by id. -/
def entityLog (table : MutableTable) (events : List Event) : List (String × Event) :=
  events.filterMap fun e =>
    if e.entity = .text table.canonical then
      match e.entityId with
      | .text id => some (id, e)
      | _ => none
    else none

section Steps

variable {p : EntityPlatform} {now id : String} {db db' : Database}

/-- The tables of entities are as before, and no event of theirs is new. -/
def Apart (db db' : Database) : Prop :=
  db'.tables = db.tables ∧ ∃ more, db'.events = db.events ++ more ∧
    ∀ e ∈ more, ∀ table : MutableTable, e.entity ≠ .text table.canonical

/-- A step that leaves the tables and the log is apart. -/
theorem Apart.of_same (hTables : db'.tables = db.tables) (hEvents : db'.events = db.events) :
    Apart db db' := ⟨hTables, [], by simpa using hEvents, by simp⟩

theorem Apart.refl (db : Database) : Apart db db := .of_same rfl rfl

/-- A task step that keeps the tables of entities is apart. -/
theorem SameTables.apart (h : SameTables db db') : Apart db db' := .of_same h.tables h.events

theorem hypothesis_ne_canonical (table : MutableTable) : "hypothesis" ≠ table.canonical := by
  cases table <;> decide

/-- New events that are all of hypotheses leave the entities apart. -/
theorem apart_of_hypothesis {more : List Event} (hTables : db'.tables = db.tables)
    (hEvents : db'.events = db.events ++ more)
    (hMore : ∀ e ∈ more, e.entity = .text "hypothesis") : Apart db db' := by
  refine ⟨hTables, more, hEvents, fun e he table hEntity => ?_⟩
  rw [hMore e he, Value.text.injEq] at hEntity
  exact hypothesis_ne_canonical table hEntity

/-- A creation of a hypothesis touches no other entity. -/
theorem createHypothesis_apart (payload : NormalFields) (entityId : Option String) :
    Apart db (createHypothesis p.toPlatform now db payload entityId).2 := by
  cases hCall : createHypothesis p.toPlatform now db payload entityId with
  | mk result db' =>
      cases result with
      | error e =>
          have hSame := createHypothesis_raised hCall
          exact hSame.apart
      | ok data =>
          obtain ⟨e, hNew, hEvents, hTables, -⟩ := createHypothesis_wrote hCall
          exact apart_of_hypothesis hTables hEvents (by simp [hNew.entity])

/-- The save of a hypothesis touches no other entity. -/
theorem commitSave_apart {cause : String} {evidence : List Json} {data : Fields} :
    Apart db (submit db (commitSave p.toPlatform now db id cause evidence data)).2 := by
  cases hTxn : commitSave p.toPlatform now db id cause evidence data with
  | error e => exact .refl db
  | ok r =>
      obtain ⟨result, db'⟩ := r
      obtain ⟨-, bound, -, hRewrites⟩ := commitSave_eq_ok hTxn
      have hTables := (commitSave_frame hTxn).tables
      have hEvents : db'.events = db.events ++ [newEvent p.toPlatform now db id "hyp_updated"
          (updatedPayload cause evidence data)] := by
        cases hRewrites <;> rfl
      exact apart_of_hypothesis hTables hEvents (by simp [newEvent])

theorem transition_apart (token : Option DriverToken) (h : HypothesisRecord) (newState : HState)
    (cause : String) (evidence : List String) :
    Apart db (transitionHypothesis p.toPlatform now db token h newState cause evidence).2 := by
  rw [transitionHypothesis]
  split
  · exact .refl db
  · cases hTxn : commitTransition p.toPlatform now db h newState cause evidence with
    | error e => exact .refl db
    | ok r =>
        obtain ⟨result, db'⟩ := r
        obtain ⟨-, e, more, hNew, hEvents, hMore, hTables, -⟩ := commitTransition_wrote hTxn
        refine apart_of_hypothesis hTables hEvents fun other hOther => ?_
        rcases List.mem_cons.mp hOther with rfl | hOther
        · exact hNew.entity
        · split at hMore
          · obtain ⟨alarm, rfl, hAlarm⟩ := hMore
            rw [List.mem_singleton.mp hOther]
            exact hAlarm.entity
          · rw [hMore] at hOther
            cases hOther

theorem award_apart (token : Option DriverToken) (h : HypothesisRecord) (proof : LadderProof) :
    Apart db (awardLadder p.toPlatform now db token h proof).2 := by
  rw [awardLadder]
  split
  · exact .refl db
  · rename_i candidate hAward
    cases hTxn : commitAward p.toPlatform now db candidate proof with
    | error e => exact .refl db
    | ok r =>
        obtain ⟨result, db'⟩ := r
        obtain ⟨-, e, hNew, hEvents, hTables, -⟩ := commitAward_wrote hTxn
        exact apart_of_hypothesis hTables hEvents (by simp [hNew.entity])
  · exact .refl db

/-- A call on hypotheses touches no other table. -/
theorem step_apart {s : System} {call : Call} (hForeign : (Use.plain (.hypothesis call)).Foreign) :
    Apart s.db (step p.toPlatform now s call).db := by
  cases call with
  | create payload entityId => exact createHypothesis_apart payload entityId
  | saveRead hid payload =>
      rw [step]
      split <;> exact .refl s.db
  | saveCommit i =>
      rw [step]
      split
      · rename_i save hAt
        cases hPlan : save.plan with
        | create payload =>
            have hApart := @createHypothesis_apart p now s.db payload (some save.hid)
            simpa only [hPlan, runPlan] using hApart
        | unchanged value => exact .refl s.db
        | update cause evidence data =>
            have hApart := @commitSave_apart p now save.hid s.db cause evidence data
            simpa only [hPlan, runPlan] using hApart
      · exact .refl s.db
  | transition token h newState cause evidence =>
      exact transition_apart token h newState cause evidence
  | award token h proof => exact award_apart token h proof
  | record entity entityId payload =>
      rw [step]
      split
      · rename_i event db' hRecord
        obtain ⟨kind, -, rfl⟩ := recordEvent_entity hRecord
        refine ⟨rfl, _, rfl, fun e he table hEntity => hForeign table ?_⟩
        rw [List.mem_singleton.mp he] at hEntity
        exact Value.text.inj hEntity
      · exact .refl s.db

/-- A step of the task ledger writes one task, or touches no table. -/
theorem answerTask_writes (m : Moment) (request : TaskRequest) :
    Apart db (answerTask p.toPlatform m db request).2 ∨
      ∃ id, EntityWritten p db .tasks id (answerTask p.toPlatform m db request).2 := by
  have hSubmit : ∀ {id : String} {txn : Py (Unit × Database)},
      (∀ u db', txn = .ok (u, db') → TaskWritten p db id db') →
      Apart db (submit db (m.guarded txn)).2 ∨
        ∃ id, EntityWritten p db .tasks id (submit db (m.guarded txn)).2 := by
    intro id txn hTxn
    rcases submit_cases m db txn with ⟨e, hFails⟩ | ⟨after, hOk, hCommits⟩
    · rw [hFails]
      exact .inl (.refl db)
    · rw [hCommits]
      exact .inr ⟨id, (hTxn () after hOk).written⟩
  cases request with
  | clock => exact .inl (.refl db)
  | findByKey key => exact .inl (.refl db)
  | fetch taskId => exact .inl (.refl db)
  | nextId =>
      left
      rw [answerTask, Moment.guarded]
      cases m.fault <;> exact .of_same rfl rfl
  | dispatch taskId key kind phase role startedAt =>
      exact hSubmit fun _ _ h => commitDispatch_written h
  | finish taskId result finishedAt => exact hSubmit fun _ _ h => commitEnd_written h
  | block taskId reason finishedAt => exact hSubmit fun _ _ h => commitEnd_written h
  | save taskId payload => exact hSubmit fun _ _ h => commitSaveTask_written h

/-- A save writes one entity, or touches no table. -/
theorem saveEntity_writes (entity : String) (payload : NormalFields) :
    Apart db (saveEntity p now db entity id payload).2 ∨
      ∃ table, EntityWritten p db table id (saveEntity p now db entity id payload).2 := by
  rcases @saveEntity_cases p now id db entity payload with ⟨e, hRaised⟩ |
    ⟨table, value, db', -, hReturned, hWritten⟩
  · rw [hRaised]
    exact .inl (.refl db)
  · rw [hReturned]
    exact .inr ⟨table, hWritten⟩

/-- One access writes one entity, or touches no table of entities. -/
theorem Use.writes {s : System} {use : Use} (m : Moment) (hForeign : use.Foreign) :
    Apart s.db (use.perform p m s).db ∨
      ∃ table id, EntityWritten p s.db table id (use.perform p m s).db := by
  cases use with
  | plain access =>
      cases access with
      | hypothesis call => exact .inl (step_apart hForeign)
      | task request =>
          rcases @answerTask_writes p s.db m request with hApart | ⟨id, hWritten⟩
          · exact .inl hApart
          · exact .inr ⟨.tasks, id, hWritten⟩
      | next start => exact .inl (.of_same rfl rfl)
  | save entity id payload =>
      cases hFault : m.fault with
      | some e =>
          simp only [Use.perform, hFault]
          exact .inl (.refl s.db)
      | none =>
          have hSave := @saveEntity_writes p m.now id s.db entity.val payload
          simp only [Use.perform, hFault]
          rcases hSave with hApart | ⟨table, hWritten⟩
          · exact .inl hApart
          · exact .inr ⟨table, id, hWritten⟩

end Steps

section Log

variable {p : EntityPlatform} {id : String} {db db' : Database}

theorem canonical_injective {table other : MutableTable} (h : table.canonical = other.canonical) :
    table = other := by
  revert h
  cases table <;> cases other <;> decide

theorem entityLog_append (table : MutableTable) (events more : List Event) :
    entityLog table (events ++ more) = entityLog table events ++ entityLog table more :=
  List.filterMap_append

/-- Events of other entities are not in the log of a table. -/
theorem entityLog_other {table : MutableTable} {more : List Event}
    (h : ∀ e ∈ more, e.entity ≠ .text table.canonical) : entityLog table more = [] := by
  rw [entityLog, List.filterMap_eq_nil_iff]
  intro e he
  rw [if_neg (h e he)]

/-- An event of the table is in its log, under its id. -/
theorem entityLog_own {table : MutableTable} {e : Event} (hEntity : e.entity = .text table.canonical)
    (hId : e.entityId = .text id) : entityLog table [e] = [(id, e)] := by
  simp [entityLog, hEntity, hId]

/-- The row of an entity that is written is linked to the one new event. -/
theorem EntityWritten.linked {table : MutableTable} (h : EntityWritten p db table id db') :
    ∃ e new rows, NewEvent db.events table.canonical id e ∧
      db' = (db.logged e).wrote table rows ∧
      OneRow (rowKey table) id new (db.tables table) rows ∧ Linked p.engine table new e := by
  obtain ⟨e, bound, hNew, hBound, hWrites⟩ := h
  obtain ⟨new, rows, hWrote, hRow, hEvent, ⟨backing, hMem, hLinked⟩, -⟩ := hWrites.written hBound
  have hSame : e.id = backing.id := by
    rw [hLinked.event, Value.int.injEq] at hEvent
    exact hEvent.symm
  have hIs : backing = e := by
    rcases List.mem_append.mp hMem with hOld | hLast
    · have hLt := hNew.fresh backing hOld
      omega
    · exact List.mem_singleton.mp hLast
  exact ⟨e, new, rows, hNew, hWrote, hRow, hIs ▸ hLinked⟩

/-- Every table of entities has one row for each id of its events, which is the snapshot of
the last one. -/
def OnLog (p : EntityPlatform) (db : Database) : Prop :=
  ∀ table, Follows (rowKey table) (Linked p.engine table) (db.tables table)
    (entityLog table db.events)

theorem onLog_empty : OnLog p Database.empty := fun _ => follows_nil

/-- A step that is apart keeps the tables on the log. -/
theorem OnLog.apart (h : OnLog p db) (hApart : Apart db db') : OnLog p db' := by
  obtain ⟨hTables, more, hEvents, hMore⟩ := hApart
  intro table
  rw [hTables, hEvents, entityLog_append, entityLog_other fun e he => hMore e he table,
    List.append_nil]
  exact h table

/-- A save moves its row and the log together. -/
theorem OnLog.written {table : MutableTable} (h : OnLog p db)
    (hWritten : EntityWritten p db table id db') : OnLog p db' := by
  obtain ⟨e, new, rows, hNew, rfl, hRow, hLinked⟩ := hWritten.linked
  intro other
  change Follows _ _ _ (entityLog other (db.events ++ [e]))
  rw [entityLog_append]
  by_cases hTable : other = table
  · subst hTable
    rw [wrote_table, entityLog_own hNew.entity hNew.entityId]
    exact (h other).write hRow hLinked
  · have hOther : e.entity ≠ .text other.canonical := by
      rw [hNew.entity]
      intro hSame
      exact hTable (canonical_injective (Value.text.inj hSame)).symm
    have hTables : ((db.logged e).wrote table rows).tables other = db.tables other :=
      wrote_other _ _ hTable
    have hNone : entityLog other [e] = [] := entityLog_other (by simpa using hOther)
    rw [hTables, hNone, List.append_nil]
    exact h other

/-- Every history of accesses keeps the tables on the log. -/
theorem OnLog.used {s : System} (h : OnLog p s.db) (history : List (Moment × Use))
    (hForeign : ∀ use ∈ history, use.2.Foreign) : OnLog p (Store.used p s history).db := by
  induction history generalizing s with
  | nil => exact h
  | cons use rest ih =>
      obtain ⟨hUse, hRest⟩ := List.forall_mem_cons.mp hForeign
      refine ih ?_ hRest
      rcases Use.writes use.1 hUse with hApart | ⟨table, id, hWritten⟩
      · exact h.apart hApart
      · exact h.written hWritten

/-- After any history of accesses, in which no event of an entity with a table was recorded by
hand, the tables of entities are what the event log says: there is a row for an id if and only
if there is an event of that entity and id, the rows have distinct ids, and each is linked to
the last event of its id, whose snapshot it is. -/
theorem tables_follow_events (p : EntityPlatform) (history : List (Moment × Use))
    (hForeign : ∀ use ∈ history, use.2.Foreign) (table : MutableTable) :
    let db := (used p System.empty history).db
    Follows (rowKey table) (Linked p.engine table) (db.tables table) (entityLog table db.events) :=
  onLog_empty.used history hForeign table

end Log

section Reads

variable {p : EntityPlatform} {now id : String} {db db' : Database} {table : MutableTable}

theorem affinity_body (table : MutableTable) : table.affinity "body" = .text := by
  cases table <;> rfl

/-- The body of an entity goes into its row. -/
theorem mem_entityColumns {data : Fields} {body : String} {columns : List (String × Json)}
    (hBody : table.hasBody = true) (h : entityColumns table data body = .ok columns) :
    ("body", .str body) ∈ columns := by
  cases table with
  | certificates =>
      obtain ⟨front, -, h⟩ := bind_eq_ok.mp h
      obtain ⟨back, -, h⟩ := bind_eq_ok.mp h
      rw [← pure_eq_ok.mp h]
      simp
  | obligations => cases hBody
  | tasks => cases hBody
  | humanReviews => cases hBody
  | budgetReservations => cases hBody
  | _ =>
      rw [← pure_eq_ok.mp h]
      simp

theorem mem_bindEntity {columns : List (String × Json)} {bound : List (String × Value)}
    {name text : String} (hMem : (name, .str text) ∈ columns) (hText : table.affinity name = .text)
    (h : bindEntity p table columns = .ok bound) : (name, .text text) ∈ bound := by
  rw [bindEntity, mapM_eq_ok] at h
  obtain ⟨pair, hPair, hBound⟩ := forall₂_exists_left h.flip hMem
  obtain ⟨value, hValue, hStored⟩ := bind_eq_ok.mp hBound
  rw [bind_str.mp hValue, EntityPlatform.stored, hText, p.engine.text_text] at hStored
  rw [pure_eq_ok.mp hStored]
  exact hPair

/-- Where no name is given twice, a column is found under its name. -/
theorem lookup_of_nodup {columns : List (String × Value)} {name : String} {v : Value}
    (hNodup : (columns.map Prod.fst).Nodup) (hMem : (name, v) ∈ columns) :
    columns.lookup name = some v := by
  induction columns with
  | nil => cases hMem
  | cons c rest ih =>
      obtain ⟨k, w⟩ := c
      obtain ⟨hFresh, hRest⟩ := List.nodup_cons.mp hNodup
      rcases List.mem_cons.mp hMem with hHead | hTail
      · cases hHead
        exact List.lookup_cons_self
      · have hNe : (name == k) = false := by
          rw [beq_eq_false_iff_ne]
          rintro rfl
          exact hFresh (List.mem_map.mpr ⟨_, hTail, rfl⟩)
        rw [List.lookup_cons, hNe]
        exact ih hRest hTail

/-- The body column of a whole row that a save has written. -/
theorem savedEntity_body {data : Fields} {body : String} {columns : List (String × Json)}
    {bound : List (String × Value)} {event : Int} (hBody : table.hasBody = true)
    (hColumns : entityColumns table data body = .ok columns)
    (hBound : bindEntity p table columns = .ok bound) :
    (savedEntity table id bound event).column "body" = .text body := by
  have hMem := mem_bindEntity (mem_entityColumns hBody hColumns) (affinity_body table) hBound
  have hNodup := rowColumns_nodup table
  rw [← entityColumns_names hColumns, ← bindEntity_names hBound] at hNodup
  have hWhole : (((table.key, Value.text id) :: bound).map Prod.fst).Nodup := hNodup
  rw [savedEntity, GuardedRow.column,
    lookup_of_nodup hWhole (List.mem_cons_of_mem _ hMem), Option.getD_some]

/-- A row whose body is the text of an object reads as the object. -/
theorem readRow_body {row : GuardedRow} {fields : Fields} (hBody : table.hasBody = true)
    (hNormal : (Json.obj fields).Normal) (hText : row.column "body" = .text (Json.obj fields).dumps) :
    readRow table row = .ok (.obj fields) := by
  have hTruthy : (Json.str (Json.obj fields).dumps).truthy = true := by
    rw [Json.truthy, decide_eq_true_eq]
    intro hEmpty
    have hLoads := Json.loads_dumps hNormal
    rw [hEmpty] at hLoads
    cases hLoads
  rw [readRow, hText]
  simp only [Value.toJson, hBody, hTruthy, Bool.and_self, if_true]
  exact Json.loads_dumps hNormal

/-- The whole rows of a table with bodies show what was last saved. -/
structure Shown (p : EntityPlatform) (table : MutableTable) (db : Database)
    (log : List (String × Json)) : Prop where
  shaped : Shaped table (db.tables table)
  follows : Follows (rowKey table) (fun row value => readRow table row = .ok value)
    (db.tables table) log

theorem shown_empty : Shown p table Database.empty [] := ⟨fun _ h => (by cases h), follows_nil⟩

variable {log : List (String × Json)}

/-- A step that leaves the table leaves what it shows. -/
theorem Shown.same (h : Shown p table db log) (hTable : db'.tables table = db.tables table) :
    Shown p table db' log := by
  constructor
  · rw [hTable]
    exact h.shaped
  · rw [hTable]
    exact h.follows

/-- A save that returns gives back the body that it has committed. -/
theorem saveEntity_eq_ok {entity : String} {payload : NormalFields} {value : Json}
    (hAlias : MutableTable.ofAlias (lower (strip entity)) = some table)
    (h : saveEntity p now db entity id payload = (.ok value, db')) :
    value = .obj (savedBody p id payload.val) ∧
      commitEntity p now db table id payload.val = .ok ((), db') := by
  rw [saveEntity, hAlias] at h
  simp only at h
  cases hTxn : commitEntity p now db table id payload.val with
  | error e =>
      rw [hTxn] at h
      cases h
  | ok r =>
      obtain ⟨u, after⟩ := r
      rw [hTxn, submit] at h
      simp only at h
      rw [savedBody_loads, Prod.mk.injEq, Except.ok.injEq] at h
      obtain ⟨rfl, rfl⟩ := h
      exact ⟨rfl, rfl⟩

theorem saveEntity_error {entity : String} {payload : NormalFields} {e : PyError}
    (h : saveEntity p now db entity id payload = (.error e, db')) : db' = db := by
  rcases @saveEntity_cases p now id db entity payload with ⟨e', hRaised⟩ |
    ⟨_, _, _, -, hReturned, -⟩
  · rw [h, Prod.mk.injEq] at hRaised
    exact hRaised.2
  · rw [h] at hReturned
    cases hReturned

/-- A saved row has the columns of its table, in their order. -/
theorem savedEntity_names {columns : List (String × Json)} {bound : List (String × Value)}
    {event : Int} (hNames : table.key :: columns.map Prod.fst = table.rowColumns)
    (hBound : bindEntity p table columns = .ok bound) :
    (savedEntity table id bound event).columns.map Prod.fst = table.rowColumns := by
  rw [← hNames, ← bindEntity_names hBound]
  rfl

/-- After a save its row shows what the save has returned. -/
theorem Shown.save {payload : NormalFields} (h : Shown p table db log)
    (hBody : table.hasBody = true)
    (hCommit : commitEntity p now db table id payload.val = .ok ((), db')) :
    Shown p table db' (log ++ [(id, .obj (savedBody p id payload.val))]) := by
  obtain ⟨columns, bound, kind, hColumns, hBound, hWrites⟩ := commitEntity_eq_ok hCommit
  have hNames := entityColumns_names hColumns
  have hShape : Shaped table ((db.logged (entityEvent p.toPlatform now db table.canonical id kind
      (entityPayload table (saveOp db table id) id (redactFields p.alnum payload.val)
        columns))).tables table) := h.shaped
  obtain ⟨rows, rfl, hRow⟩ := hWrites.whole hShape hNames hBound
  have hNormal : (Json.obj (savedBody p id payload.val)).Normal := by
    have hId : (Json.str id).Normal := trivial
    exact (redactFields_normal payload.property).setField hId
  have hReads := readRow_body hBody hNormal
    (@savedEntity_body p id table _ _ _ _ (nextEventId db.events) hBody hColumns hBound)
  constructor
  · rw [wrote_table]
    exact hRow.all h.shaped (savedEntity_names hNames hBound)
  · rw [wrote_table]
    exact h.follows.write hRow hReads

/-- Calls on hypotheses leave the tables of entities. -/
theorem step_tables (s : System) (call : Call) :
    (step p.toPlatform now s call).db.tables = s.db.tables := by
  cases hCreates : call.creates s with
  | none => exact (step_updates hCreates).1.tables
  | some created =>
      obtain ⟨payload, entityId⟩ := created
      rw [(step_creates hCreates).1, (createHypothesis_frame payload entityId).tables]
      exact (chooseId_same _ _).tables

/-- A step of the ledger touches the table of tasks alone. -/
theorem answerTask_tables (m : Moment) (request : TaskRequest) (hTable : table ≠ .tasks) :
    (answerTask p.toPlatform m db request).2.tables table = db.tables table := by
  rcases @answerTask_writes p db m request with hApart | ⟨id, hWritten⟩
  · rw [hApart.1]
  · obtain ⟨e, new, rows, -, hAfter, -⟩ := hWritten.linked
    rw [hAfter]
    exact wrote_other _ _ hTable

/-- The table of tasks is the one without a body. -/
theorem tasks_without_body (hBody : table.hasBody = true) : table ≠ .tasks := by
  rintro rfl
  cases hBody

/-- Every access keeps the table showing what was last saved. -/
theorem Shown.perform {s : System} (h : Shown p table s.db log) (hBody : table.hasBody = true)
    (m : Moment) (use : Use) :
    Shown p table (use.perform p m s).db (log ++ use.savesOf p table m s) := by
  cases use with
  | plain access =>
      have hNone : (Use.plain access).savesOf p table m s = [] := rfl
      rw [hNone, List.append_nil]
      refine h.same ?_
      cases access with
      | hypothesis call => exact congrFun (step_tables s call) table
      | task request => exact answerTask_tables m request (tasks_without_body hBody)
      | next start => rfl
  | save entity id payload =>
      cases hFault : m.fault with
      | some e =>
          simp only [Use.savesOf, Use.saved, Use.perform, hFault, List.append_nil]
          exact h
      | none =>
          cases hAlias : MutableTable.ofAlias (lower (strip entity.val)) with
          | none =>
              simp only [Use.savesOf, Use.saved, Use.perform, hFault, hAlias, List.append_nil]
              rw [saveEntity, hAlias]
              exact h
          | some written =>
              cases hSave : saveEntity p m.now s.db entity.val id payload with
              | mk result db' =>
                  cases result with
                  | error e =>
                      simp only [Use.savesOf, Use.saved, Use.perform, hFault, hAlias, hSave,
                        List.append_nil, saveEntity_error hSave]
                      exact h
                  | ok value =>
                      obtain ⟨rfl, hCommit⟩ := saveEntity_eq_ok hAlias hSave
                      simp only [Use.savesOf, Use.saved, Use.perform, hFault, hAlias, hSave]
                      by_cases hTable : written = table
                      · subst hTable
                        rw [if_pos rfl]
                        exact h.save hBody hCommit
                      · obtain ⟨e, new, rows, -, hAfter, -⟩ := (commitEntity_written hCommit).linked
                        rw [if_neg hTable, List.append_nil, hAfter]
                        exact h.same (wrote_other _ _ (Ne.symm hTable))

/-- Every history of accesses keeps the table showing what was last saved. -/
theorem Shown.used {s : System} (h : Shown p table s.db log) (hBody : table.hasBody = true)
    (history : List (Moment × Use)) :
    Shown p table (Store.used p s history).db (log ++ saves p table s history) := by
  induction history generalizing s log with
  | nil =>
      rw [saves, List.append_nil]
      exact h
  | cons use rest ih =>
      rw [saves, ← List.append_assoc]
      exact ih (h.perform hBody use.1 use.2)

/-- What `get` finds in a table with bodies after a history. -/
theorem getEntity_last_save (history : List (Moment × Use)) (hBody : table.hasBody = true)
    (id : String) :
    getEntity (used p System.empty history).db table id =
      (latest (saves p table System.empty history) id).elim
        (raise .keyError (String.ofList (Json.reprText id))) .ok := by
  have hEmpty : Shown p table System.empty.db [] := shown_empty
  have hShown := hEmpty.used hBody history
  rw [List.nil_append] at hShown
  have hAgrees := hShown.follows.agrees id
  rw [getEntity, findEntity_row]
  generalize rowOf (rowKey table) _ (.text id) = found at hAgrees ⊢
  generalize latest (saves p table System.empty history) id = last at hAgrees ⊢
  cases hAgrees with
  | none => rfl
  | some hReads => exact hReads

end Reads

section Sample

/-- The sample platform with a column of `INT` that keeps what it is given. -/
def entityPlatform : EntityPlatform :=
  { samplePlatform with intAffinity := id, int_int := fun _ => rfl, int_null := rfl }

def busyMoment : Moment := ⟨sampleTime, some ⟨.sqliteError, "database is locked"⟩⟩

/-- A campaign is saved, and saved over under another name. Then a certificate without its
fields is refused, a save finds the database locked, and an event of an entity without a table
is recorded. -/
def campaignHistory : List (Moment × Use) :=
  [(sampleMoment, .save ⟨"campaign", by decide⟩ "C-1" ⟨[], by decide⟩),
    (sampleMoment, .save ⟨"Campaigns", by decide⟩ "C-1" ⟨[("goal", .str "a")], by decide⟩),
    (sampleMoment, .save ⟨"certificate", by decide⟩ "C-1" ⟨[], by decide⟩),
    (busyMoment, .save ⟨"campaign", by decide⟩ "C-1" ⟨[], by decide⟩),
    (sampleMoment, .plain (.hypothesis (.record ⟨"phase", by decide⟩ "C-1" ⟨[], by decide⟩)))]

/-- The last save of the campaign in the history is the one under its second name. -/
theorem campaign_saved : latest (saves entityPlatform .campaigns System.empty campaignHistory) "C-1" =
    some (.obj [("goal", .str "a"), ("id", .str "C-1")]) := by
  decide +kernel

theorem campaign_follows : Follows (rowKey .campaigns) (Linked entityPlatform.engine .campaigns)
    ((used entityPlatform System.empty campaignHistory).db.tables .campaigns)
    (entityLog .campaigns (used entityPlatform System.empty campaignHistory).db.events) := by
  refine tables_follow_events entityPlatform campaignHistory (fun use hUse => ?_) .campaigns
  rw [campaignHistory] at hUse
  repeat
    rcases List.mem_cons.mp hUse with rfl | hUse
    · trivial
  rw [List.mem_singleton.mp hUse]
  intro table
  cases table <;> decide

end Sample
end L0vi0x.Core.Store
