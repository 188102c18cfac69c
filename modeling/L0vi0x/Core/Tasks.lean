import L0vi0x.Core.StoreSpec
import L0vi0x.Python.Threads

/-! The task ledger. Each of its calls is a program over the atomic steps of the
store: a read, or a transaction of `submit`. -/
namespace L0vi0x.Core.Store

open L0vi0x.Python L0vi0x.Sql L0vi0x.Core.Redaction

/-- A value whose objects are in key order. -/
abbrev NormalJson := { j : Json // j.Normal }

section Rows

variable (engine : Engine)

def taskConstraints (rows : List GuardedRow) : Bool :=
  decide ((rows.map (·.column "id")).filter (· ≠ .null)).Nodup &&
    decide (rows.map (·.column "idempotency_key")).Nodup &&
    rows.all fun row => row.column "idempotency_key" ≠ .null && row.lastEventId ≠ .null &&
      ["dispatched", "finished", "failed", "blocked_on_human"].any fun status =>
        (row.column "status").equals (.text status)

def taskGuards : Guards (List Event) GuardedRow :=
  tableGuards engine (fun _ rows => taskConstraints rows) .tasks

/-- Parameters bound to columns, all of which are `TEXT`. -/
def bindTaskColumns (columns : List (String × Json)) : Py (List (String × Value)) :=
  columns.mapM fun c => do
    let value ← bind c.2
    pure (c.1, engine.textAffinity value)

/-- A row with some of its columns assigned. -/
def GuardedRow.assign (row : GuardedRow) (columns : List (String × Value)) (event : Int) :
    GuardedRow :=
  ⟨row.columns.map fun c => (c.1, (columns.lookup c.1).getD c.2), .int event⟩

/-- `SELECT ... FROM tasks WHERE id=?`, by position. -/
def findTask (db : Database) (taskId : String) : Option Nat :=
  (db.tables .tasks).findIdx? fun row => (row.column "id").equals (.text taskId)

def storedTask (db : Database) (taskId : String) : Py GuardedRow :=
  match (findTask db taskId).bind ((db.tables .tasks)[·]?) with
  | none => raise .keyError (String.ofList (Json.reprText taskId))
  | some row => pure row

def insertTask (db : Database) (columns : List (String × Json)) (event : Int) : Py Database := do
  let columns ← bindTaskColumns engine columns
  let rows ← executed ((Statement.insert [⟨columns, .int event⟩]).run (taskGuards engine)
    db.events (db.tables .tasks))
  pure { db with tables := Function.update db.tables .tasks rows }

def updateTask (db : Database) (taskId : String) (columns : List (String × Json)) (event : Int) :
    Py Database := do
  let columns ← bindTaskColumns engine columns
  match findTask db taskId with
  | none => pure db
  | some i => do
      let changes := ((db.tables .tasks)[i]?.map fun row => (i, row.assign columns event)).toList
      let rows ← executed ((Statement.update changes).run (taskGuards engine) db.events
        (db.tables .tasks))
      pure { db with tables := Function.update db.tables .tasks rows }

/-- The statement of `save("task", ...)`. -/
def saveTask (stored : Bool) (db : Database) (taskId : String) (columns : List (String × Json))
    (event : Int) : Py Database :=
  if stored then updateTask engine db taskId columns event
  else insertTask engine db (("id", .str taskId) :: columns) event

end Rows

section Reads

/-- The result column, parsed where it is JSON. -/
def parsedResult : Json → Py Json
  | .null => pure .null
  | .str s => except (Json.loads s) (· = .jsonDecodeError) fun _ => pure (.str s)
  | j => raise .typeError
      ("the JSON object must be str, bytes or bytearray, not " ++ j.typeName)

/-- `dict(row)` of the selected columns, with the parsed result. -/
def taskFields (row : GuardedRow) (more : List (String × Json)) : Py Fields := do
  let result ← parsedResult (row.column "result").toJson
  let columns := (MutableTable.rowColumns .tasks).map fun name => (name, (row.column name).toJson)
  pure (setField "result" result (dictOf (columns ++ more)))

def findTaskByKey (db : Database) (key : String) : Py (Option Fields) :=
  match (db.tables .tasks).find? fun row => (row.column "idempotency_key").equals (.text key) with
  | none => pure none
  | some row => do
      let data ← taskFields row []
      pure (some (setField "key" (fieldOf "idempotency_key" data) data))

def getTask (db : Database) (taskId : String) : Py Fields := do
  let row ← storedTask db taskId
  taskFields row [("last_event_id", row.lastEventId.toJson)]

end Reads

section Transactions

variable (p : Platform) (now : String) (db : Database)

/-- The columns of a task that is dispatched. -/
def dispatchedRow (taskId key phase role startedAt : String) : List (String × Json) :=
  [("id", .str taskId), ("idempotency_key", .str key), ("phase", .str phase), ("role", .str role),
    ("status", .str "dispatched"), ("started_at", .str startedAt), ("finished_at", .null),
    ("result", .null)]

def dispatchedPayload (taskId key kind phase role startedAt : String) : Fields := dictOf
  [("kind", .str "task_dispatched"), ("entity_op", .str "insert"), ("idempotency_key", .str key),
    ("task_kind", .str kind),
    ("row_snapshot", .obj (dictOf (dispatchedRow taskId key phase role startedAt)))]

def commitDispatch (taskId key kind phase role startedAt : String) : Py (Unit × Database) := do
  let (event, db) ← recordEvent p now db "task" taskId
    (dispatchedPayload taskId key kind phase role startedAt)
  let db ← insertTask p.engine db (dispatchedRow taskId key phase role startedAt) event
  pure ((), db)

/-- The snapshot of a task that ends. -/
def endedTask (row : GuardedRow) (taskId status finishedAt : String) (result : Json) : Json :=
  .obj <| dictOf [("id", .str taskId), ("idempotency_key", (row.column "idempotency_key").toJson),
    ("phase", (row.column "phase").toJson), ("role", (row.column "role").toJson),
    ("status", .str status), ("started_at", (row.column "started_at").toJson),
    ("finished_at", .str finishedAt), ("result", result)]

/-- The transaction that ends a task with a result; the event has `extra` besides. -/
def commitEnd (taskId kind status finishedAt : String) (result : Json)
    (extra : List (String × Json)) : Py (Unit × Database) := do
  let row ← storedTask db taskId
  let text := Json.str result.dumpsSpaced
  let (event, db) ← recordEvent p now db "task" taskId <| dictOf <|
    [("kind", .str kind), ("entity_op", .str "update")] ++ extra ++
      [("snapshot", endedTask row taskId status finishedAt result),
        ("row_snapshot", endedTask row taskId status finishedAt text)]
  let db ← updateTask p.engine db taskId
    [("status", .str status), ("finished_at", .str finishedAt), ("result", text)] event
  pure ((), db)

def commitFinish (taskId : String) (result : Json) (finishedAt : String) : Py (Unit × Database) :=
  commitEnd p now db taskId "task_finished" "finished" finishedAt (redactPayload p.alnum result) []

def commitBlock (taskId : String) (reason : Option String) (finishedAt : String) :
    Py (Unit × Database) :=
  let safe := Json.str (redact p.alnum (reason.getD ""))
  commitEnd p now db taskId "task_blocked_on_human" "blocked_on_human" finishedAt
    (.obj (dictOf [("reason", safe)])) [("reason", safe)]

/-- The columns besides the id that `save("task", ...)` writes. -/
def savedColumns (data : Fields) : Py (List (String × Json)) := do
  let key ← (Json.obj data).item "idempotency_key"
  let result := match fieldOf "result" data with
    | .null => Json.null
    | j => .str j.dumpsSpaced
  pure [("idempotency_key", key), ("phase", fieldOf "phase" data), ("role", fieldOf "role" data),
    ("status", (getField? "status" data).getD (.str "dispatched")),
    ("started_at", fieldOf "started_at" data), ("finished_at", fieldOf "finished_at" data),
    ("result", result)]

/-- The transaction of `save("task", task_id, payload)`. -/
def commitSaveTask (taskId : String) (payload : Fields) : Py (Unit × Database) := do
  let data := redactFields p.alnum payload
  let stored := (findTask db taskId).isSome
  let columns ← savedColumns data
  let (event, db) ← recordEvent p now db "task" taskId <| dictOf
    [("kind", .str "entity_saved"), ("entity_op", .str (if stored then "update" else "insert")),
      ("table", .str "tasks"), ("snapshot", .obj (setField "id" (.str taskId) data)),
      ("row_snapshot", .obj (dictOf (("id", .str taskId) :: columns)))]
  let db ← saveTask p.engine stored db taskId columns event
  pure ((), db)

end Transactions

/-- The atomic steps of the calls. -/
inductive TaskRequest
  | clock
  | findByKey (key : String)
  | nextId
  | dispatch (taskId key kind phase role startedAt : String)
  | fetch (taskId : String)
  | finish (taskId : String) (result : NormalJson) (finishedAt : String)
  | block (taskId : String) (reason : Option String) (finishedAt : String)
  | save (taskId : String) (payload : Fields)

abbrev TaskReply : TaskRequest → Type
  | .clock => String
  | .findByKey _ => Py (Option Fields)
  | .nextId => Py String
  | .fetch _ => Py Fields
  | .dispatch .. | .finish .. | .block .. | .save .. => Py Unit

/-- What the clock shows, and whether the database fails: it is locked, or the disk is full. -/
structure Moment where
  now : String
  fault : Option PyError

/-- A step of the store that the database lets through. -/
def Moment.guarded {α : Type} (m : Moment) (outcome : Py α) : Py α :=
  match m.fault with
  | some e => .error e
  | none => outcome

/-- The store answers one request. -/
def answerTask (p : Platform) (m : Moment) (db : Database) :
    (request : TaskRequest) → TaskReply request × Database
  | .clock => (m.now, db)
  | .findByKey key => (m.guarded (findTaskByKey db key), db)
  | .nextId => submit db (m.guarded (pure (nextId db "T")))
  | .dispatch taskId key kind phase role startedAt =>
      submit db (m.guarded (commitDispatch p m.now db taskId key kind phase role startedAt))
  | .fetch taskId => (m.guarded (getTask db taskId), db)
  | .finish taskId result finishedAt =>
      submit db (m.guarded (commitFinish p m.now db taskId result.val finishedAt))
  | .block taskId reason finishedAt =>
      submit db (m.guarded (commitBlock p m.now db taskId reason finishedAt))
  | .save taskId payload => submit db (m.guarded (commitSaveTask p m.now db taskId payload))

namespace TaskLedger

abbrev TaskProgram := Program TaskReply (Py Fields)

/-- What follows a transaction: `return self.get("task", task_id)`. -/
def returning (taskId : String) : Py Unit → TaskProgram
  | .error e => .done (.error e)
  | .ok () => .call (.fetch taskId) .done

/-- The handler of `begin`: another call may have dispatched the task. -/
def recover (key : String) (e : PyError) : TaskProgram :=
  .call (.findByKey key) fun
    | .error e => .done (.error e)
    | .ok (some existing) => .done (.ok existing)
    | .ok none => .done (.error e)

/-- `begin` with the id of its task. -/
def dispatching (key kind phase role taskId startedAt : String) : TaskProgram :=
  .call (.dispatch taskId key kind phase role startedAt) fun
    | .error e => recover key e
    | .ok () => .call (.fetch taskId) fun
        | .error e => recover key e
        | .ok task => .done (.ok task)

def begin (key kind phase role : String) : TaskProgram :=
  if strip key = "" then .done (raise .valueError "idempotency key must be non-empty")
  else .call (.findByKey (strip key)) fun
    | .error e => .done (.error e)
    | .ok (some existing) => .done (.ok existing)
    | .ok none => .call .nextId fun
        | .error e => .done (.error e)
        | .ok taskId => .call .clock fun startedAt =>
            dispatching (strip key) kind phase role taskId startedAt

def finish (taskId : String) (result : NormalJson) : TaskProgram :=
  .call .clock fun now => .call (.finish taskId result now) (returning taskId)

/-- `fail(task_id, result)`: the row is read in one step and written in a later one. -/
def fail (taskId : String) (result : NormalJson) : TaskProgram :=
  .call (.fetch taskId) fun
    | .error e => .done (.error e)
    | .ok task => .call .clock fun now =>
        .call (.save taskId (updateFields task
          [("status", .str "failed"), ("finished_at", .str now), ("result", result.val)]))
          (returning taskId)

def blockHuman (taskId : String) (reason : Option String) : TaskProgram :=
  .call .clock fun now => .call (.block taskId reason now) (returning taskId)

end TaskLedger

inductive TaskCall
  | begin (key kind phase role : String)
  | finish (taskId : String) (result : NormalJson)
  | fail (taskId : String) (result : NormalJson)
  | blockHuman (taskId : String) (reason : Option String)

def TaskCall.program : TaskCall → TaskLedger.TaskProgram
  | .begin key kind phase role => TaskLedger.begin key kind phase role
  | .finish taskId result => TaskLedger.finish taskId result
  | .fail taskId result => TaskLedger.fail taskId result
  | .blockHuman taskId reason => TaskLedger.blockHuman taskId reason

/-- The calls under way on one database. -/
abbrev Ledger := Pool Database TaskCall TaskReply (Py Fields)

/-- A database on which some calls have come in. -/
def Ledger.start (db : Database) (calls : List TaskCall) : Ledger :=
  ⟨db, calls.map fun call => (call, call.program)⟩

end L0vi0x.Core.Store
