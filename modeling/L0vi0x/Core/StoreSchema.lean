import L0vi0x.Core.Lifecycle
import L0vi0x.Sql.Table

/-! The tables of the store and the triggers that guard them. The columns of a
row are the values after column affinity, which is what the triggers see. -/
namespace L0vi0x.Core.Store

open L0vi0x.Python L0vi0x.Sql

/-- A row of `events`; its id is the rowid. -/
structure Event where
  id : Int
  ts : Value
  kind : Value
  entity : Value
  entityId : Value
  payload : Value
  deriving DecidableEq

structure HypothesisRow where
  id : Value
  state : Value
  lens : Value
  protocolType : Value
  priorP : Value
  body : Value
  lastEventId : Value
  deriving DecidableEq

inductive MutableTable
  | assumptions | invariants | experiments | failures | obligations | certificates | findings
  | tasks | knownIssues | campaigns | humanReviews | budgetReservations
  deriving DecidableEq, Repr

namespace MutableTable

def text : MutableTable → String
  | .assumptions => "assumptions"
  | .invariants => "invariants"
  | .experiments => "experiments"
  | .failures => "failures"
  | .obligations => "obligations"
  | .certificates => "certificates"
  | .findings => "findings"
  | .tasks => "tasks"
  | .knownIssues => "known_issues"
  | .campaigns => "campaigns"
  | .humanReviews => "human_reviews"
  | .budgetReservations => "budget_reservations"

/-- `_MUTABLE_TABLE_KEYS[table]`. -/
def key : MutableTable → String
  | .obligations => "key"
  | _ => "id"

/-- `table[:-1] if table.endswith("s") else table`. -/
def canonical (table : MutableTable) : String :=
  if table.text.toList.getLast? = some 's' then takeText table.text (table.text.length - 1)
  else table.text

def rowColumns : MutableTable → List String
  | .assumptions => ["id", "status", "body"]
  | .invariants => ["id", "status", "body"]
  | .experiments => ["id", "hyp_id", "task_id", "kind", "result", "body"]
  | .failures => ["id", "hyp_id", "kind", "body"]
  | .obligations => ["key", "status", "ref", "reason", "attempts", "depth"]
  | .certificates => ["id", "witness_sha256", "env_hash", "runs", "observed_records_sha256",
      "trace_policy_sha256", "control_sha256", "cross_check_sha256", "mac", "issued_at", "body"]
  | .findings => ["id", "hyp_id", "human_review", "certificate_id", "body"]
  | .tasks => ["id", "idempotency_key", "phase", "role", "status", "started_at", "finished_at",
      "result"]
  | .knownIssues => ["id", "body"]
  | .campaigns => ["id", "body"]
  | .humanReviews => ["id", "subject_type", "subject_id", "reason_code", "status", "queued_at",
      "resolved_at", "reviewer", "resolution"]
  | .budgetReservations => ["id", "task_id", "max_usd", "reserved_usd", "settled_usd",
      "released_usd", "status"]

end MutableTable

/-- A row of a guarded table: its columns of `_ROW_COLUMNS` and its event. -/
structure GuardedRow where
  columns : List (String × Value)
  lastEventId : Value
  deriving DecidableEq

def GuardedRow.column (row : GuardedRow) (name : String) : Value :=
  (row.columns.lookup name).getD .null

/-- The tables, and the counters behind `next_id`. -/
structure Database where
  events : List Event
  hypotheses : List HypothesisRow
  tables : MutableTable → List GuardedRow
  idCounters : List (String × Int)

def Database.empty : Database := ⟨[], [], fun _ => [], []⟩

variable (engine : Engine)

/-- `value IS json_extract(e.payload, path)`. -/
def matchesPayload (e : Event) (path : List String) (value : Value) : Bool :=
  (engine.jsonExtract e.payload path).any value.is

/-- The columns of a hypothesis row that a snapshot lists. -/
def HypothesisRow.snapshotColumns (row : HypothesisRow) : List (String × Value) :=
  [("id", row.id), ("state", row.state), ("lens", row.lens),
    ("protocol_type", row.protocolType), ("prior_p", row.priorP), ("body", row.body)]

/-- The row snapshot of an event is the row, column by column. -/
def matchesSnapshot (e : Event) (columns : List (String × Value)) : Bool :=
  columns.all fun p => matchesPayload engine e ["row_snapshot", p.1] p.2

/-- `e.entity='hypothesis' AND e.entity_id=id AND e.id=event AND e.kind IN kinds AND ...`. -/
def backsHypothesis (kinds : List String) (id : Value) (row : HypothesisRow) (e : Event) : Bool :=
  e.entity.equals (.text "hypothesis") && e.entityId.equals id && row.lastEventId = .int e.id &&
    kinds.any (fun kind => e.kind.equals (.text kind)) &&
    matchesSnapshot engine e row.snapshotColumns

/-- The kinds of events that update a hypothesis. -/
def updateKinds : List String := ["hyp_updated", "hyp_transition", "hyp_ladder_award"]

def isLegal (src dst : Value) : Bool :=
  HState.all.any fun s => (Lifecycle.legalTransitions s).any fun t =>
    src.equals (.text s.text) && dst.equals (.text t.text)

/-- The event that `hyp_state_guard` asks for. -/
def backsTransition (old new : HypothesisRow) (e : Event) : Bool :=
  e.entity.equals (.text "hypothesis") && e.entityId.equals old.id && new.lastEventId = .int e.id &&
    e.kind.equals (.text "hyp_transition") &&
    (engine.jsonExtract e.payload ["from"]).any (fun v => v.equals old.state) &&
    (engine.jsonExtract e.payload ["to"]).any (fun v => v.equals new.state)

/-- The triggers and constraints of `hypotheses`. -/
def hypothesisGuards : Guards (List Event) HypothesisRow where
  insert events new :=
    new.state.equals (.text "OPEN") &&
      events.any (backsHypothesis engine ["hyp_created"] new.id new)
  update events old new :=
    !new.lastEventId.lessEq old.lastEventId &&
      events.any (backsHypothesis engine updateKinds old.id new) &&
      (old.state.is new.state ||
        (isLegal old.state new.state && events.any (backsTransition engine old new)))
  delete _ _ := true
  allows rows := ((rows.map HypothesisRow.id).filter (· ≠ .null)).Nodup && rows.all fun row =>
    HState.all.any (fun s => row.state.equals (.text s.text)) && row.body ≠ .null &&
      row.lastEventId ≠ .null

/-- The condition of the generated insert and update triggers. -/
def backsRow (table : MutableTable) (op : String) (key : Value) (row : GuardedRow) (e : Event) :
    Bool :=
  e.entity.equals (.text table.canonical) && e.entityId.equals (engine.castText key) &&
    row.lastEventId = .int e.id &&
    (engine.jsonExtract e.payload ["entity_op"]).any (fun v => v.equals (.text op)) &&
    matchesSnapshot engine e (table.rowColumns.map fun name => (name, row.column name))

/-- The generated triggers of a table. What `allows` decides is its NOT NULL,
CHECK, UNIQUE and FOREIGN KEY clauses. -/
def tableGuards (allows : MutableTable → List GuardedRow → Bool) (table : MutableTable) :
    Guards (List Event) GuardedRow where
  insert events new := events.any (backsRow engine table "insert" (new.column table.key) new)
  update events old new := !new.lastEventId.lessEq old.lastEventId &&
    events.any (backsRow engine table "update" (old.column table.key) new)
  delete _ _ := false
  allows rows := allows table rows

/-- The triggers and constraints of `events`. -/
def eventGuards : Guards Unit Event where
  insert _ _ := true
  update _ _ _ := false
  delete _ _ := false
  allows rows := (rows.map Event.id).Nodup && rows.all fun e =>
    e.ts ≠ .null && e.kind ≠ .null && e.entity ≠ .null && e.entityId ≠ .null && e.payload ≠ .null

/-- One INSERT, UPDATE or DELETE, without a conflict clause, on the log, on `hypotheses` or on one
of the guarded tables. Statements on other tables are left out. -/
inductive Write
  | events (statement : Statement Event)
  | hypotheses (statement : Statement HypothesisRow)
  | guarded (table : MutableTable) (statement : Statement GuardedRow)

/-- The database after a statement; one that is undone changes nothing. -/
def Write.apply (allows : MutableTable → List GuardedRow → Bool) (db : Database) :
    Write → Database
  | .events statement =>
      { db with events := (statement.run eventGuards () db.events).getD db.events }
  | .hypotheses statement =>
      let after := statement.run (hypothesisGuards engine) db.events db.hypotheses
      { db with hypotheses := after.getD db.hypotheses }
  | .guarded table statement =>
      let after := statement.run (tableGuards engine allows table) db.events (db.tables table)
      { db with tables := Function.update db.tables table (after.getD (db.tables table)) }

end L0vi0x.Core.Store
