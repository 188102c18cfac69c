import L0vi0x.Core.SettledTasks
import L0vi0x.Core.StoreCalls
import L0vi0x.Sql.KeyedRows

/-! Saves and reads of the entities that are not hypotheses: one row for each id, written
with the event that holds it. -/
namespace L0vi0x.Core.Store

open L0vi0x.Python L0vi0x.Sql L0vi0x.Core.Redaction

/-- What a column does with the values that are written to it. -/
inductive Affinity
  | text | real | int
  deriving DecidableEq, Repr

/-- A platform whose engine also has columns of `INT`, which keep integers and nulls. -/
structure EntityPlatform extends Platform where
  intAffinity : Value → Value
  int_int : ∀ i, intAffinity (.int i) = .int i
  int_null : intAffinity .null = .null

namespace MutableTable

def affinity : MutableTable → String → Affinity
  | .certificates, "runs" => .int
  | .obligations, "attempts" | .obligations, "depth" => .int
  | .budgetReservations, "max_usd" | .budgetReservations, "reserved_usd"
  | .budgetReservations, "settled_usd" | .budgetReservations, "released_usd" => .real
  | _, _ => .text

def notNull : MutableTable → List String
  | .assumptions | .invariants => ["status", "body"]
  | .experiments | .failures | .findings | .knownIssues | .campaigns => ["body"]
  | .obligations => ["status", "attempts", "depth"]
  | .certificates => ["witness_sha256", "env_hash", "runs", "observed_records_sha256",
      "trace_policy_sha256", "control_sha256", "mac", "issued_at", "body"]
  | .tasks => ["idempotency_key", "status"]
  | .humanReviews => ["subject_type", "subject_id", "reason_code", "status", "queued_at"]
  | .budgetReservations => ["task_id", "max_usd", "reserved_usd", "settled_usd", "released_usd",
      "status"]

def statuses : MutableTable → Option (List String)
  | .obligations => some ["open", "verified_bounded", "verified_proved", "refuted_with_witness",
      "blocked_with_reason", "out_of_budget_attempted", "never_attempted"]
  | .tasks => some ["dispatched", "finished", "failed", "blocked_on_human"]
  | .humanReviews => some ["queued", "resolved"]
  | .budgetReservations => some ["reserved", "settled", "released"]
  | _ => none

def hasBody (table : MutableTable) : Bool := table.rowColumns.contains "body"

/-- The `aliases` of `_save_generic`. -/
def ofAlias : String → Option MutableTable
  | "assumption" | "assumptions" => some .assumptions
  | "invariant" | "invariants" => some .invariants
  | "experiment" | "experiments" => some .experiments
  | "failure" | "failures" | "failure_record" => some .failures
  | "obligation" | "obligations" => some .obligations
  | "certificate" | "certificates" | "replay_certificate" => some .certificates
  | "finding" | "findings" => some .findings
  | "task" | "tasks" => some .tasks
  | "known_issue" | "known_issues" => some .knownIssues
  | "campaign" | "campaigns" => some .campaigns
  | "human_review" | "human_reviews" => some .humanReviews
  | "budget_reservation" | "budget_reservations" => some .budgetReservations
  | _ => none

/-- The names that only a save knows. -/
def saveOnlyNames : List String := ["failure_record", "replay_certificate"]

def getNames : List (String × String) :=
  [("hypothesis", "hypotheses"), ("assumption", "assumptions"), ("invariant", "invariants"),
    ("experiment", "experiments"), ("failure", "failures"), ("obligation", "obligations"),
    ("certificate", "certificates"), ("finding", "findings"), ("task", "tasks"),
    ("known_issue", "known_issues"), ("campaign", "campaigns"), ("human_review", "human_reviews"),
    ("budget_reservation", "budget_reservations")]

/-- The table that `get` reads: a name that is not in its map is put into the statement. -/
def ofGetName (entity : String) : Option MutableTable :=
  let table := (getNames.lookup entity).getD entity
  [assumptions, invariants, experiments, failures, obligations, certificates, findings, tasks,
    knownIssues, campaigns, humanReviews, budgetReservations].find? fun known => known.text = table

/-- A table is read under the names that it is saved under, but for two. -/
theorem ofGetName_of_alias {entity : String} {table : MutableTable}
    (h : ofAlias entity = some table) :
    ofGetName entity = if entity ∈ saveOnlyNames then none else some table := by
  unfold ofAlias at h
  split at h
  all_goals cases h
  all_goals decide

end MutableTable

section Rows

variable (p : EntityPlatform) (db : Database)

/-- The reference of a finding to its certificate, where it has one. -/
def referenceHeld (row : GuardedRow) : Bool :=
  row.column "certificate_id" = .null || (db.tables .certificates).any fun cert =>
    (row.column "certificate_id").equals (cert.column "id")

def rowAllowed (table : MutableTable) (row : GuardedRow) : Bool :=
  row.lastEventId ≠ .null && table.notNull.all (fun name => row.column name ≠ .null) &&
    (table.statuses.all fun allowed =>
      allowed.any fun status => (row.column "status").equals (.text status)) &&
    (table ≠ .findings || referenceHeld db row)

def constraints : MutableTable → List GuardedRow → Bool
  | .tasks, rows => taskConstraints rows
  | table, rows => decide ((rows.map (·.column table.key)).filter (· ≠ .null)).Nodup &&
      rows.all (rowAllowed db table)

def entityGuards (table : MutableTable) : Guards (List Event) GuardedRow :=
  tableGuards p.engine (constraints db) table

/-- A value as a column stores it. -/
def EntityPlatform.stored (p : EntityPlatform) (table : MutableTable) (name : String)
    (value : Value) : Value :=
  match table.affinity name with
  | .text => p.engine.textAffinity value
  | .real => p.engine.realAffinity value
  | .int => p.intAffinity value

/-- Parameters bound to the columns of a table. -/
def bindEntity (table : MutableTable) (columns : List (String × Json)) :
    Py (List (String × Value)) :=
  columns.mapM fun c => do
    let value ← bind c.2
    pure (c.1, p.stored table c.1 value)

def findEntity (table : MutableTable) (id : String) : Option Nat :=
  (db.tables table).findIdx? fun row => (row.column table.key).equals (.text id)

/-- The statement of a save: an update of all columns but the key, or an insert. -/
def saveStatement (table : MutableTable) (id : String) (columns : List (String × Value))
    (event : Int) : Statement GuardedRow :=
  match findEntity db table id with
  | some i => .update ((db.tables table)[i]?.map fun row => (i, row.assign columns event)).toList
  | none => .insert [⟨(table.key, p.engine.textAffinity (.text id)) :: columns, .int event⟩]

def writeEntity (table : MutableTable) (id : String) (columns : List (String × Json))
    (event : Int) : Py Database := do
  let columns ← bindEntity p table columns
  let rows ← executed ((saveStatement p db table id columns event).run (entityGuards p db table)
    db.events (db.tables table))
  pure { db with tables := Function.update db.tables table rows }

end Rows

section Columns

def items (data : Fields) (names : List String) : Py (List (String × Json)) :=
  names.mapM fun name => do
    let value ← (Json.obj data).item name
    pure (name, value)

def fieldOr (data : Fields) (name : String) (default : Json) : String × Json :=
  (name, (getField? name data).getD default)

def resultColumn (data : Fields) : String × Json :=
  ("result", match fieldOf "result" data with
    | .null => .null
    | j => .str j.dumpsSpaced)

/-- The columns besides the key that a save writes, in their order. -/
def entityColumns (table : MutableTable) (data : Fields) (body : String) :
    Py (List (String × Json)) :=
  let text := ("body", Json.str body)
  let hypId := ("hyp_id", fieldOf "hypothesis_id" data)
  let get name := (name, fieldOf name data)
  match table with
  | .assumptions => pure [fieldOr data "status" (.str "unverified"), text]
  | .invariants => pure [fieldOr data "status" (.str "candidate"), text]
  | .experiments => pure [hypId, get "task_id", get "kind", resultColumn data, text]
  | .failures => pure [hypId, get "kind", text]
  | .obligations => pure [fieldOr data "status" (.str "open"), get "ref", get "reason",
      fieldOr data "attempts" (.int 0), fieldOr data "depth" (.int 0)]
  | .certificates => do
      let front ← items data ["witness_sha256", "env_hash", "runs", "observed_records_sha256",
        "trace_policy_sha256", "control_sha256"]
      let back ← items data ["mac", "issued_at"]
      pure (front ++ get "cross_check_sha256" :: back ++ [text])
  | .findings => pure [hypId, fieldOr data "human_review" (.str "pending"), get "certificate_id",
      text]
  | .tasks => savedColumns data
  | .knownIssues | .campaigns => pure [text]
  | .humanReviews => do
      let front ← items data ["subject_type", "subject_id", "reason_code"]
      let queued ← items data ["queued_at"]
      pure (front ++ fieldOr data "status" (.str "queued") :: queued ++
        [get "resolved_at", get "reviewer", get "resolution"])
  | .budgetReservations => do
      let front ← items data ["task_id", "max_usd", "reserved_usd"]
      pure (front ++ [fieldOr data "settled_usd" (.int 0), fieldOr data "released_usd" (.int 0),
        fieldOr data "status" (.str "reserved")])

end Columns

section Save

variable (p : EntityPlatform) (now : String) (db : Database)

/-- What `save` returns, and what the body column holds. -/
def savedBody (id : String) (payload : Fields) : Fields :=
  setField "id" (.str id) (redactFields p.alnum payload)

def entityPayload (table : MutableTable) (op id : String) (data : Fields)
    (columns : List (String × Json)) : Fields := dictOf
  [("kind", .str "entity_saved"), ("entity_op", .str op), ("table", .str table.text),
    ("snapshot", .obj (setField table.key (.str id) data)),
    ("row_snapshot", .obj (dictOf ((table.key, .str id) :: columns)))]

def commitEntity (table : MutableTable) (id : String) (payload : Fields) :
    Py (Unit × Database) := do
  let data := redactFields p.alnum payload
  let op := if (findEntity db table id).isSome then "update" else "insert"
  let columns ← entityColumns table data (Json.obj (savedBody p id payload)).dumps
  let (event, db) ← recordEvent p.toPlatform now db table.canonical id
    (entityPayload table op id data columns)
  let db ← writeEntity p db table id columns event
  pure ((), db)

/-- `save(entity, id, payload)` of an entity that is no hypothesis. -/
def saveEntity (entity id : String) (payload : NormalFields) : Py Json × Database :=
  let entity := lower (strip entity)
  match MutableTable.ofAlias entity with
  | none => (raise .valueError ("unsupported entity: " ++ entity), db)
  | some table => match submit db (commitEntity p now db table id payload.val) with
      | (.ok (), db) => (Json.loads (Json.obj (savedBody p id payload.val)).dumps, db)
      | (.error e, db) => (.error e, db)

def GuardedRow.fields (row : GuardedRow) (table : MutableTable) : Fields :=
  dictOf (table.rowColumns.map (fun name => (name, (row.column name).toJson)) ++
    [("last_event_id", row.lastEventId.toJson)])

/-- What `get` makes of a row. -/
def readRow (table : MutableTable) (row : GuardedRow) : Py Json :=
  let body := (row.column "body").toJson
  if table.hasBody && body.truthy then Json.loads body.text
  else if table = .tasks then .obj <$> taskFields row [("last_event_id", row.lastEventId.toJson)]
  else if table = .obligations then
    pure (.obj (dictOf (table.rowColumns.map fun name => (name, (row.column name).toJson))))
  else pure (.obj (row.fields table))

def getEntity (table : MutableTable) (id : String) : Py Json :=
  match (findEntity db table id).bind ((db.tables table)[·]?) with
  | none => raise .keyError (String.ofList (Json.reprText id))
  | some row => readRow table row

/-- `get(entity, id)` of an entity that is saved in one of these tables, or in none. -/
def get (entity id : String) : Py Json :=
  match MutableTable.ofGetName (lower (strip entity)) with
  | some table => getEntity db table id
  | none => raise .sqliteError ("no such table: " ++ lower (strip entity))

end Save

section Names

variable {p : EntityPlatform} {table : MutableTable} {data : Fields}

def rowKey (table : MutableTable) (row : GuardedRow) : Value := row.column table.key

/-- Every row has the columns of its table, in their order. -/
def Shaped (table : MutableTable) (rows : List GuardedRow) : Prop :=
  ∀ row ∈ rows, row.columns.map Prod.fst = table.rowColumns

theorem rowColumns_nodup (table : MutableTable) : table.rowColumns.Nodup := by
  cases table <;> decide

@[simp] theorem rowKey_new (v event : Value) (columns : List (String × Value)) :
    rowKey table ⟨(table.key, v) :: columns, event⟩ = v := by
  simp [rowKey, GuardedRow.column]

theorem bindEntity_names {columns : List (String × Json)} {bound : List (String × Value)}
    (h : bindEntity p table columns = .ok bound) :
    bound.map Prod.fst = columns.map Prod.fst := by
  rw [bindEntity, mapM_eq_ok] at h
  induction h with
  | nil => rfl
  | cons hHead _ ih =>
      obtain ⟨value, -, hPair⟩ := bind_eq_ok.mp hHead
      rw [List.map_cons, List.map_cons, ih, ← pure_eq_ok.mp hPair]

/-- Items that are found stand under the names that were asked for. -/
theorem items_names {names : List String} {found : List (String × Json)}
    (h : items data names = .ok found) : found.map Prod.fst = names := by
  rw [items, mapM_eq_ok] at h
  induction h with
  | nil => rfl
  | cons hHead _ ih =>
      obtain ⟨value, -, hPair⟩ := bind_eq_ok.mp hHead
      rw [List.map_cons, ih, ← pure_eq_ok.mp hPair]

/-- A save writes every column of its table. -/
theorem entityColumns_names {body : String} {columns : List (String × Json)}
    (h : entityColumns table data body = .ok columns) :
    table.key :: columns.map Prod.fst = table.rowColumns := by
  cases table with
  | certificates =>
      obtain ⟨front, hFront, h⟩ := bind_eq_ok.mp h
      obtain ⟨back, hBack, h⟩ := bind_eq_ok.mp h
      rw [← pure_eq_ok.mp h]
      simp [items_names hFront, items_names hBack, MutableTable.key, MutableTable.rowColumns]
  | humanReviews =>
      obtain ⟨front, hFront, h⟩ := bind_eq_ok.mp h
      obtain ⟨queued, hQueued, h⟩ := bind_eq_ok.mp h
      rw [← pure_eq_ok.mp h]
      simp [items_names hFront, items_names hQueued, fieldOr, MutableTable.key,
        MutableTable.rowColumns]
  | budgetReservations =>
      obtain ⟨front, hFront, h⟩ := bind_eq_ok.mp h
      rw [← pure_eq_ok.mp h]
      simp [items_names hFront, fieldOr, MutableTable.key, MutableTable.rowColumns]
  | tasks =>
      obtain ⟨key, -, h⟩ := bind_eq_ok.mp h
      rw [← pure_eq_ok.mp h]
      rfl
  | _ =>
      rw [← pure_eq_ok.mp h]
      rfl

/-- Columns that are all assigned are the assigned ones. -/
theorem assign_columns {columns bound : List (String × Value)}
    (hNames : columns.map Prod.fst = bound.map Prod.fst) (hNodup : (bound.map Prod.fst).Nodup) :
    columns.map (fun c => (c.1, (bound.lookup c.1).getD c.2)) = bound := by
  induction columns generalizing bound with
  | nil => exact (List.map_eq_nil_iff.mp hNames.symm).symm
  | cons c rest ih =>
      cases bound with
      | nil => cases hNames
      | cons b more =>
          obtain ⟨hHead, hTail⟩ := List.cons.inj hNames
          obtain ⟨hFresh, hMore⟩ := List.nodup_cons.mp hNodup
          have hRest : rest.map (fun c => (c.1, ((b :: more).lookup c.1).getD c.2)) =
              rest.map (fun c => (c.1, (more.lookup c.1).getD c.2)) := by
            refine List.map_congr_left fun d hd => ?_
            have hNe : (d.1 == b.1) = false := by
              rw [beq_eq_false_iff_ne]
              rintro hEq
              exact hFresh (hEq ▸ hTail ▸ List.mem_map_of_mem hd)
            obtain ⟨k, v⟩ := b
            rw [List.lookup_cons, hNe]
          rw [List.map_cons, hRest, ih hTail hMore]
          obtain ⟨k, v⟩ := b
          obtain ⟨k', v'⟩ := c
          obtain rfl : k' = k := hHead
          simp

/-- A row that is assigned all columns but its key is the row that an insert would write. -/
theorem assign_whole {row : GuardedRow} {bound : List (String × Value)} {k : String} {v : Value}
    (hShape : row.columns.map Prod.fst = k :: bound.map Prod.fst)
    (hNodup : (k :: bound.map Prod.fst).Nodup) (hKey : row.column k = v) (event : Int) :
    row.assign bound event = ⟨(k, v) :: bound, .int event⟩ := by
  obtain ⟨columns, last⟩ := row
  obtain ⟨hFresh, hBound⟩ := List.nodup_cons.mp hNodup
  cases columns with
  | nil => cases hShape
  | cons c rest =>
      obtain ⟨k', v'⟩ := c
      obtain ⟨hHead, hTail⟩ := List.cons.inj hShape
      obtain rfl : k' = k := hHead
      obtain rfl : v' = v := by simpa [GuardedRow.column] using hKey
      have hNone : bound.lookup k' = none := by
        rw [List.lookup_eq_none_iff]
        intro b hb
        have hNe : k' ≠ b.1 := fun hEq => hFresh (hEq ▸ List.mem_map_of_mem hb)
        simpa using hNe
      simp only [GuardedRow.assign, List.map_cons, hNone, Option.getD_none,
        assign_columns hTail hBound]

end Names

section Spec

variable {p : EntityPlatform} {now id : String} {db db' : Database} {table : MutableTable}

theorem findEntity_eq : findEntity db table id =
    (db.tables table).findIdx? fun row => rowKey table row = .text id := by
  rw [findEntity]
  congr 1
  funext row
  rw [Bool.eq_iff_iff, Value.equals_text, decide_eq_true_eq]
  rfl

/-- A row that is found has the key that was looked for. -/
theorem findEntity_eq_some {i : Nat} (h : findEntity db table id = some i) :
    ∃ row, (db.tables table)[i]? = some row ∧ rowKey table row = .text id := by
  rw [findEntity, List.findIdx?_eq_some_iff_getElem] at h
  obtain ⟨hLt, hId, -⟩ := h
  exact ⟨_, List.getElem?_eq_getElem hLt, Value.equals_text.mp hId⟩

/-- The operation that a save names in its event. -/
def saveOp (db : Database) (table : MutableTable) (id : String) : String :=
  if (findEntity db table id).isSome then "update" else "insert"

def savedEntity (table : MutableTable) (id : String) (bound : List (String × Value))
    (event : Int) : GuardedRow :=
  ⟨(table.key, .text id) :: bound, .int event⟩

/-- A database with other rows in one table. -/
def Database.wrote (db : Database) (table : MutableTable) (rows : List GuardedRow) : Database :=
  { db with tables := Function.update db.tables table rows }

@[simp] theorem wrote_table (db : Database) (table : MutableTable) (rows : List GuardedRow) :
    (db.wrote table rows).tables table = rows := by
  simp [Database.wrote]

theorem wrote_other (db : Database) {table other : MutableTable} (rows : List GuardedRow)
    (h : other ≠ table) : (db.wrote table rows).tables other = db.tables other := by
  simp [Database.wrote, h]

/-- The row of an id is inserted, or assigned, under the guards of its table. -/
inductive WritesRow (p : EntityPlatform) (db : Database) (table : MutableTable) (id : String)
    (bound : List (String × Value)) (event : Int) : Database → Prop where
  | inserted (hFind : findEntity db table id = none)
      (hGuard : db.events.any (backsRow p.engine table "insert" (.text id)
        (savedEntity table id bound event)) = true)
      (hAllows : constraints db table
        (db.tables table ++ [savedEntity table id bound event]) = true) :
      WritesRow p db table id bound event
        (db.wrote table (db.tables table ++ [savedEntity table id bound event]))
  | assigned (i : Nat) (old : GuardedRow) (hFind : findEntity db table id = some i)
      (hAt : (db.tables table)[i]? = some old) (hKey : rowKey table old = .text id)
      (hGuard : db.events.any (backsRow p.engine table "update" (.text id)
        (old.assign bound event)) = true)
      (hAllows : constraints db table ((db.tables table).set i (old.assign bound event)) = true) :
      WritesRow p db table id bound event
        (db.wrote table ((db.tables table).set i (old.assign bound event)))

/-- The ids of the rows of a table are distinct, where they are no nulls. -/
theorem entities_unique {rows : List GuardedRow} (h : constraints db table rows = true) :
    ((rows.map (rowKey table)).filter (· ≠ .null)).Nodup := by
  cases table with
  | tasks =>
      rw [constraints, taskConstraints, Bool.and_eq_true, Bool.and_eq_true, decide_eq_true_eq] at h
      exact h.1.1
  | _ =>
      rw [constraints, Bool.and_eq_true, decide_eq_true_eq] at h
      · exact h.1
      · simp

/-- A write that returns has written the row of its id. -/
theorem writeEntity_eq_ok {columns : List (String × Json)} {event : Int}
    (h : writeEntity p db table id columns event = .ok db') :
    ∃ bound, bindEntity p table columns = .ok bound ∧ WritesRow p db table id bound event db' := by
  obtain ⟨bound, hBound, h⟩ := bind_eq_ok.mp h
  obtain ⟨rows, hRows, h⟩ := bind_eq_ok.mp h
  refine ⟨bound, hBound, ?_⟩
  rw [executed_eq_ok, saveStatement] at hRows
  rw [← pure_eq_ok.mp h]
  cases hFind : findEntity db table id with
  | none =>
      simp only [hFind, Statement.run, List.foldlM_cons, List.foldlM_nil, Option.bind_eq_bind,
        Option.bind_eq_some_iff, Option.pure_def, Option.some.injEq, p.engine.text_text] at hRows
      obtain ⟨rows', hRow, rfl⟩ := hRows
      obtain ⟨hGuard, hAllows, rfl⟩ := insertRow_eq_some.mp hRow
      rw [entityGuards, tableGuards] at hGuard
      have hKey : (savedEntity table id bound event).column table.key = .text id := rowKey_new ..
      exact .inserted hFind (hKey ▸ hGuard) hAllows
  | some i =>
      obtain ⟨old, hAt, hKey⟩ := findEntity_eq_some hFind
      simp only [hFind, hAt, Option.map_some, Option.toList_some, Statement.run,
        List.foldlM_cons, List.foldlM_nil, Option.bind_eq_bind, Option.bind_eq_some_iff,
        Option.pure_def, Option.some.injEq] at hRows
      obtain ⟨rows', hRow, rfl⟩ := hRows
      obtain ⟨old', hOld, hGuard, hAllows, rfl⟩ := updateRow_eq_some.mp hRow
      rw [hAt, Option.some.injEq] at hOld
      subst hOld
      rw [entityGuards, tableGuards, Bool.and_eq_true] at hGuard
      have hColumn : old.column table.key = .text id := hKey
      exact .assigned i old hFind hAt hKey (hColumn ▸ hGuard.2) hAllows

/-- The row that is found is the first one of its key. -/
theorem findEntity_row : (findEntity db table id).bind ((db.tables table)[·]?) =
    rowOf (rowKey table) (db.tables table) (.text id) := by
  rw [findEntity_eq, rowOf]
  exact List.find?_eq_bind_findIdx?_getElem?.symm

/-- What a write leaves: the row of its id with the values that were bound, backed by an event. -/
theorem WritesRow.written {bound : List (String × Value)} {event : Int}
    (hBound : bound.lookup table.key = none) (h : WritesRow p db table id bound event db') :
    ∃ new rows, db' = db.wrote table rows ∧
      OneRow (rowKey table) id new (db.tables table) rows ∧ new.lastEventId = .int event ∧
      (∃ e ∈ db.events, Linked p.engine table new e) ∧
      ∀ name v, bound.lookup name = some v → new.column name = v ∨ new.column name = .null := by
  cases h with
  | inserted hFind hGuard hAllows =>
      obtain ⟨e, hMem, hBacks⟩ := List.any_eq_true.mp hGuard
      refine ⟨_, _, rfl, oneRow_append (rowKey_new ..) (entities_unique hAllows), rfl,
        ⟨e, hMem, (backsRow_iff.mp hBacks).1⟩, fun name v hName => .inl ?_⟩
      have hNe : (name == table.key) = false := by
        rw [beq_eq_false_iff_ne]
        rintro rfl
        rw [hBound] at hName
        cases hName
      rw [savedEntity, GuardedRow.column, List.lookup_cons, hNe]
      simp [hName]
  | assigned i old hFind hAt hKey hGuard hAllows =>
      obtain ⟨e, hMem, hBacks⟩ := List.any_eq_true.mp hGuard
      refine ⟨_, _, rfl, oneRow_set hAt hKey ((column_assign_of_none hBound event).trans hKey)
        (entities_unique hAllows), rfl, ⟨e, hMem, (backsRow_iff.mp hBacks).1⟩,
        fun name v hName => ?_⟩
      rw [column_assign, hName]
      cases old.columns.lookup name with
      | none => exact .inr rfl
      | some _ => exact .inl rfl

/-- In a table of whole rows a write leaves the row that an insert would. -/
theorem WritesRow.whole {columns : List (String × Json)} {bound : List (String × Value)}
    {event : Int} (hShape : Shaped table (db.tables table))
    (hNames : table.key :: columns.map Prod.fst = table.rowColumns)
    (hBound : bindEntity p table columns = .ok bound)
    (h : WritesRow p db table id bound event db') :
    ∃ rows, db' = db.wrote table rows ∧
      OneRow (rowKey table) id (savedEntity table id bound event) (db.tables table) rows := by
  have hRowNames : table.key :: bound.map Prod.fst = table.rowColumns := by
    rw [bindEntity_names hBound]
    exact hNames
  cases h with
  | inserted hFind hGuard hAllows =>
      exact ⟨_, rfl, oneRow_append (rowKey_new ..) (entities_unique hAllows)⟩
  | assigned i old hFind hAt hKey hGuard hAllows =>
      have hWhole : old.assign bound event = savedEntity table id bound event :=
        assign_whole ((hShape _ (List.mem_of_getElem? hAt)).trans hRowNames.symm)
          (hRowNames ▸ rowColumns_nodup table) hKey event
      rw [hWhole] at hAllows ⊢
      exact ⟨_, rfl, oneRow_set hAt hKey (rowKey_new ..) (entities_unique hAllows)⟩

/-- An event that is recorded is appended with the next id. -/
theorem recordEvent_entity {p : Platform} {entity : String} {payload : Fields} {event : Int}
    (h : recordEvent p now db entity id payload = .ok (event, db')) :
    ∃ kind, event = nextEventId db.events ∧
      db' = db.logged (entityEvent p now db entity id kind payload) := by
  simp only [recordEvent, bind_eq_ok, executed_eq_ok, pure_eq_ok] at h
  obtain ⟨kind, -, _, -, events, hInsert, h⟩ := h
  simp only [Statement.run, List.foldlM_cons, List.foldlM_nil, Option.bind_eq_bind,
    Option.bind_eq_some_iff, Option.pure_def, Option.some.injEq] at hInsert
  obtain ⟨rows, hRow, rfl⟩ := hInsert
  obtain ⟨-, -, rfl⟩ := insertRow_eq_some.mp hRow
  rw [Prod.mk.injEq] at h
  exact ⟨kind, h.1.symm, h.2.symm⟩

/-- What the transaction of a save has done when it returns. -/
theorem commitEntity_eq_ok {payload : Fields} {u : Unit}
    (h : commitEntity p now db table id payload = .ok (u, db')) :
    ∃ columns bound kind, entityColumns table (redactFields p.alnum payload)
        (Json.obj (savedBody p id payload)).dumps = .ok columns ∧
      bindEntity p table columns = .ok bound ∧
      WritesRow p (db.logged (entityEvent p.toPlatform now db table.canonical id kind
          (entityPayload table (saveOp db table id) id (redactFields p.alnum payload) columns)))
        table id bound (nextEventId db.events) db' := by
  simp only [commitEntity, bind_eq_ok, pure_eq_ok, Prod.mk.injEq] at h
  obtain ⟨columns, hColumns, ⟨event, mid⟩, hRecord, last, hWrite, -, rfl⟩ := h
  obtain ⟨kind, rfl, rfl⟩ := recordEvent_entity hRecord
  obtain ⟨bound, hBound, hWrites⟩ := writeEntity_eq_ok hWrite
  exact ⟨columns, bound, kind, hColumns, hBound, hWrites⟩

/-- An event of an entity with an id that no event of the log has. -/
structure NewEvent (log : List Event) (entity id : String) (e : Event) : Prop where
  entity : e.entity = .text entity
  entityId : e.entityId = .text id
  fresh : ∀ other ∈ log, other.id < e.id

/-- A new event has the next id, and is about its entity. -/
theorem entityEvent_new {p : Platform} (entity kind : String) (payload : Fields) :
    NewEvent db.events entity id (entityEvent p now db entity id kind payload) :=
  ⟨rfl, rfl, fun _ hOther => lt_nextEventId hOther⟩

/-- One event of the entity, and under it the row of the id. -/
def EntityWritten (p : EntityPlatform) (db : Database) (table : MutableTable) (id : String)
    (db' : Database) : Prop :=
  ∃ e bound, NewEvent db.events table.canonical id e ∧ bound.lookup table.key = none ∧
    WritesRow p (db.logged e) table id bound e.id db'

/-- A save that commits logs its event and writes its row. -/
theorem commitEntity_written {payload : Fields} {u : Unit}
    (h : commitEntity p now db table id payload = .ok (u, db')) :
    EntityWritten p db table id db' := by
  obtain ⟨columns, bound, kind, hColumns, hBound, hWrites⟩ := commitEntity_eq_ok h
  refine ⟨_, bound, entityEvent_new .., ?_, hWrites⟩
  have hNodup := rowColumns_nodup table
  rw [← entityColumns_names hColumns, ← bindEntity_names hBound] at hNodup
  rw [List.lookup_eq_none_iff]
  intro column hColumn
  have hNe : table.key ≠ column.1 :=
    fun hEq => (List.nodup_cons.mp hNodup).1 (hEq ▸ List.mem_map_of_mem hColumn)
  simpa using hNe

end Spec

section Tasks

variable {p : EntityPlatform} {id : String} {db db' : Database} {event : Int}
  {columns : List (String × Json)} {bound : List (String × Value)}

/-- A task that is inserted with its id first. -/
theorem insertTask_writes (hId : columns.lookup "id" = none)
    (h : insertTask p.engine db (("id", .str id) :: columns) event = .ok db') :
    ∃ bound, bindTaskColumns p.engine columns = .ok bound ∧ bound.lookup "id" = none ∧
      WritesRow p db .tasks id bound event db' := by
  obtain ⟨whole, hWhole, hGuard, hAllows, rfl⟩ := insertTask_eq_ok h
  rw [bindTaskColumns, List.mapM_cons, bind_eq_ok] at hWhole
  obtain ⟨first, hFirst, hWhole⟩ := hWhole
  obtain ⟨bound, hBound, hWhole⟩ := bind_eq_ok.mp hWhole
  obtain ⟨v, hBind, hPair⟩ := bind_eq_ok.mp hFirst
  rw [bind_str] at hBind
  rw [hBind, p.engine.text_text] at hPair
  rw [← pure_eq_ok.mp hWhole, ← pure_eq_ok.mp hPair] at hGuard hAllows ⊢
  have hNone := lookup_bindTaskColumns hBound "id"
  rw [hId] at hNone
  have hAbsent := absent_of_distinct (rowKey_new ..) (@entities_unique db .tasks _ hAllows)
  have hFind : findEntity db .tasks id = none := by
    rw [findEntity_eq, List.findIdx?_eq_none_iff]
    intro row hRow
    simpa using hAbsent row hRow
  exact ⟨bound, hBound, hNone, .inserted hFind hGuard hAllows⟩

/-- An update of a task that is stored. -/
theorem updateTask_writes (hId : columns.lookup "id" = none)
    (hStored : (findTask db id).isSome = true)
    (h : updateTask p.engine db id columns event = .ok db') :
    ∃ bound, bindTaskColumns p.engine columns = .ok bound ∧ bound.lookup "id" = none ∧
      WritesRow p db .tasks id bound event db' := by
  rw [updateTask, bind_eq_ok] at h
  obtain ⟨bound, hBound, h⟩ := h
  have hNone := lookup_bindTaskColumns hBound "id"
  rw [hId] at hNone
  refine ⟨bound, hBound, hNone, ?_⟩
  obtain ⟨i, hFind⟩ := Option.isSome_iff_exists.mp hStored
  obtain ⟨old, hAt, hKey⟩ := findTask_eq_some hFind
  simp only [hFind, hAt, Option.map_some, Option.toList_some, bind_eq_ok, executed_eq_ok,
    pure_eq_ok, Statement.run, List.foldlM_cons, List.foldlM_nil, Option.bind_eq_bind,
    Option.bind_eq_some_iff, Option.pure_def, Option.some.injEq] at h
  obtain ⟨rows, ⟨rows', hRow, rfl⟩, rfl⟩ := h
  obtain ⟨old', hOld, hGuard, hAllows, rfl⟩ := updateRow_eq_some.mp hRow
  rw [hAt, Option.some.injEq] at hOld
  subst hOld
  rw [taskGuards, tableGuards, Bool.and_eq_true] at hGuard
  exact .assigned i old hFind hAt hKey (hKey ▸ hGuard.2) hAllows

/-- The result column of a task that can be read back. -/
def ReadableTask (db : Database) (id : String) : Prop :=
  ∃ row, storedTask db id = .ok row ∧
    (row.column "result" = .null ∨ ∃ s, row.column "result" = .text s)

theorem ReadableTask.gets (h : ReadableTask db id) : ∃ task, getTask db id = .ok task := by
  obtain ⟨row, hStored, hResult⟩ := h
  obtain ⟨result, hParsed, -⟩ := parsedResult_settled hResult
  exact ⟨_, bind_eq_ok.mpr ⟨row, hStored, bind_eq_ok.mpr ⟨result, hParsed, rfl⟩⟩⟩

/-- A value that a `TEXT` column has for a null or a text. -/
theorem bound_readable (hBound : bindTaskColumns p.engine columns = .ok bound)
    (hResult : columns.lookup "result" = some .null ∨
      ∃ s, columns.lookup "result" = some (.str s)) :
    ∃ v, bound.lookup "result" = some v ∧ (v = .null ∨ ∃ s, v = .text s) := by
  have hLookup := lookup_bindTaskColumns hBound "result"
  rcases hResult with hNull | ⟨s, hText⟩
  · rw [hNull] at hLookup
    obtain ⟨v, hBind, hSome⟩ := hLookup
    refine ⟨_, hSome, .inl ?_⟩
    rw [← pure_eq_ok.mp hBind, p.engine.text_null]
  · rw [hText] at hLookup
    obtain ⟨v, hBind, hSome⟩ := hLookup
    refine ⟨_, hSome, .inr ⟨s, ?_⟩⟩
    rw [bind_str.mp hBind, p.engine.text_text]

/-- A task that was written with a result that is null or a text is read back. -/
theorem WritesRow.readable (hNone : bound.lookup "id" = none)
    (hBound : bindTaskColumns p.engine columns = .ok bound)
    (hResult : columns.lookup "result" = some .null ∨
      ∃ s, columns.lookup "result" = some (.str s))
    (h : WritesRow p db .tasks id bound event db') : ReadableTask db' id := by
  have hKey : bound.lookup (MutableTable.key .tasks) = none := hNone
  obtain ⟨v, hSome, hText⟩ := bound_readable hBound hResult
  obtain ⟨new, rows, rfl, hRow, -, -, hColumns⟩ := h.written hKey
  have hStored : storedTask (db.wrote .tasks rows) id = .ok new := by
    have hFind := @findEntity_row id (db.wrote .tasks rows) .tasks
    rw [wrote_table, hRow.rowOf, if_pos rfl] at hFind
    rw [storedTask]
    change (match (findEntity (db.wrote .tasks rows) .tasks id).bind
      (((db.wrote .tasks rows).tables .tasks)[·]?) with
      | none => _
      | some row => _) = _
    rw [wrote_table, hFind]
    rfl
  refine ⟨new, hStored, ?_⟩
  rcases hColumns "result" v hSome with hValue | hNull
  · rw [hValue]
    exact hText
  · exact .inl hNull

end Tasks
end L0vi0x.Core.Store
