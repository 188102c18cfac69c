import L0vi0x.Core.StoreCommits
import L0vi0x.Core.TaskRuns
import L0vi0x.Python.JsonSpaced

/-! What an update of the ledger keeps of the rows of `tasks`: their ids, keys, phases, roles
and starting times stay, and redaction leaves them alone. -/
namespace L0vi0x.Core.Store

open L0vi0x.Python L0vi0x.Sql L0vi0x.Core.Redaction

section Rows

variable {p : Platform} {rows : List GuardedRow}

/-- A column that is written back as it was read. -/
def Settled (p : Platform) (v : Value) : Prop :=
  v = .null ∨ ∃ s, v = .text s ∧ redact p.alnum s = s

/-- The columns besides the id that no call of the ledger changes. -/
def fixedColumns : List String := ["idempotency_key", "phase", "role", "started_at"]

structure SettledTasks (p : Platform) (rows : List GuardedRow) : Prop where
  fixed : ∀ row ∈ rows, ∀ name ∈ fixedColumns, Settled p (row.column name)
  results : ∀ row ∈ rows, row.column "result" = .null ∨ ∃ s, row.column "result" = .text s

/-- The store, whose rows of `tasks` are settled. -/
abbrev SettledStore (p : Platform) := { db : Database // SettledTasks p (db.tables .tasks) }

/-- Redaction leaves a settled value. -/
theorem Settled.redacted {v : Value} (h : Settled p v) : redactPayload p.alnum v.toJson = v.toJson := by
  rcases h with rfl | ⟨s, rfl, hSame⟩
  · rfl
  · rw [Value.toJson, redactPayload, hSame]

/-- A settled value is stored again as it was read. -/
theorem Settled.bound {v w : Value} (h : Settled p v) (hBind : Sql.bind v.toJson = .ok w) :
    p.engine.textAffinity w = v := by
  rcases h with rfl | ⟨s, rfl, -⟩
  · obtain rfl := pure_eq_ok.mp hBind
    exact p.engine.text_null
  · obtain rfl := bind_str.mp hBind
    exact p.engine.text_text s

theorem toJson_normal (v : Value) : v.toJson.Normal := by
  cases v <;> trivial

/-- What identifies a row and stays. -/
def GuardedRow.fixed (row : GuardedRow) : List Value := ("id" :: fixedColumns).map row.column

/-- Rows stay at their places, with all that is fixed. -/
def KeepsFixed (db after : Database) : Prop :=
  (after.tables .tasks).map GuardedRow.fixed = (db.tables .tasks).map GuardedRow.fixed

variable {db after : Database} {taskId : String}

theorem findTask_fixed (db : Database) (taskId : String) :
    findTask db taskId = ((db.tables .tasks).map GuardedRow.fixed).findIdx? fun columns =>
      (columns.headD .null).equals (.text taskId) := by
  rw [List.findIdx?_map]
  rfl

/-- A task stays the task of its id. -/
theorem KeepsFixed.stored (h : KeepsFixed db after) {row : GuardedRow}
    (hStored : storedTask db taskId = .ok row) :
    ∃ row', storedTask after taskId = .ok row' ∧ row'.fixed = row.fixed := by
  have hFind : findTask after taskId = findTask db taskId := by
    rw [findTask_fixed, findTask_fixed, h]
  rw [storedTask] at hStored
  cases hIndex : findTask db taskId with
  | none => simp [hIndex] at hStored
  | some i =>
      rw [hIndex, Option.bind_some] at hStored
      cases hAt : (db.tables .tasks)[i]? with
      | none => simp [hAt] at hStored
      | some found =>
          rw [hAt, pure_eq_ok] at hStored
          subst hStored
          have hFixed : ((after.tables .tasks).map GuardedRow.fixed)[i]? = some found.fixed := by
            rw [h, List.getElem?_map, hAt]
            rfl
          rw [List.getElem?_map, Option.map_eq_some_iff] at hFixed
          obtain ⟨row', hAt', hSame⟩ := hFixed
          refine ⟨row', ?_, hSame⟩
          rw [storedTask, hFind, hIndex, Option.bind_some, hAt']
          rfl

/-- What is fixed of two rows determines their fixed columns. -/
theorem column_of_fixed {row row' : GuardedRow} (h : row'.fixed = row.fixed) {name : String}
    (hName : name ∈ fixedColumns) : row'.column name = row.column name :=
  List.map_inj_left.mp h name (List.mem_cons_of_mem _ hName)

theorem mem_of_storedTask {row : GuardedRow} (h : storedTask db taskId = .ok row) :
    row ∈ db.tables .tasks := by
  rw [storedTask] at h
  cases hFound : (findTask db taskId).bind ((db.tables .tasks)[·]?) with
  | none => simp [hFound] at h
  | some found =>
      rw [hFound, pure_eq_ok] at h
      subst h
      obtain ⟨i, -, hAt⟩ := Option.bind_eq_some_iff.mp hFound
      exact List.mem_of_getElem? hAt

/-- A column that is assigned what it holds stays. -/
theorem column_assign_own {row : GuardedRow} {columns : List (String × Json)}
    {bound : List (String × Value)} {name : String} (hBound : bindTaskColumns p.engine columns = .ok bound)
    (hSettled : Settled p (row.column name))
    (hColumn : columns.lookup name = none ∨ columns.lookup name = some (row.column name).toJson)
    (event : Int) : (row.assign bound event).column name = row.column name := by
  have hLookup := lookup_bindTaskColumns hBound name
  rcases hColumn with hNone | hOwn
  · rw [hNone] at hLookup
    exact column_assign_of_none hLookup event
  · rw [hOwn] at hLookup
    obtain ⟨w, hBind, hValue⟩ := hLookup
    rw [column_assign, hValue, hSettled.bound hBind, GuardedRow.column]
    cases row.columns.lookup name <;> rfl

/-- A column that is assigned a text or nothing holds a text or nothing. -/
theorem column_assign_text {row : GuardedRow} {columns : List (String × Json)}
    {bound : List (String × Value)} {name : String} (hBound : bindTaskColumns p.engine columns = .ok bound)
    (hOld : row.column name = .null ∨ ∃ s, row.column name = .text s)
    (hColumn : ∀ j, columns.lookup name = some j → j = .null ∨ ∃ s, j = .str s) (event : Int) :
    (row.assign bound event).column name = .null ∨
      ∃ s, (row.assign bound event).column name = .text s := by
  have hLookup := lookup_bindTaskColumns hBound name
  cases hAssigned : columns.lookup name with
  | none =>
      rw [hAssigned] at hLookup
      rw [column_assign_of_none hLookup event]
      exact hOld
  | some j =>
      rw [hAssigned] at hLookup
      obtain ⟨w, hBind, hValue⟩ := hLookup
      rw [column_assign, hValue]
      cases row.columns.lookup name with
      | none => exact .inl rfl
      | some v =>
          rcases hColumn j hAssigned with rfl | ⟨s, rfl⟩
          · obtain rfl := pure_eq_ok.mp hBind
            exact .inl p.engine.text_null
          · obtain rfl := bind_str.mp hBind
            exact .inr ⟨s, p.engine.text_text s⟩

/-- Tasks stay settled when a row is assigned settled columns. -/
theorem settledTasks_set {i : Nat} {new : GuardedRow} (h : SettledTasks p rows)
    (hFixed : ∀ name ∈ fixedColumns, Settled p (new.column name))
    (hResult : new.column "result" = .null ∨ ∃ s, new.column "result" = .text s) :
    SettledTasks p (rows.set i new) := by
  constructor
  · intro row hRow
    rcases List.mem_or_eq_of_mem_set hRow with hRow | rfl
    · exact h.fixed row hRow
    · exact hFixed
  · intro row hRow
    rcases List.mem_or_eq_of_mem_set hRow with hRow | rfl
    · exact h.results row hRow
    · exact hResult

/-- An update that writes what is fixed back as it is, at most. -/
theorem updateTask_settled (hSettled : SettledTasks p (db.tables .tasks))
    {columns : List (String × Json)} {event : Int} (hId : columns.lookup "id" = none)
    (hFixed : ∀ row, storedTask db taskId = .ok row → ∀ name ∈ fixedColumns,
      columns.lookup name = none ∨ columns.lookup name = some (row.column name).toJson)
    (hResult : ∀ j, columns.lookup "result" = some j → j = .null ∨ ∃ s, j = .str s)
    (h : updateTask p.engine db taskId columns event = .ok after) :
    SettledTasks p (after.tables .tasks) ∧ KeepsFixed db after := by
  rcases updateTask_eq_ok h with rfl | ⟨bound, i, old, hBound, hStored, hAt, -, -, -, rfl⟩
  · exact ⟨hSettled, rfl⟩
  have hOld := List.mem_of_getElem? hAt
  have hKept : ∀ name ∈ fixedColumns, (old.assign bound event).column name = old.column name :=
    fun name hName => column_assign_own hBound (hSettled.fixed old hOld name hName)
      (hFixed old hStored name hName) event
  have hKeptId : (old.assign bound event).column "id" = old.column "id" := by
    have hNone := lookup_bindTaskColumns hBound "id"
    rw [hId] at hNone
    exact column_assign_of_none hNone event
  rw [tables_update]
  refine ⟨settledTasks_set hSettled (fun name hName => ?_)
    (column_assign_text hBound (hSettled.results old hOld) hResult event), ?_⟩
  · rw [hKept name hName]
    exact hSettled.fixed old hOld name hName
  · have hSame : (old.assign bound event).fixed = old.fixed := by
      refine List.map_inj_left.mpr fun name hName => ?_
      rcases List.mem_cons.mp hName with rfl | hName
      · exact hKeptId
      · exact hKept name hName
    rw [KeepsFixed, tables_update, List.map_set, hSame]
    have hFixedAt : ((db.tables .tasks).map GuardedRow.fixed)[i]? = some old.fixed := by
      rw [List.getElem?_map, hAt]
      rfl
    obtain ⟨hLt, hSelf⟩ := List.getElem?_eq_some_iff.mp hFixedAt
    rw [← hSelf]
    exact List.set_getElem_self hLt

end Rows

section Reads

variable {p : Platform} {db after : Database} {taskId : String} {task : Fields}

/-- A task as a call has read it, perhaps some time ago: what is fixed is as in the row now. -/
structure Shows (db : Database) (taskId : String) (task : Fields) : Prop where
  normal : (Json.obj task).Normal
  row : ∃ row, storedTask db taskId = .ok row ∧
    ∀ name ∈ fixedColumns, getField? name task = some (row.column name).toJson

/-- What was read of a task stays true while what is fixed is kept. -/
theorem Shows.kept (h : Shows db taskId task) (hKeeps : KeepsFixed db after) :
    Shows after taskId task := by
  obtain ⟨row, hStored, hFields⟩ := h.row
  obtain ⟨row', hStored', hSame⟩ := hKeeps.stored hStored
  refine ⟨h.normal, row', hStored', fun name hName => ?_⟩
  rw [column_of_fixed hSame hName]
  exact hFields name hName

/-- The result of a settled row is parsed or handed back as text. -/
theorem parsedResult_settled {v : Value} (h : v = .null ∨ ∃ s, v = .text s) :
    ∃ result, parsedResult v.toJson = .ok result ∧ result.Normal := by
  rcases h with rfl | ⟨s, rfl⟩
  · exact ⟨.null, rfl, trivial⟩
  · rw [Value.toJson, parsedResult]
    cases hParsed : Json.loads s with
    | ok j => exact ⟨j, by rw [except_eq_ok]; exact .inl rfl, Json.loads_normal hParsed⟩
    | error e =>
        have hKind : e.kind = .jsonDecodeError := by
          rw [Json.loads] at hParsed
          split at hParsed
          · split at hParsed
            · cases hParsed
            · cases hParsed
              rfl
          · cases hParsed
            rfl
        refine ⟨.str s, ?_, trivial⟩
        rw [except_eq_ok]
        exact .inr ⟨e, rfl, by simpa using hKind, rfl⟩

/-- What is read of a row, given its parsed result. -/
def shownTask (row : GuardedRow) (result : Json) : Fields :=
  setField "result" result (dictOf
    ((MutableTable.rowColumns .tasks).map (fun name => (name, (row.column name).toJson)) ++
      [("last_event_id", row.lastEventId.toJson)]))

/-- A task that is stored is read, and shows what is fixed of its row. -/
theorem getTask_shows (hSettled : SettledTasks p (db.tables .tasks)) {row : GuardedRow}
    (hStored : storedTask db taskId = .ok row) :
    ∃ task, getTask db taskId = .ok task ∧ Shows db taskId task := by
  obtain ⟨result, hResult, hNormal⟩ :=
    parsedResult_settled (hSettled.results row (mem_of_storedTask hStored))
  refine ⟨shownTask row result, ?_, ?_, row, hStored, ?_⟩
  · rw [getTask, hStored]
    exact bind_eq_ok.mpr ⟨row, rfl, bind_eq_ok.mpr ⟨result, hResult, rfl⟩⟩
  · refine Json.Normal.setField (normal_dictOf ?_) hNormal
    simp only [MutableTable.rowColumns, List.map_cons, List.map_nil, List.cons_append,
      List.nil_append, List.forall_mem_cons, toJson_normal, true_and]
    simp
  · intro name hName
    have hOther : name ≠ "result" := by
      rintro rfl
      revert hName
      decide
    rw [shownTask, getField?_setField_ne _ _ hOther, getField?_dictOf]
    simp only [fixedColumns, List.mem_cons, List.not_mem_nil, or_false] at hName
    rcases hName with rfl | rfl | rfl | rfl <;> simp [MutableTable.rowColumns, lookupLast]

end Reads

section Writes

variable {taskId : String} {columns : List (String × Json)}

def savedPayload (taskId : String) (stored : Bool) (data : Fields) (columns : List (String × Json)) :
    Fields := dictOf
  [("kind", .str "entity_saved"), ("entity_op", .str (if stored then "update" else "insert")),
    ("table", .str "tasks"), ("snapshot", .obj (setField "id" (.str taskId) data)),
    ("row_snapshot", .obj (dictOf (("id", .str taskId) :: columns)))]

theorem savedPayload_normal {stored : Bool} {data : Fields} (hData : (Json.obj data).Normal)
    (hColumns : ∀ c ∈ columns, c.2.Normal) :
    (Json.obj (savedPayload taskId stored data columns)).Normal := by
  have hText : ∀ s, (Json.str s).Normal := fun _ => trivial
  have hSnapshot : (Json.obj (setField "id" (.str taskId) data)).Normal :=
    hData.setField (hText taskId)
  have hRow : (Json.obj (dictOf (("id", .str taskId) :: columns))).Normal :=
    normal_dictOf (List.forall_mem_cons.mpr ⟨hText taskId, hColumns⟩)
  refine normal_dictOf ?_
  simp only [List.forall_mem_cons, hText, hSnapshot, hRow, true_and]
  simp

end Writes
end L0vi0x.Core.Store
