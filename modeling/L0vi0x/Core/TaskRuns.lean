import Mathlib.Data.List.TakeWhile
import L0vi0x.Core.Tasks

/-! Every interleaving of the calls of the ledger keeps one task for each key. What
redaction would change in a key keeps the task from being dispatched, so a later save
writes the key back as it was. -/
namespace L0vi0x.Core.Store

open L0vi0x.Python L0vi0x.Sql L0vi0x.Core.Redaction

section Rows

variable {engine : Engine}

/-- An assignment replaces the columns that a row has, and adds none. -/
theorem column_assign (row : GuardedRow) (columns : List (String × Value)) (event : Int)
    (name : String) : (row.assign columns event).column name =
      ((row.columns.lookup name).map fun v => (columns.lookup name).getD v).getD .null := by
  unfold GuardedRow.assign GuardedRow.column
  generalize row.columns = cells
  induction cells with
  | nil => rfl
  | cons c rest ih =>
      obtain ⟨k, v⟩ := c
      by_cases h : name = k
      · subst h
        simp
      · have hNe : (name == k) = false := by simpa using h
        simp only [List.map_cons, List.lookup_cons, hNe]
        exact ih

/-- A column that is not assigned stays. -/
theorem column_assign_of_none {row : GuardedRow} {columns : List (String × Value)} {name : String}
    (h : columns.lookup name = none) (event : Int) :
    (row.assign columns event).column name = row.column name := by
  rw [column_assign, h, GuardedRow.column]
  cases row.columns.lookup name <;> rfl

/-- A column that holds a text and is assigned gets the new value. -/
theorem column_assign_of_some {row : GuardedRow} {columns : List (String × Value)} {name s : String}
    {v : Value} (hText : row.column name = .text s) (h : columns.lookup name = some v)
    (event : Int) : (row.assign columns event).column name = v := by
  rw [column_assign, h]
  unfold GuardedRow.column at hText
  cases hOld : row.columns.lookup name with
  | none =>
      rw [hOld] at hText
      cases hText
  | some old => rfl

/-- A bound list of columns has the names of the list. -/
theorem lookup_bindTaskColumns {columns : List (String × Json)} {bound : List (String × Value)}
    (h : bindTaskColumns engine columns = .ok bound) (name : String) :
    match columns.lookup name with
    | none => bound.lookup name = none
    | some j => ∃ v, Sql.bind j = .ok v ∧ bound.lookup name = some (engine.textAffinity v) := by
  induction columns generalizing bound with
  | nil =>
      rw [bindTaskColumns, List.mapM_nil, pure_eq_ok] at h
      subst h
      rfl
  | cons c rest ih =>
      obtain ⟨k, j⟩ := c
      rw [bindTaskColumns, List.mapM_cons, bind_eq_ok] at h
      obtain ⟨first, hFirst, h⟩ := h
      obtain ⟨more, hMore, h⟩ := bind_eq_ok.mp h
      obtain ⟨v, hBind, hPair⟩ := bind_eq_ok.mp hFirst
      rw [pure_eq_ok] at h hPair
      subst h hPair
      by_cases hName : name = k
      · subst hName
        simp [hBind]
      · have hNe : (name == k) = false := by simpa using hName
        simp only [List.lookup_cons, hNe]
        exact ih hMore

theorem bind_str {s : String} {v : Value} : Sql.bind (.str s) = .ok v ↔ v = .text s := by
  rw [Sql.bind, pure_eq_ok, eq_comm]

/-- A text that is bound comes into the row as it is. -/
theorem lookup_bound_text {columns : List (String × Json)} {bound : List (String × Value)}
    (h : bindTaskColumns engine columns = .ok bound) {name s : String}
    (hName : columns.lookup name = some (.str s)) : bound.lookup name = some (.text s) := by
  have hLookup := lookup_bindTaskColumns h name
  rw [hName] at hLookup
  obtain ⟨v, hBind, hBound⟩ := hLookup
  rw [hBound, bind_str.mp hBind, engine.text_text]

/-- What `insertTask` has done when it returns. -/
theorem insertTask_eq_ok {db db' : Database} {columns : List (String × Json)} {event : Int}
    (h : insertTask engine db columns event = .ok db') :
    ∃ bound, bindTaskColumns engine columns = .ok bound ∧
      (taskGuards engine).insert db.events ⟨bound, .int event⟩ = true ∧
      taskConstraints (db.tables .tasks ++ [⟨bound, .int event⟩]) = true ∧
      db' = { db with
        tables := Function.update db.tables .tasks (db.tables .tasks ++ [⟨bound, .int event⟩]) } := by
  simp only [insertTask, bind_eq_ok, executed_eq_ok, pure_eq_ok, Statement.run, List.foldlM_cons,
    List.foldlM_nil, Option.bind_eq_bind, Option.bind_eq_some_iff, Option.pure_def,
    Option.some.injEq] at h
  obtain ⟨bound, hBound, rows, ⟨rows', hRow, rfl⟩, rfl⟩ := h
  obtain ⟨hGuard, hAllows, rfl⟩ := insertRow_eq_some.mp hRow
  exact ⟨bound, hBound, hGuard, hAllows, rfl⟩

/-- A task that is found has the id that was looked for. -/
theorem findTask_eq_some {db : Database} {taskId : String} {i : Nat}
    (h : findTask db taskId = some i) :
    ∃ row, (db.tables .tasks)[i]? = some row ∧ row.column "id" = .text taskId := by
  rw [findTask, List.findIdx?_eq_some_iff_getElem] at h
  obtain ⟨hLt, hId, -⟩ := h
  exact ⟨_, List.getElem?_eq_getElem hLt, Value.equals_text.mp hId⟩

/-- What `updateTask` has done when it returns. -/
theorem updateTask_eq_ok {db db' : Database} {taskId : String} {columns : List (String × Json)}
    {event : Int} (h : updateTask engine db taskId columns event = .ok db') :
    db' = db ∨ ∃ bound i old, bindTaskColumns engine columns = .ok bound ∧
      storedTask db taskId = .ok old ∧ (db.tables .tasks)[i]? = some old ∧
      old.column "id" = .text taskId ∧
      (taskGuards engine).update db.events old (old.assign bound event) = true ∧
      taskConstraints ((db.tables .tasks).set i (old.assign bound event)) = true ∧
      db' = { db with
        tables := Function.update db.tables .tasks
          ((db.tables .tasks).set i (old.assign bound event)) } := by
  rw [updateTask, bind_eq_ok] at h
  obtain ⟨bound, hBound, h⟩ := h
  cases hFind : findTask db taskId with
  | none =>
      rw [hFind, pure_eq_ok] at h
      exact .inl h.symm
  | some i =>
      obtain ⟨old, hAt, hId⟩ := findTask_eq_some hFind
      simp only [hFind, hAt, Option.map_some, Option.toList_some, bind_eq_ok, executed_eq_ok,
        pure_eq_ok, Statement.run, List.foldlM_cons, List.foldlM_nil, Option.bind_eq_bind,
        Option.bind_eq_some_iff, Option.pure_def, Option.some.injEq] at h
      obtain ⟨rows, ⟨rows', hRow, rfl⟩, rfl⟩ := h
      obtain ⟨old', hOld, hGuard, hAllows, rfl⟩ := updateRow_eq_some.mp hRow
      rw [hAt] at hOld
      cases hOld
      have hStored : storedTask db taskId = .ok old := by
        rw [storedTask, hFind, Option.bind_some, hAt]
        rfl
      exact .inr ⟨bound, i, old, hBound, hStored, hAt, hId, hGuard, hAllows, rfl⟩

end Rows

section Tasks

variable {p : Platform} {rows after : List GuardedRow}

/-- The rows of the ledger: each has an id and a stripped key that redaction leaves
alone, and no two share either. -/
structure GoodTasks (p : Platform) (rows : List GuardedRow) : Prop where
  ids : ∀ row ∈ rows, ∃ taskId, row.column "id" = .text taskId
  keys : ∀ row ∈ rows, ∃ key, row.column "idempotency_key" = .text key ∧
    redact p.alnum key = key ∧ strip key = key
  distinctIds : (rows.map (·.column "id")).Nodup
  distinctKeys : (rows.map (·.column "idempotency_key")).Nodup

/-- There is a task of this key with this id. -/
def HasTask (rows : List GuardedRow) (key taskId : String) : Prop :=
  ∃ row ∈ rows, row.column "id" = .text taskId ∧ row.column "idempotency_key" = .text key

/-- Rows stay at their places, with their ids and keys. -/
def KeepsTasks (rows after : List GuardedRow) : Prop :=
  ∀ (i : Nat) (row : GuardedRow), rows[i]? = some row → ∃ row' : GuardedRow,
    after[i]? = some row' ∧ row'.column "id" = row.column "id" ∧
      row'.column "idempotency_key" = row.column "idempotency_key"

theorem goodTasks_nil (p : Platform) : GoodTasks p [] :=
  ⟨by simp, by simp, List.nodup_nil, List.nodup_nil⟩

theorem KeepsTasks.refl (rows : List GuardedRow) : KeepsTasks rows rows :=
  fun _ row h => ⟨row, h, rfl, rfl⟩

theorem KeepsTasks.trans {later : List GuardedRow} (hFirst : KeepsTasks rows after)
    (hSecond : KeepsTasks after later) : KeepsTasks rows later := by
  intro i row hAt
  obtain ⟨mid, hMid, hId, hKey⟩ := hFirst i row hAt
  obtain ⟨last, hLast, hId', hKey'⟩ := hSecond i mid hMid
  exact ⟨last, hLast, hId'.trans hId, hKey'.trans hKey⟩

theorem HasTask.kept {key taskId : String} (h : HasTask rows key taskId)
    (hKeeps : KeepsTasks rows after) : HasTask after key taskId := by
  obtain ⟨row, hRow, hId, hKey⟩ := h
  obtain ⟨i, hAt⟩ := List.mem_iff_getElem?.mp hRow
  obtain ⟨row', hAt', hId', hKey'⟩ := hKeeps i row hAt
  exact ⟨row', List.mem_of_getElem? hAt', hId'.trans hId, hKey'.trans hKey⟩

/-- A column without repetitions determines the row. -/
theorem row_unique {column : GuardedRow → Value} (h : (rows.map column).Nodup)
    {a b : GuardedRow} (ha : a ∈ rows) (hb : b ∈ rows) (hSame : column a = column b) : a = b :=
  List.inj_on_of_nodup_map h ha hb hSame

/-- A key has one task. -/
theorem GoodTasks.task_unique (h : GoodTasks p rows) {key a b : String} (ha : HasTask rows key a)
    (hb : HasTask rows key b) : a = b := by
  obtain ⟨row, hRow, hId, hKey⟩ := ha
  obtain ⟨row', hRow', hId', hKey'⟩ := hb
  have hSame := row_unique h.distinctKeys hRow hRow' (hKey.trans hKey'.symm)
  rw [← hSame, hId, Value.text.injEq] at hId'
  exact hId'

/-- A task has one key. -/
theorem GoodTasks.key_unique (h : GoodTasks p rows) {row : GuardedRow} {key taskId : String}
    (hRow : row ∈ rows) (hId : row.column "id" = .text taskId) (hTask : HasTask rows key taskId) :
    row.column "idempotency_key" = .text key := by
  obtain ⟨row', hRow', hId', hKey'⟩ := hTask
  rw [row_unique h.distinctIds hRow hRow' (hId.trans hId'.symm)]
  exact hKey'

/-- What the constraints say of rows that have ids. -/
theorem goodTasks_of_constraints (h : taskConstraints rows = true)
    (hIds : ∀ row ∈ rows, ∃ taskId, row.column "id" = .text taskId)
    (hKeys : ∀ row ∈ rows, ∃ key, row.column "idempotency_key" = .text key ∧
      redact p.alnum key = key ∧ strip key = key) : GoodTasks p rows := by
  simp only [taskConstraints, Bool.and_eq_true, decide_eq_true_eq] at h
  obtain ⟨⟨hIdsNodup, hKeysNodup⟩, -⟩ := h
  refine ⟨hIds, hKeys, ?_, hKeysNodup⟩
  have hAll : (rows.map (·.column "id")).filter (· ≠ .null) = rows.map (·.column "id") := by
    rw [List.filter_eq_self]
    intro v hv
    obtain ⟨row, hRow, rfl⟩ := List.mem_map.mp hv
    obtain ⟨taskId, hId⟩ := hIds row hRow
    simp [hId]
  rwa [hAll] at hIdsNodup

end Tasks

section Steps

variable {p : Platform} {db db' : Database} {key taskId : String}

/-- A key that an engine reads back out of the redacted event is one that redaction
leaves alone. -/
theorem redact_of_extracted {alnum : Char → Bool}
    (h : key = redact alnum key ∨ key = beforeNul (redact alnum key)) :
    redact alnum key = key := by
  rcases h with h | h
  · exact h.symm
  · have hNoNul : ∀ c ∈ key.toList, c ≠ Char.ofNat 0 := by
      intro c hc
      rw [h, beforeNul, String.toList_ofList] at hc
      simpa using List.mem_takeWhile_imp hc
    have hKept : ∀ c ∈ redactChars alnum key.toList, c ≠ Char.ofNat 0 := by
      intro c hc
      rcases mem_redactChars hc with hc | hc
      · have hMarker : marker.all (fun c => c ≠ Char.ofNat 0) = true := by decide
        simpa using List.all_eq_true.mp hMarker c hc
      · exact hNoNul c hc
    have hWhole : beforeNul (redact alnum key) = redact alnum key := by
      have hTake : (redactChars alnum key.toList).takeWhile (· ≠ Char.ofNat 0) =
          redactChars alnum key.toList := by
        rw [List.takeWhile_eq_self_iff]
        intro c hc
        simpa using hKept c hc
      rw [beforeNul, redact, String.toList_ofList, hTake]
    exact (h.trans hWhole).symm

/-- A dispatched row has its id and its key, and its event has them too. -/
theorem dispatchedRow_lookup (kind phase role startedAt : String) :
    (dispatchedRow taskId key phase role startedAt).lookup "id" = some (.str taskId) ∧
      (dispatchedRow taskId key phase role startedAt).lookup "idempotency_key" =
        some (.str key) ∧
      walk ["row_snapshot", "idempotency_key"] (.obj (redactFields p.alnum
        (dispatchedPayload taskId key kind phase role startedAt))) =
          some (.str (redact p.alnum key)) := by
  refine ⟨rfl, rfl, ?_⟩
  simp [walk, Json.get?, getField?_redactFields, dispatchedPayload, getField?_dictOf, lookupLast,
    dispatchedRow, redactPayload]

theorem dispatchedPayload_normal (kind phase role startedAt : String) :
    (Json.obj (redactFields p.alnum
      (dispatchedPayload taskId key kind phase role startedAt))).Normal := by
  have hText : ∀ s, (Json.str s).Normal := fun _ => trivial
  have hNull : Json.null.Normal := trivial
  apply redactFields_normal
  rw [dispatchedPayload]
  apply normal_dictOf
  simp only [List.forall_mem_cons, hText, true_and]
  refine ⟨normal_dictOf ?_, by simp⟩
  simp only [dispatchedRow, List.forall_mem_cons, hText, hNull, true_and]
  simp

/-- The rows of `tasks` in a database after they were written. -/
@[simp] theorem tables_update (db : Database) (rows : List GuardedRow) :
    ({ db with tables := Function.update db.tables .tasks rows } : Database).tables .tasks =
      rows := by
  simp

/-- A dispatch that returns has added the only task of its key, which redaction
leaves alone. -/
theorem commitDispatch_eq_ok {now kind phase role startedAt : String} {u : Unit}
    (hGood : GoodTasks p (db.tables .tasks)) (hStripped : strip key = key)
    (h : commitDispatch p now db taskId key kind phase role startedAt = .ok (u, db')) :
    GoodTasks p (db'.tables .tasks) ∧ KeepsTasks (db.tables .tasks) (db'.tables .tasks) ∧
      HasTask (db'.tables .tasks) key taskId ∧ ∀ other, ¬HasTask (db.tables .tasks) key other := by
  simp only [commitDispatch, bind_eq_ok, pure_eq_ok, Prod.mk.injEq] at h
  obtain ⟨⟨event, mid⟩, hRecord, after, hInsert, -, rfl⟩ := h
  obtain ⟨e, -, hId, hPayload, rfl, rfl⟩ := recordEvent_appends hRecord
  obtain ⟨bound, hBound, hGuard, hAllows, rfl⟩ := insertTask_eq_ok hInsert
  obtain ⟨hIdColumn, hKeyColumn, hWalk⟩ :=
    @dispatchedRow_lookup p key taskId kind phase role startedAt
  have hRowId : (⟨bound, .int e.id⟩ : GuardedRow).column "id" = .text taskId := by
    rw [GuardedRow.column, lookup_bound_text hBound hIdColumn, Option.getD_some]
  have hRowKey : (⟨bound, .int e.id⟩ : GuardedRow).column "idempotency_key" = .text key := by
    rw [GuardedRow.column, lookup_bound_text hBound hKeyColumn, Option.getD_some]
  -- the trigger has found the event of this transaction, and its redacted key
  have hRedacted : redact p.alnum key = key := by
    obtain ⟨backing, hMem, hLinked⟩ := insert_linked hGuard
    have hSame : e.id = backing.id := by simpa using hLinked.event
    have hIs : backing = e := by
      rcases List.mem_append.mp hMem with hOld | hNew
      · have hLt := lt_nextEventId hOld
        omega
      · exact List.mem_singleton.mp hNew
    obtain ⟨v, hExtract, hMatch⟩ := hLinked.snapshot "idempotency_key" (by decide)
    rw [hRowKey, Value.text_is] at hMatch
    rw [hIs, hPayload, hMatch] at hExtract
    have hRead := p.engine.extracted _ _ _
      (dispatchedPayload_normal kind phase role startedAt) hExtract
    rw [hWalk] at hRead
    simp only [Extracted, Value.text.injEq] at hRead
    exact redact_of_extracted hRead
  have hAfter : GoodTasks p (db.tables .tasks ++ [⟨bound, .int e.id⟩]) := by
    refine goodTasks_of_constraints hAllows ?_ ?_
    · intro row hRow
      rcases List.mem_append.mp hRow with hRow | hRow
      · exact hGood.ids row hRow
      · exact ⟨taskId, List.mem_singleton.mp hRow ▸ hRowId⟩
    · intro row hRow
      rcases List.mem_append.mp hRow with hRow | hRow
      · exact hGood.keys row hRow
      · exact ⟨key, List.mem_singleton.mp hRow ▸ hRowKey, hRedacted, hStripped⟩
  rw [tables_update]
  refine ⟨hAfter, fun i row hAt => ⟨row, ?_, rfl, rfl⟩,
    ⟨_, List.mem_append_right _ (List.mem_singleton_self _), hRowId, hRowKey⟩, ?_⟩
  · exact (List.getElem?_append_left (List.getElem?_eq_some_iff.mp hAt).1).trans hAt
  · rintro other ⟨row, hRow, -, hKey⟩
    have hDistinct := hAfter.distinctKeys
    rw [List.map_append, List.nodup_append] at hDistinct
    exact hDistinct.2.2 _ (List.mem_map_of_mem hRow) _ (by simp) (hKey.trans hRowKey.symm)

/-- An update that leaves ids alone, and writes back the key of its task at most. -/
theorem updateTask_keeps {columns : List (String × Json)} {event : Int}
    (hGood : GoodTasks p (db.tables .tasks)) (hId : columns.lookup "id" = none)
    (hKey : columns.lookup "idempotency_key" = none ∨
      ∃ key, columns.lookup "idempotency_key" = some (.str key) ∧
        HasTask (db.tables .tasks) key taskId)
    (h : updateTask p.engine db taskId columns event = .ok db') :
    GoodTasks p (db'.tables .tasks) ∧ KeepsTasks (db.tables .tasks) (db'.tables .tasks) := by
  rcases updateTask_eq_ok h with rfl | ⟨bound, i, old, hBound, -, hAt, hOldId, -, hAllows, rfl⟩
  · exact ⟨hGood, .refl _⟩
  have hOld := List.mem_of_getElem? hAt
  have hNewId : (old.assign bound event).column "id" = old.column "id" := by
    have hNone := lookup_bindTaskColumns hBound "id"
    rw [hId] at hNone
    exact column_assign_of_none hNone event
  have hNewKey : (old.assign bound event).column "idempotency_key" =
      old.column "idempotency_key" := by
    rcases hKey with hNone | ⟨key, hSome, hTask⟩
    · have hBoundNone := lookup_bindTaskColumns hBound "idempotency_key"
      rw [hNone] at hBoundNone
      exact column_assign_of_none hBoundNone event
    · have hOldKey := hGood.key_unique hOld hOldId hTask
      rw [column_assign_of_some hOldKey (lookup_bound_text hBound hSome), hOldKey]
  have hRows : ∀ row ∈ (db.tables .tasks).set i (old.assign bound event),
      ∃ before ∈ db.tables .tasks, row.column "id" = before.column "id" ∧
        row.column "idempotency_key" = before.column "idempotency_key" := by
    intro row hRow
    rcases List.mem_or_eq_of_mem_set hRow with hRow | rfl
    · exact ⟨row, hRow, rfl, rfl⟩
    · exact ⟨old, hOld, hNewId, hNewKey⟩
  rw [tables_update]
  constructor
  · refine goodTasks_of_constraints hAllows (fun row hRow => ?_) fun row hRow => ?_
    · obtain ⟨before, hBefore, hSame, -⟩ := hRows row hRow
      rw [hSame]
      exact hGood.ids before hBefore
    · obtain ⟨before, hBefore, -, hSame⟩ := hRows row hRow
      rw [hSame]
      exact hGood.keys before hBefore
  · intro j row hRow
    by_cases hj : i = j
    · subst hj
      rw [hAt, Option.some.injEq] at hRow
      subst hRow
      exact ⟨_, List.getElem?_set_self (List.getElem?_eq_some_iff.mp hAt).1, hNewId, hNewKey⟩
    · exact ⟨row, by rw [List.getElem?_set_ne hj, hRow], rfl, rfl⟩

/-- The end of a task keeps every id and every key. -/
theorem commitEnd_keeps {now kind status finishedAt : String} {result : Json}
    {extra : List (String × Json)} {u : Unit} (hGood : GoodTasks p (db.tables .tasks))
    (h : commitEnd p now db taskId kind status finishedAt result extra = .ok (u, db')) :
    GoodTasks p (db'.tables .tasks) ∧ KeepsTasks (db.tables .tasks) (db'.tables .tasks) := by
  simp only [commitEnd, bind_eq_ok, pure_eq_ok, Prod.mk.injEq] at h
  obtain ⟨row, -, ⟨event, mid⟩, hRecord, after, hUpdate, -, rfl⟩ := h
  obtain ⟨e, -, -, -, -, rfl⟩ := recordEvent_appends hRecord
  exact @updateTask_keeps p (db.logged e) _ _ _ _ hGood rfl (.inl rfl) hUpdate

/-- A save of a stored task under its own key. -/
theorem commitSaveTask_keeps {now : String} {payload : Fields} {u : Unit}
    (hGood : GoodTasks p (db.tables .tasks)) (hTask : HasTask (db.tables .tasks) key taskId)
    (hKey : getField? "idempotency_key" payload = some (.str key))
    (h : commitSaveTask p now db taskId payload = .ok (u, db')) :
    GoodTasks p (db'.tables .tasks) ∧ KeepsTasks (db.tables .tasks) (db'.tables .tasks) := by
  simp only [commitSaveTask, bind_eq_ok, pure_eq_ok, Prod.mk.injEq] at h
  obtain ⟨columns, hColumns, ⟨event, mid⟩, hRecord, after, hWrite, -, rfl⟩ := h
  obtain ⟨e, -, -, -, -, rfl⟩ := recordEvent_appends hRecord
  have hStored : (findTask db taskId).isSome = true := by
    obtain ⟨row, hRow, hId, -⟩ := hTask
    rw [findTask, List.findIdx?_isSome, List.any_eq_true]
    exact ⟨row, hRow, Value.equals_text.mpr hId⟩
  have hRedacted : redact p.alnum key = key := by
    obtain ⟨row, hRow, -, hRowKey⟩ := hTask
    obtain ⟨other, hOther, hFixed⟩ := hGood.keys row hRow
    rw [hRowKey, Value.text.injEq] at hOther
    exact hOther ▸ hFixed.1
  have hSaved : columns.lookup "idempotency_key" = some (.str key) ∧
      columns.lookup "id" = none := by
    simp only [savedColumns, bind_eq_ok, pure_eq_ok] at hColumns
    obtain ⟨saved, hItem, rfl⟩ := hColumns
    simp only [Json.item, getField?_redactFields, hKey, Option.map_some, redactPayload,
      hRedacted, pure_eq_ok] at hItem
    subst hItem
    exact ⟨rfl, rfl⟩
  rw [hStored, saveTask, if_pos rfl] at hWrite
  exact @updateTask_keeps p (db.logged e) _ _ _ _ hGood hSaved.2 (.inr ⟨key, hSaved.1, hTask⟩)
    hWrite

/-- A task that is read shows the id and the key of its row. -/
theorem taskFields_eq_ok {row : GuardedRow} {more : List (String × Json)} {task : Fields}
    (hMore : lookupLast "id" more = none ∧ lookupLast "idempotency_key" more = none)
    (h : taskFields row more = .ok task) :
    getField? "id" task = some (row.column "id").toJson ∧
      getField? "idempotency_key" task = some (row.column "idempotency_key").toJson := by
  simp only [taskFields, bind_eq_ok, pure_eq_ok] at h
  obtain ⟨result, -, rfl⟩ := h
  have hId := getField?_setField_ne result
    (dictOf ((MutableTable.rowColumns .tasks).map (fun name => (name, (row.column name).toJson)) ++
      more)) (show "id" ≠ "result" by decide)
  have hKey := getField?_setField_ne result
    (dictOf ((MutableTable.rowColumns .tasks).map (fun name => (name, (row.column name).toJson)) ++
      more)) (show "idempotency_key" ≠ "result" by decide)
  rw [hId, hKey, getField?_dictOf, getField?_dictOf]
  simp only [MutableTable.rowColumns, List.map_cons, List.map_nil, List.cons_append,
    List.nil_append, lookupLast_cons, hMore.1, hMore.2]
  simp

/-- A task that is found by its key is the task of that key. -/
theorem findTaskByKey_eq_some {task : Fields} (hGood : GoodTasks p (db.tables .tasks))
    (h : findTaskByKey db key = .ok (some task)) :
    ∃ taskId, getField? "id" task = some (.str taskId) ∧
      HasTask (db.tables .tasks) key taskId := by
  unfold findTaskByKey at h
  split at h
  · simp at h
  · rename_i row hFind
    simp only [bind_eq_ok, pure_eq_ok, Option.some.injEq] at h
    obtain ⟨data, hData, rfl⟩ := h
    have hRow := List.mem_of_find?_eq_some hFind
    obtain ⟨taskId, hId⟩ := hGood.ids row hRow
    have hMatch : (row.column "idempotency_key").equals (.text key) = true := by
      simpa using List.find?_some hFind
    refine ⟨taskId, ?_, row, hRow, hId, Value.equals_text.mp hMatch⟩
    rw [getField?_setField_ne _ _ (by decide), (taskFields_eq_ok ⟨rfl, rfl⟩ hData).1, hId]
    rfl

/-- A task that is read has the id and the key of its row. -/
theorem getTask_eq_ok {task : Fields} (h : getTask db taskId = .ok task) :
    ∃ row ∈ db.tables .tasks, row.column "id" = .text taskId ∧
      getField? "id" task = some (.str taskId) ∧
      getField? "idempotency_key" task = some (row.column "idempotency_key").toJson := by
  rw [getTask, bind_eq_ok] at h
  obtain ⟨row, hStored, h⟩ := h
  unfold storedTask at hStored
  cases hFind : findTask db taskId with
  | none => simp [hFind] at hStored
  | some i =>
      obtain ⟨found, hAt, hId⟩ := findTask_eq_some hFind
      rw [hFind, Option.bind_some, hAt, pure_eq_ok] at hStored
      subst hStored
      obtain ⟨hTaskId, hTaskKey⟩ := taskFields_eq_ok ⟨rfl, rfl⟩ h
      rw [hId] at hTaskId
      exact ⟨found, List.mem_of_getElem? hAt, hId, hTaskId, hTaskKey⟩

end Steps

section Calls

variable {p : Platform} {db after : Database} {key taskId : String}

def Unchanged (db after : Database) : Prop :=
  after.tables .tasks = db.tables .tasks ∧ after.events = db.events

def taskAgreement (p : Platform) : Agreement Database where
  good db := GoodTasks p (db.tables .tasks)
  rely db after := KeepsTasks (db.tables .tasks) (after.tables .tasks)
  refl _ := .refl _
  trans hFirst hSecond := hFirst.trans hSecond

/-- Of the steps of a `begin`, only one that finds no task of its key changes anything;
it then adds one. -/
def TaskCall.guarantee (db after : Database) : TaskCall → Prop
  | .begin key .. => Unchanged db after ∨
      ((∀ taskId, ¬HasTask (db.tables .tasks) (strip key) taskId) ∧
        ∃ taskId, HasTask (after.tables .tasks) (strip key) taskId)
  | _ => True

/-- A `begin` returns the task of its key. -/
def TaskCall.post (db : Database) : Py Fields → TaskCall → Prop
  | .ok task, .begin key .. => ∃ taskId, getField? "id" task = some (.str taskId) ∧
      HasTask (db.tables .tasks) (strip key) taskId
  | _, _ => True

abbrev Runs (p : Platform) (call : TaskCall) (program : TaskLedger.TaskProgram) (db : Database) :
    Prop :=
  program.Guaranteed (answerTask p) (taskAgreement p) (fun db after => call.guarantee db after)
    (fun db result => call.post db result) db

/-- A step that changes nothing is one that a call may do. -/
theorem TaskCall.guarantee_of_unchanged {call : TaskCall} (h : Unchanged db after) :
    call.guarantee db after := by
  cases call with
  | begin key kind phase role => exact .inl h
  | _ => trivial

/-- A transaction that raises leaves all as it was. -/
theorem submit_unchanged {α : Type} {txn : Py (α × Database)} {e : PyError}
    (h : (submit db txn).1 = .error e) : (submit db txn).2 = db := by
  cases txn with
  | ok r => cases h
  | error e => rfl

theorem submit_guarded_ok {α : Type} {m : Moment} {txn : Py (α × Database)} {a : α}
    (h : (submit db (m.guarded txn)).1 = .ok a) :
    txn = .ok (a, (submit db (m.guarded txn)).2) := by
  unfold Moment.guarded at h ⊢
  cases hFault : m.fault with
  | some e =>
      rw [hFault] at h
      cases h
  | none =>
      simp only [hFault] at h ⊢
      cases txn with
      | ok r =>
          simp only [submit, Except.ok.injEq] at h ⊢
          rw [← h]
      | error e => cases h

/-- The steps that change neither tasks nor the log. -/
def TaskRequest.reads : TaskRequest → Bool
  | .clock | .findByKey _ | .nextId | .fetch _ => true
  | .dispatch .. | .finish .. | .block .. | .save .. => false

theorem answer_unchanged {request : TaskRequest} (h : request.reads = true) (m : Moment) :
    Unchanged db (answerTask p m db request).2 := by
  cases request with
  | clock => exact ⟨rfl, rfl⟩
  | findByKey key => exact ⟨rfl, rfl⟩
  | fetch taskId => exact ⟨rfl, rfl⟩
  | nextId =>
      simp only [answerTask, Moment.guarded]
      cases m.fault <;> exact ⟨rfl, rfl⟩
  | _ => cases h

/-- A read is a step that any call may do. -/
theorem runs_read {call : TaskCall} {request : TaskRequest}
    {next : TaskReply request → TaskLedger.TaskProgram} (hReads : request.reads = true)
    (h : ∀ m t, GoodTasks p (t.tables .tasks) → KeepsTasks (db.tables .tasks) (t.tables .tasks) →
      Runs p call (next (answerTask p m t request).1) t) :
    Runs p call (.call request next) db := by
  intro m t hGood hRely
  have hSame := @answer_unchanged p t request hReads m
  have hKeeps : KeepsTasks (t.tables .tasks) ((answerTask p m t request).2.tables .tasks) := by
    rw [hSame.1]
    exact .refl _
  refine ⟨?_, hKeeps, TaskCall.guarantee_of_unchanged hSame, ?_⟩
  · change GoodTasks p _
    rw [hSame.1]
    exact hGood
  · exact (h m t hGood hRely).stable hKeeps

/-- A transaction keeps the rows when what it commits does. -/
theorem submit_keeps {m : Moment} {txn : Py (Unit × Database)}
    (hGood : GoodTasks p (db.tables .tasks))
    (h : ∀ after, txn = .ok ((), after) → GoodTasks p (after.tables .tasks) ∧
      KeepsTasks (db.tables .tasks) (after.tables .tasks)) :
    GoodTasks p ((submit db (m.guarded txn)).2.tables .tasks) ∧
      KeepsTasks (db.tables .tasks) ((submit db (m.guarded txn)).2.tables .tasks) := by
  cases hResult : (submit db (m.guarded txn)).1 with
  | error e =>
      rw [submit_unchanged hResult]
      exact ⟨hGood, .refl _⟩
  | ok u => exact h _ (submit_guarded_ok hResult)

/-- Calls that promise nothing. -/
def TaskCall.Silent (call : TaskCall) : Prop :=
  (∀ db after, call.guarantee db after) ∧ ∀ db result, call.post db result

/-- A call that promises nothing may return anything. -/
theorem runs_returning {call : TaskCall} (hSilent : call.Silent) (reply : Py Unit) :
    Runs p call (TaskLedger.returning taskId reply) db := by
  cases reply with
  | error e => exact fun t _ _ => hSilent.2 t _
  | ok u => exact runs_read rfl fun m t _ _ => fun u _ _ => hSilent.2 u _

theorem finish_runs (taskId : String) (result : NormalJson) :
    Runs p (.finish taskId result) (TaskLedger.finish taskId result) db := by
  have hSilent : (TaskCall.finish taskId result).Silent :=
    ⟨fun _ _ => trivial, fun _ r => by cases r <;> trivial⟩
  refine runs_read rfl fun m t _ _ => fun m' t' hGood _ => ?_
  have hKeeps := @submit_keeps p t' m'
    (commitFinish p m'.now t' taskId result.val m.now) hGood fun after hOk => commitEnd_keeps hGood hOk
  exact ⟨hKeeps.1, hKeeps.2, hSilent.1 _ _, runs_returning hSilent _⟩

/-- Every step of `block_human` is one that it may do. -/
theorem blockHuman_runs (taskId : String) (reason : Option String) :
    Runs p (.blockHuman taskId reason) (TaskLedger.blockHuman taskId reason) db := by
  have hSilent : (TaskCall.blockHuman taskId reason).Silent :=
    ⟨fun _ _ => trivial, fun _ r => by cases r <;> trivial⟩
  refine runs_read rfl fun m t _ _ => fun m' t' hGood _ => ?_
  have hKeeps := @submit_keeps p t' m'
    (commitBlock p m'.now t' taskId reason m.now) hGood fun after hOk => commitEnd_keeps hGood hOk
  exact ⟨hKeeps.1, hKeeps.2, hSilent.1 _ _, runs_returning hSilent _⟩

/-- Other keys of an updated dictionary stay. -/
theorem getField?_updateFields_other {fields updates : Fields} {name : String}
    (h : lookupLast name updates = none) :
    getField? name (updateFields fields updates) = getField? name fields := by
  rw [updateFields, getField?_foldl, h, Option.none_or]

/-- A guarded write that returns has returned what it computes. -/
theorem guarded_eq_ok {α : Type} {m : Moment} {outcome : Py α} {a : α}
    (h : m.guarded outcome = .ok a) : outcome = .ok a := by
  unfold Moment.guarded at h
  cases hFault : m.fault with
  | some e => simp [hFault] at h
  | none => simpa [hFault] using h

theorem fail_runs (taskId : String) (result : NormalJson) :
    Runs p (.fail taskId result) (TaskLedger.fail taskId result) db := by
  have hSilent : (TaskCall.fail taskId result).Silent :=
    ⟨fun _ _ => trivial, fun _ r => by cases r <;> trivial⟩
  refine runs_read rfl fun m t hGood _ => ?_
  cases hFetch : (answerTask p m t (.fetch taskId)).1 with
  | error e => exact fun t _ _ => hSilent.2 t _
  | ok task =>
      -- the task that was read is the one that the save finds, under the key it had
      obtain ⟨row, hRow, hId, -, hKey⟩ := getTask_eq_ok (guarded_eq_ok hFetch)
      obtain ⟨key, hRowKey, -⟩ := hGood.keys row hRow
      rw [hRowKey] at hKey
      have hTask : HasTask (t.tables .tasks) key taskId := ⟨row, hRow, hId, hRowKey⟩
      refine runs_read rfl fun m' t' _ hRely => fun m'' t'' hGood' hRely' => ?_
      have hTask' : HasTask (t''.tables .tasks) key taskId := (hTask.kept hRely).kept hRely'
      have hPayload : getField? "idempotency_key" (updateFields task [("status", .str "failed"),
          ("finished_at", .str m'.now), ("result", result.val)]) = some (.str key) :=
        (getField?_updateFields_other (by simp [lookupLast])).trans hKey
      have hKeeps := @submit_keeps p t'' m'' (commitSaveTask p m''.now t'' taskId _) hGood'
        fun after hOk => commitSaveTask_keeps hGood' hTask' hPayload hOk
      exact ⟨hKeeps.1, hKeeps.2, hSilent.1 _ _, runs_returning hSilent _⟩

section Begin

variable {kind phase role : String}

/-- A task that `begin` finds is one to return. -/
theorem found_runs {m : Moment} {task : Fields} (hGood : GoodTasks p (db.tables .tasks))
    (h : (answerTask p m db (.findByKey (strip key))).1 = .ok (some task)) :
    Runs p (.begin key kind phase role) (.done (.ok task)) db := by
  obtain ⟨taskId, hId, hTask⟩ := findTaskByKey_eq_some hGood (guarded_eq_ok h)
  exact fun t _ hRely => ⟨taskId, hId, hTask.kept hRely⟩

theorem raised_runs (e : PyError) :
    Runs p (.begin key kind phase role) (.done (.error e)) db := fun _ _ _ => trivial

/-- The handler of `begin` looks for the task of its key again, or raises. -/
theorem recover_runs (e : PyError) :
    Runs p (.begin key kind phase role) (TaskLedger.recover (strip key) e) db := by
  refine runs_read rfl fun m t hGood _ => ?_
  cases hFind : (answerTask p m t (.findByKey (strip key))).1 with
  | error e => exact raised_runs e
  | ok found =>
      cases found with
      | none => exact raised_runs e
      | some task => exact found_runs hGood hFind

/-- The insert of `begin` adds the task of its key, or ends in the handler. -/
theorem dispatching_runs (startedAt : String) : Runs p (.begin key kind phase role)
    (TaskLedger.dispatching (strip key) kind phase role taskId startedAt) db := by
  intro m t hGood _
  cases hDispatch : (answerTask p m t
      (.dispatch taskId (strip key) kind phase role startedAt)).1 with
  | error e =>
      have hSame : (answerTask p m t
          (.dispatch taskId (strip key) kind phase role startedAt)).2 = t :=
        submit_unchanged hDispatch
      rw [hSame]
      exact ⟨hGood, .refl _, .inl ⟨rfl, rfl⟩, recover_runs e⟩
  | ok u =>
      obtain ⟨hAfter, hKeeps, hTask, hNone⟩ :=
        commitDispatch_eq_ok hGood (strip_strip key) (submit_guarded_ok hDispatch)
      refine ⟨hAfter, hKeeps, .inr ⟨hNone, taskId, hTask⟩, ?_⟩
      refine runs_read rfl fun m' t' _ hRely => ?_
      cases hFetch : (answerTask p m' t' (.fetch taskId)).1 with
      | error e => exact recover_runs e
      | ok task =>
          obtain ⟨-, -, -, hId, -⟩ := getTask_eq_ok (guarded_eq_ok hFetch)
          exact fun u _ hRely' => ⟨taskId, hId, (hTask.kept hRely).kept hRely'⟩

/-- A `begin` returns the task of its key, and adds one only where there is none. -/
theorem begin_runs : Runs p (.begin key kind phase role)
    (TaskLedger.begin key kind phase role) db := by
  unfold TaskLedger.begin
  split
  · exact raised_runs _
  · refine runs_read rfl fun m t hGood _ => ?_
    cases hFind : (answerTask p m t (.findByKey (strip key))).1 with
    | error e => exact raised_runs e
    | ok found =>
        cases found with
        | some task => exact found_runs hGood hFind
        | none =>
            refine runs_read rfl fun m' t' _ _ => ?_
            cases (answerTask p m' t' .nextId).1 with
            | error e => exact raised_runs e
            | ok taskId => exact runs_read rfl fun _ _ _ _ => dispatching_runs _

end Begin

theorem call_runs (call : TaskCall) : Runs p call call.program db := by
  cases call with
  | begin key kind phase role => exact begin_runs
  | finish taskId result => exact finish_runs taskId result
  | fail taskId result => exact fail_runs taskId result
  | blockHuman taskId reason => exact blockHuman_runs taskId reason

end Calls

section Ledger

variable {p : Platform}

abbrev TaskStore (p : Platform) := { db : Database // GoodTasks p (db.tables .tasks) }

def TaskStore.new (p : Platform) : TaskStore p := ⟨Database.empty, goodTasks_nil p⟩

/-- The key of a row is this one, stripped. -/
def GuardedRow.hasKey (row : GuardedRow) (key : String) : Bool :=
  match row.column "idempotency_key" with
  | .text stored => strip stored = strip key
  | _ => false

theorem GoodTasks.countP_le_one {rows : List GuardedRow} (h : GoodTasks p rows) (key : String) :
    rows.countP (·.hasKey key) ≤ 1 := by
  have hColumn : ∀ row ∈ rows, row.hasKey key = true →
      (row.column "idempotency_key" == .text (strip key)) = true := by
    intro row hRow hHas
    obtain ⟨stored, hStored, -, hStripped⟩ := h.keys row hRow
    simp only [GuardedRow.hasKey, hStored, decide_eq_true_eq] at hHas
    rw [hStored, ← hHas, hStripped, beq_self_eq_true]
  have hCount := List.nodup_iff_count_le_one.mp h.distinctKeys (.text (strip key))
  rw [List.count, List.countP_map] at hCount
  exact (List.countP_mono_left hColumn).trans hCount

theorem start_guaranteed (db : TaskStore p) (calls : List TaskCall) :
    (Ledger.start db.val calls).Guaranteed (answerTask p) (taskAgreement p)
      (fun call db after => call.guarantee db after) (fun call db result => call.post db result)
      where
  good := db.property
  refl _ _ := TaskCall.guarantee_of_unchanged ⟨rfl, rfl⟩
  threads t ht := by
    obtain ⟨call, -, rfl⟩ := List.mem_map.mp ht
    exact call_runs call

/-- The call at a position stays the same through a run. -/
theorem call_at {db : Database} {calls : List TaskCall} {moves : List (Nat × Moment)} {i : Nat}
    {call : TaskCall} {t : TaskCall × TaskLedger.TaskProgram} (hCall : calls[i]? = some call)
    (hAt : ((Ledger.start db calls).run (answerTask p) moves).threads[i]? = some t) :
    t.1 = call := by
  have hLabels : ((Ledger.start db calls).run (answerTask p) moves).threads.map (·.1) =
      (Ledger.start db calls).threads.map (·.1) := Pool.label_run _ _ moves
  have hLabel : (((Ledger.start db calls).run (answerTask p) moves).threads.map (·.1))[i]? =
      some t.1 := by
    rw [List.getElem?_map, hAt]
    rfl
  rw [hLabels, Ledger.start, List.map_map, List.getElem?_map, hCall] at hLabel
  exact (Option.some.inj hLabel).symm

/-- In every interleaving of calls: a stripped key has one row at most; calls of `begin`
with one stripped key that have returned have returned one id; and a step of a `begin`
changes neither tasks nor log, unless there is no task of its key and it adds one. -/
theorem begin_idempotent (p : Platform) (db : TaskStore p) (calls : List TaskCall)
    (moves : List (Nat × Moment)) :
    let ledger := (Ledger.start db.val calls).run (answerTask p) moves
    (∀ key, (ledger.store.tables .tasks).countP (·.hasKey key) ≤ 1) ∧
      (∀ (i j : Nat) (key key' kind kind' phase phase' role role' : String) (task task' : Fields),
        calls[i]? = some (.begin key kind phase role) →
        calls[j]? = some (.begin key' kind' phase' role') → strip key = strip key' →
        ledger.threads[i]?.map (·.2) = some (.done (.ok task)) →
        ledger.threads[j]?.map (·.2) = some (.done (.ok task')) →
        ∃ taskId, getField? "id" task = some (.str taskId) ∧
          getField? "id" task' = some (.str taskId)) ∧
      ∀ (i : Nat) (m : Moment) (key kind phase role : String),
        calls[i]? = some (.begin key kind phase role) →
        let after := (ledger.step (answerTask p) (i, m)).store
        Unchanged ledger.store after ∨
          ((∀ taskId, ¬HasTask (ledger.store.tables .tasks) (strip key) taskId) ∧
            ∃ taskId, HasTask (after.tables .tasks) (strip key) taskId) := by
  intro ledger
  obtain ⟨hRun, -⟩ := (start_guaranteed db calls).run moves
  have hGood : GoodTasks p (ledger.store.tables .tasks) := hRun.good
  refine ⟨hGood.countP_le_one, ?_, ?_⟩
  · intro i j key key' kind kind' phase phase' role role' task task' hi hj hKey hTask hTask'
    obtain ⟨t, hAt, hDone⟩ := Option.map_eq_some_iff.mp hTask
    obtain ⟨t', hAt', hDone'⟩ := Option.map_eq_some_iff.mp hTask'
    have hFirst : (.begin key kind phase role, .done (.ok task)) ∈ ledger.threads := by
      rw [← call_at hi hAt, ← hDone]
      exact List.mem_of_getElem? hAt
    have hSecond : (.begin key' kind' phase' role', .done (.ok task')) ∈ ledger.threads := by
      rw [← call_at hj hAt', ← hDone']
      exact List.mem_of_getElem? hAt'
    obtain ⟨taskId, hId, hHas⟩ := hRun.result hFirst
    obtain ⟨taskId', hId', hHas'⟩ := hRun.result hSecond
    refine ⟨taskId, hId, ?_⟩
    rw [hId', hGood.task_unique hHas (hKey ▸ hHas')]
  · intro i m key kind phase role hi after
    obtain ⟨-, -, hStep⟩ := hRun.step (i, m)
    cases hAt : ledger.threads[i]? with
    | none =>
        have hSame : ledger.step (answerTask p) (i, m) = ledger := by
          unfold Pool.step
          rw [hAt]
        exact .inl ⟨by simp only [after, hSame], by simp only [after, hSame]⟩
    | some t =>
        have hOwn := hStep t hAt
        rw [call_at hi hAt] at hOwn
        exact hOwn

end Ledger

end L0vi0x.Core.Store
