import L0vi0x.Core.StoreSchema

/-! What the triggers keep of the event log and of the guarded tables, over any
sequence of plain statements. -/
namespace L0vi0x.Core.Store

open L0vi0x.Python L0vi0x.Sql

section Guards

variable {engine : Engine} {table : MutableTable} {events : List Event}

/-- An event of the table's entity whose row snapshot is the row. -/
structure Linked (engine : Engine) (table : MutableTable) (row : GuardedRow) (e : Event) :
    Prop where
  entity : e.entity = .text table.canonical
  event : row.lastEventId = .int e.id
  snapshot : ∀ name ∈ table.rowColumns, ∃ v,
    engine.jsonExtract e.payload ["row_snapshot", name] = some v ∧ (row.column name).is v = true

/-- A change of a row: a later event, which updates the row that had the old key. -/
structure Changed (engine : Engine) (table : MutableTable) (events : List Event)
    (old new : GuardedRow) : Prop where
  increases : ∃ i j, old.lastEventId = .int i ∧ new.lastEventId = .int j ∧ i < j
  update : ∃ e ∈ events, Linked engine table new e ∧
    e.entityId.equals (engine.castText (old.column table.key)) = true ∧
    engine.jsonExtract e.payload ["entity_op"] = some (.text "update")

/-- A payload matches when `json_extract` gives a value that is the one asked for. -/
theorem matchesPayload_iff {e : Event} {path : List String} {value : Value} :
    matchesPayload engine e path value = true ↔
      ∃ v, engine.jsonExtract e.payload path = some v ∧ value.is v = true := by
  simp [matchesPayload, Option.any_eq_true]

/-- A row snapshot matches when it gives every column. -/
theorem matchesSnapshot_iff {e : Event} {columns : List (String × Value)} :
    matchesSnapshot engine e columns = true ↔ ∀ p ∈ columns, ∃ v,
      engine.jsonExtract e.payload ["row_snapshot", p.1] = some v ∧ p.2.is v = true := by
  simp [matchesSnapshot, matchesPayload_iff]

/-- An event backs a row that it is linked to, under its key and with its operation. -/
theorem backsRow_iff {op : String} {key : Value} {row : GuardedRow} {e : Event} :
    backsRow engine table op key row e = true ↔ Linked engine table row e ∧
      e.entityId.equals (engine.castText key) = true ∧
      engine.jsonExtract e.payload ["entity_op"] = some (.text op) := by
  simp only [backsRow, Bool.and_eq_true, Value.equals_text, decide_eq_true_eq,
    matchesSnapshot_iff, List.forall_mem_map, Option.any_eq_true]
  constructor
  · rintro ⟨⟨⟨⟨hEntity, hId⟩, hEvent⟩, v, hOp, rfl⟩, hSnapshot⟩
    exact ⟨⟨hEntity, hEvent, hSnapshot⟩, hId, hOp⟩
  · rintro ⟨⟨hEntity, hEvent, hSnapshot⟩, hId, hOp⟩
    exact ⟨⟨⟨⟨hEntity, hId⟩, hEvent⟩, _, hOp, rfl⟩, hSnapshot⟩

theorem Changed.mono {later : List Event} (hSubset : ∀ e ∈ events, e ∈ later)
    {old new : GuardedRow} (h : Changed engine table events old new) :
    Changed engine table later old new := by
  obtain ⟨e, hMem, hRest⟩ := h.update
  exact ⟨h.increases, e, hSubset e hMem, hRest⟩

variable {allows : MutableTable → List GuardedRow → Bool}

/-- A row that the triggers let in is linked to an event. -/
theorem insert_linked {new : GuardedRow}
    (h : (tableGuards engine allows table).insert events new = true) :
    ∃ e ∈ events, Linked engine table new e := by
  obtain ⟨e, hMem, hBacks⟩ := List.any_eq_true.mp h
  exact ⟨e, hMem, (backsRow_iff.mp hBacks).1⟩

/-- What the update trigger lets through, on a row that is linked to an event. -/
theorem update_changed {old new : GuardedRow} (hOld : ∃ e ∈ events, Linked engine table old e)
    (h : (tableGuards engine allows table).update events old new = true) :
    Changed engine table events old new := by
  simp only [tableGuards, Bool.and_eq_true, List.any_eq_true, Bool.not_eq_true'] at h
  obtain ⟨hLess, e, hMem, hBacks⟩ := h
  obtain ⟨before, -, hBefore⟩ := hOld
  obtain ⟨hLinked, hKey, hOp⟩ := backsRow_iff.mp hBacks
  refine ⟨⟨before.id, e.id, hBefore.event, hLinked.event, ?_⟩, e, hMem, hLinked, hKey, hOp⟩
  rw [hBefore.event, hLinked.event, Value.lessEq_int, decide_eq_false_iff_not] at hLess
  omega

/-- A row that was changed is linked to an event. -/
theorem Changed.linked {old new : GuardedRow} (h : Changed engine table events old new) :
    ∃ e ∈ events, Linked engine table new e := by
  obtain ⟨e, hMem, hLinked, -⟩ := h.update
  exact ⟨e, hMem, hLinked⟩

/-- A sequence of changes that the triggers let through is one that the log explains. -/
theorem changes_changed {old new : GuardedRow}
    (hOld : ∃ e ∈ events, Linked engine table old e)
    (h : Relation.ReflTransGen (Changes (tableGuards engine allows table) events) old new) :
    Relation.ReflTransGen (Changed engine table events) old new := by
  have hBoth : Relation.ReflTransGen (Changed engine table events) old new ∧
      ∃ e ∈ events, Linked engine table new e := by
    induction h with
    | refl => exact ⟨.refl, hOld⟩
    | tail _ hStep ih =>
        have hChanged := update_changed ih.2 hStep
        exact ⟨ih.1.tail hChanged, hChanged.linked⟩
  exact hBoth.1

/-- Along a chain of changes the event of the row only grows. -/
theorem chain_increases {old new : GuardedRow}
    (h : Relation.ReflTransGen (Changed engine table events) old new) :
    new = old ∨ ∃ i j, old.lastEventId = .int i ∧ new.lastEventId = .int j ∧ i < j := by
  induction h with
  | refl => exact .inl rfl
  | tail _ hStep ih =>
      obtain ⟨k, j, hk, hj, hkj⟩ := hStep.increases
      refine .inr ?_
      rcases ih with rfl | ⟨i, k', hi, hk', hik⟩
      · exact ⟨k, j, hk, hj, hkj⟩
      · rw [hk'] at hk
        cases hk
        exact ⟨i, j, hi, hj, hik.trans hkj⟩

end Guards

section Log

/-- A plain statement only appends to the log. -/
theorem events_extend {statement : Statement Event} {events after : List Event}
    (h : statement.run eventGuards () events = some after) : events <+: after := by
  rw [List.prefix_iff_getElem?]
  intro i hi
  obtain ⟨e, hAt, hChain⟩ := Statement.run_changes
    (Statement.delete_none (fun _ => rfl) h) h (List.getElem?_eq_getElem hi)
  rcases Relation.ReflTransGen.cases_tail hChain with hSame | ⟨_, -, hStep⟩
  · rw [hAt, hSame]
  · exact absurd hStep (by simp [Changes, eventGuards])

/-- A statement on the log leaves the ids of its events distinct. -/
theorem events_nodup {statement : Statement Event} {events after : List Event}
    (hNodup : (events.map Event.id).Nodup)
    (h : statement.run eventGuards () events = some after) : (after.map Event.id).Nodup := by
  refine Statement.run_allows (fun events => (events.map Event.id).Nodup) ?_ ?_ h
  · intro rows hAllows
    rw [eventGuards, Bool.and_eq_true, decide_eq_true_eq] at hAllows
    exact hAllows.1
  · intro kept hKept
    exact hNodup.sublist (hKept.map Event.id)

end Log

section Run

variable (engine : Engine) (allows : MutableTable → List GuardedRow → Bool)

/-- The database after a sequence of statements. -/
def runWrites (db : Database) (writes : List Write) : Database :=
  writes.foldl (Write.apply engine allows) db

/-- Every row of a guarded table is linked to an event, and no two events share an id. -/
structure EventFirst (db : Database) : Prop where
  unique : (db.events.map Event.id).Nodup
  linked : ∀ table, ∀ row ∈ db.tables table, ∃ e ∈ db.events, Linked engine table row e

theorem eventFirst_empty : EventFirst engine Database.empty where
  unique := List.nodup_nil
  linked := by
    rintro table row hRow
    cases hRow

variable {engine allows} {db : Database}

theorem apply_keeps_events (write : Write) :
    db.events <+: (write.apply engine allows db).events := by
  cases write with
  | events statement =>
      cases hRun : statement.run eventGuards () db.events with
      | none => simp [Write.apply, hRun]
      | some after => simpa [Write.apply, hRun] using events_extend hRun
  | hypotheses statement => exact List.prefix_refl _
  | guarded table statement => exact List.prefix_refl _

/-- What one statement does to the rows of a guarded table. -/
theorem apply_tables (write : Write) (table : MutableTable) :
    (write.apply engine allows db).tables table = db.tables table ∨
      ∃ statement : Statement GuardedRow, statement.run (tableGuards engine allows table) db.events
        (db.tables table) = some ((write.apply engine allows db).tables table) := by
  cases write with
  | events statement => exact .inl rfl
  | hypotheses statement => exact .inl rfl
  | guarded written statement =>
      by_cases hTable : table = written
      · subst hTable
        cases hRun : statement.run (tableGuards engine allows table) db.events
            (db.tables table) with
        | none => exact .inl (by simp [Write.apply, hRun])
        | some after => exact .inr ⟨statement, by simp [Write.apply, hRun]⟩
      · exact .inl (by simp [Write.apply, hTable])

theorem EventFirst.apply (h : EventFirst engine db) (write : Write) :
    EventFirst engine (write.apply engine allows db) := by
  have hEvents := @apply_keeps_events engine allows db write
  constructor
  · cases write with
    | events statement =>
        cases hRun : statement.run eventGuards () db.events with
        | none => simpa [Write.apply, hRun] using h.unique
        | some after => simpa [Write.apply, hRun] using events_nodup h.unique hRun
    | hypotheses statement => exact h.unique
    | guarded table statement => exact h.unique
  · intro table
    suffices hOld : ∀ row ∈ (write.apply engine allows db).tables table,
        ∃ e ∈ db.events, Linked engine table row e by
      intro row hRow
      obtain ⟨e, hMem, hLinked⟩ := hOld row hRow
      exact ⟨e, hEvents.subset hMem, hLinked⟩
    rcases @apply_tables engine allows db write table with
      hSame | ⟨statement, hRun⟩
    · rw [hSame]
      exact h.linked table
    · refine Statement.run_all (fun new hNew => insert_linked hNew) ?_ (h.linked table) hRun
      intro old new hOld hUpdate
      exact (update_changed hOld hUpdate).linked

/-- A statement changes a row only as the log explains. -/
theorem EventFirst.apply_row (h : EventFirst engine db) (write : Write) {table : MutableTable}
    {i : Nat} {row : GuardedRow} (hRow : (db.tables table)[i]? = some row) :
    ∃ row', ((write.apply engine allows db).tables table)[i]? = some row' ∧
      Relation.ReflTransGen (Changed engine table db.events) row row' := by
  rcases @apply_tables engine allows db write table with
    hSame | ⟨statement, hRun⟩
  · exact ⟨row, by rw [hSame, hRow], .refl⟩
  · have hDelete := Statement.delete_none (fun _ => rfl) hRun
    obtain ⟨row', hAt, hChain⟩ := Statement.run_changes hDelete hRun hRow
    exact ⟨row', hAt, changes_changed (h.linked table row (List.mem_of_getElem? hRow)) hChain⟩

/-- Every run of statements keeps rows linked to events. -/
theorem EventFirst.run (h : EventFirst engine db) (writes : List Write) :
    EventFirst engine (runWrites engine allows db writes) := by
  induction writes generalizing db with
  | nil => exact h
  | cons write rest ih => exact ih (h.apply write)

theorem run_keeps_events (writes : List Write) :
    db.events <+: (runWrites engine allows db writes).events := by
  induction writes generalizing db with
  | nil => exact List.prefix_refl _
  | cons write rest ih => exact (apply_keeps_events write).trans ih

theorem EventFirst.run_row (h : EventFirst engine db) (writes : List Write)
    {table : MutableTable} {i : Nat} {row : GuardedRow}
    (hRow : (db.tables table)[i]? = some row) :
    ∃ row', ((runWrites engine allows db writes).tables table)[i]? = some row' ∧
      Relation.ReflTransGen (Changed engine table (runWrites engine allows db writes).events)
        row row' := by
  induction writes generalizing db row with
  | nil => exact ⟨row, hRow, .refl⟩
  | cons write rest ih =>
      obtain ⟨mid, hMid, hFirst⟩ := @EventFirst.apply_row engine allows db h write _ _ _ hRow
      obtain ⟨row', hAt, hRest⟩ := ih (h.apply write) hMid
      have hLog := (@apply_keeps_events engine allows db write).trans
        (@run_keeps_events engine allows _ rest)
      have hFirst' := Relation.ReflTransGen.mono
        (fun _ _ hStep => Changed.mono hLog.subset hStep) _ _ hFirst
      exact ⟨row', hAt, hFirst'.trans hRest⟩

/-- At two moments of any sequence of plain statements: every row of a guarded
table agrees with the event that it names, that event stays as it is, and the row
stays and changes only with later update events of its old key. -/
theorem guarded_rows (engine : Engine) (allows : MutableTable → List GuardedRow → Bool)
    (writes more : List Write) :
    let db := runWrites engine allows Database.empty writes
    let later := runWrites engine allows Database.empty (writes ++ more)
    (∀ table, ∀ row ∈ db.tables table, ∃ e ∈ db.events, Linked engine table row e) ∧
      db.events <+: later.events ∧ (later.events.map Event.id).Nodup ∧
      ∀ (table : MutableTable) (i : Nat) (row : GuardedRow), (db.tables table)[i]? = some row →
        ∃ row', (later.tables table)[i]? = some row' ∧
          Relation.ReflTransGen (Changed engine table later.events) row row' ∧
          (row' = row ∨ ∃ before after, row.lastEventId = .int before ∧
            row'.lastEventId = .int after ∧ before < after) := by
  intro db later
  have hFirst : EventFirst engine db := (eventFirst_empty engine).run writes
  have hLater : later = runWrites engine allows db more := by
    simp [later, db, runWrites]
  refine ⟨hFirst.linked, hLater ▸ run_keeps_events more,
    ((eventFirst_empty engine).run (writes ++ more)).unique, ?_⟩
  intro table i row hRow
  obtain ⟨row', hAt, hChain⟩ := @EventFirst.run_row engine allows db hFirst more _ _ _ hRow
  rw [← hLater] at hAt hChain
  exact ⟨row', hAt, hChain, chain_increases hChain⟩

end Run
end L0vi0x.Core.Store
