import L0vi0x.Core.GuardedTables
import L0vi0x.Sql.StrictEngine

/-! What the triggers of `hypotheses` keep of the lifecycle. No trigger guards a
`DELETE`, and none that an `UPDATE` keeps the id: where neither happens, a
hypothesis only moves along legal transitions. -/
namespace L0vi0x.Core.Store

open L0vi0x.Python L0vi0x.Sql

/-- A legal change of state and the event that records it. -/
structure Moved (engine : Engine) (events : List Event) (old new : HypothesisRow)
    (src dst : HState) : Prop where
  legal : dst ∈ Lifecycle.legalTransitions src
  before : old.state = .text src.text
  after : new.state = .text dst.text
  recorded : ∃ e ∈ events, e.entity = .text "hypothesis" ∧ e.entityId.equals old.id = true ∧
    new.lastEventId = .int e.id ∧ e.kind = .text "hyp_transition" ∧
    engine.jsonExtract e.payload ["from"] = some (.text src.text) ∧
    engine.jsonExtract e.payload ["to"] = some (.text dst.text)

/-- One change of a hypothesis row. -/
structure Advances (engine : Engine) (events : List Event) (old new : HypothesisRow) :
    Prop where
  id : new.id = old.id
  increases : ∃ i j, old.lastEventId = .int i ∧ new.lastEventId = .int j ∧ i < j
  state : new.state = old.state ∨ ∃ src dst, Moved engine events old new src dst

/-- A stored row names an event and one of the states. -/
structure Stored (row : HypothesisRow) : Prop where
  event : ∃ i, row.lastEventId = .int i
  state : ∃ s : HState, row.state = .text s.text

section Guards

variable {engine : Engine} {events : List Event}

/-- The trigger allows the transitions of the lifecycle, on the texts of states. -/
theorem isLegal_iff {src dst : Value} : isLegal src dst = true ↔
    ∃ s t, t ∈ Lifecycle.legalTransitions s ∧ src = .text s.text ∧ dst = .text t.text := by
  simp only [isLegal, List.any_eq_true, Bool.and_eq_true, Value.equals_text]
  constructor
  · rintro ⟨s, -, t, hLegal, hSrc, hDst⟩
    exact ⟨s, t, hLegal, hSrc, hDst⟩
  · rintro ⟨s, t, hLegal, hSrc, hDst⟩
    exact ⟨s, s.mem_all, t, hLegal, hSrc, hDst⟩

theorem backsHypothesis_event {kinds : List String} {id : Value} {row : HypothesisRow} {e : Event}
    (h : backsHypothesis engine kinds id row e = true) : row.lastEventId = .int e.id := by
  simp only [backsHypothesis, Bool.and_eq_true, decide_eq_true_eq] at h
  exact h.1.1.2

/-- The event that backs a transition is about its row, and holds both states. -/
theorem backsTransition_recorded {old new : HypothesisRow} {e : Event} {src dst : HState}
    (hSrc : old.state = .text src.text) (hDst : new.state = .text dst.text)
    (h : backsTransition engine old new e = true) :
    e.entity = .text "hypothesis" ∧ e.entityId.equals old.id = true ∧
      new.lastEventId = .int e.id ∧ e.kind = .text "hyp_transition" ∧
      engine.jsonExtract e.payload ["from"] = some (.text src.text) ∧
      engine.jsonExtract e.payload ["to"] = some (.text dst.text) := by
  simp only [backsTransition, hSrc, hDst, Bool.and_eq_true, decide_eq_true_eq, Value.equals_text,
    Option.any_eq_true] at h
  obtain ⟨⟨⟨⟨⟨hEntity, hId⟩, hEvent⟩, hKind⟩, v, hFrom, rfl⟩, w, hTo, rfl⟩ := h
  exact ⟨hEntity, hId, hEvent, hKind, hFrom, hTo⟩

/-- What the update triggers let through. -/
theorem update_advances {old new : HypothesisRow} (hId : new.id = old.id) (hOld : Stored old)
    (h : (hypothesisGuards engine).update events old new = true) :
    Advances engine events old new := by
  simp only [hypothesisGuards, Bool.and_eq_true, List.any_eq_true, Bool.not_eq_true',
    Bool.or_eq_true] at h
  obtain ⟨⟨hLess, e, -, hBacks⟩, hState⟩ := h
  obtain ⟨i, hi⟩ := hOld.event
  obtain ⟨s, hs⟩ := hOld.state
  have hEvent := backsHypothesis_event hBacks
  refine ⟨hId, ⟨i, e.id, hi, hEvent, ?_⟩, ?_⟩
  · rw [hi, hEvent, Value.lessEq_int, decide_eq_false_iff_not] at hLess
    omega
  · rcases hState with hSame | ⟨hLegal, moved, hMem, hMoved⟩
    · rw [hs, Value.text_is] at hSame
      exact .inl (hSame.trans hs.symm)
    · obtain ⟨src, dst, hIn, hSrc, hDst⟩ := isLegal_iff.mp hLegal
      exact .inr ⟨src, dst, hIn, hSrc, hDst, moved, hMem,
        backsTransition_recorded hSrc hDst hMoved⟩

theorem Advances.mono {later : List Event} (hSubset : ∀ e ∈ events, e ∈ later)
    {old new : HypothesisRow} (h : Advances engine events old new) :
    Advances engine later old new := by
  refine ⟨h.id, h.increases, h.state.imp_right ?_⟩
  rintro ⟨src, dst, hMoved⟩
  obtain ⟨e, hMem, hRecorded⟩ := hMoved.recorded
  exact ⟨src, dst, hMoved.legal, hMoved.before, hMoved.after, e, hSubset e hMem, hRecorded⟩

theorem open_not_legal : ∀ src, HState.open ∉ Lifecycle.legalTransitions src := by
  intro src
  cases src <;> simp [Lifecycle.legalTransitions]

/-- Along a chain of changes the id stays, the event grows and `OPEN` is never
entered. -/
theorem chain_advances {old new : HypothesisRow}
    (h : Relation.ReflTransGen (Advances engine events) old new) :
    new.id = old.id ∧
      (new = old ∨ ∃ i j, old.lastEventId = .int i ∧ new.lastEventId = .int j ∧ i < j) ∧
      (old.state ≠ .text HState.open.text → new.state ≠ .text HState.open.text) := by
  induction h with
  | refl => exact ⟨rfl, .inl rfl, id⟩
  | tail _ hStep ih =>
      obtain ⟨hId, hEvent, hOpen⟩ := ih
      obtain ⟨k, j, hk, hj, hkj⟩ := hStep.increases
      refine ⟨hStep.id.trans hId, .inr ?_, fun hOld => ?_⟩
      · rcases hEvent with rfl | ⟨i, k', hi, hk', hik⟩
        · exact ⟨k, j, hk, hj, hkj⟩
        · rw [hk'] at hk
          cases hk
          exact ⟨i, j, hi, hj, hik.trans hkj⟩
      · rcases hStep.state with hSame | ⟨src, dst, hMoved⟩
        · rw [hSame]
          exact hOpen hOld
        · rw [hMoved.after, Ne, Value.text.injEq]
          intro hText
          rw [HState.text_injective hText] at hMoved
          exact open_not_legal src hMoved.legal

end Guards

/-- The rows that the constraints and triggers let in. -/
structure Lifecycles (db : Database) : Prop where
  unique : ((db.hypotheses.map HypothesisRow.id).filter (· ≠ .null)).Nodup
  stored : ∀ row ∈ db.hypotheses, Stored row

/-- No statement deletes a hypothesis row or assigns one a different id. -/
def Write.Undisturbed (db : Database) : Write → Prop
  | .hypotheses (.delete positions) => ∀ i ∈ positions, db.hypotheses[i]? = none
  | .hypotheses (.update changes) => ∀ change ∈ changes, ∀ old,
      db.hypotheses[change.1]? = some old → change.2.id = old.id
  | _ => True

section Run

variable (engine : Engine) (allows : MutableTable → List GuardedRow → Bool)

/-- Every statement of a run leaves the rows and ids of `hypotheses` alone. -/
def UndisturbedRun : Database → List Write → Prop
  | _, [] => True
  | db, write :: rest =>
      write.Undisturbed db ∧ UndisturbedRun (write.apply engine allows db) rest

variable {engine allows} {db : Database}

/-- What one statement does to the rows of `hypotheses`. -/
theorem apply_hypotheses (write : Write) :
    (write.apply engine allows db).hypotheses = db.hypotheses ∨
      ∃ statement : Statement HypothesisRow, write = .hypotheses statement ∧
        statement.run (hypothesisGuards engine) db.events db.hypotheses =
          some (write.apply engine allows db).hypotheses := by
  cases write with
  | events statement => exact .inl rfl
  | guarded table statement => exact .inl rfl
  | hypotheses statement =>
      cases hRun : statement.run (hypothesisGuards engine) db.events db.hypotheses with
      | none => exact .inl (by simp [Write.apply, hRun])
      | some after => exact .inr ⟨statement, rfl, by simp [Write.apply, hRun]⟩

/-- A row that is inserted names its event and a state. -/
theorem insert_stored {events : List Event} {new : HypothesisRow}
    (h : (hypothesisGuards engine).insert events new = true) : Stored new := by
  simp only [hypothesisGuards, Bool.and_eq_true, List.any_eq_true, Value.equals_text] at h
  obtain ⟨hState, e, -, hBacks⟩ := h
  exact ⟨⟨e.id, backsHypothesis_event hBacks⟩, .open, hState⟩

/-- A row that is updated still names its event and a state. -/
theorem update_stored {events : List Event} {old new : HypothesisRow} (hOld : Stored old)
    (h : (hypothesisGuards engine).update events old new = true) : Stored new := by
  simp only [hypothesisGuards, Bool.and_eq_true, List.any_eq_true, Bool.or_eq_true] at h
  obtain ⟨⟨-, e, -, hBacks⟩, hState⟩ := h
  refine ⟨⟨e.id, backsHypothesis_event hBacks⟩, ?_⟩
  obtain ⟨s, hs⟩ := hOld.state
  rcases hState with hSame | ⟨hLegal, -⟩
  · rw [hs, Value.text_is] at hSame
    exact ⟨s, hSame⟩
  · obtain ⟨-, dst, -, -, hDst⟩ := isLegal_iff.mp hLegal
    exact ⟨dst, hDst⟩

theorem Lifecycles.apply (h : Lifecycles db) (write : Write) :
    Lifecycles (write.apply engine allows db) := by
  rcases @apply_hypotheses engine allows db write with
    hSame | ⟨statement, -, hRun⟩
  · exact ⟨hSame ▸ h.unique, hSame ▸ h.stored⟩
  · constructor
    · refine Statement.run_allows
        (fun rows => ((rows.map HypothesisRow.id).filter (· ≠ .null)).Nodup) ?_ ?_ hRun
      · intro rows hAllows
        rw [hypothesisGuards, Bool.and_eq_true, decide_eq_true_eq] at hAllows
        exact hAllows.1
      · intro kept hKept
        exact h.unique.sublist ((hKept.map _).filter _)
    · exact Statement.run_all (fun _ hNew => insert_stored hNew)
        (fun _ _ hOld hUpdate => update_stored hOld hUpdate) h.stored hRun

/-- Every run of statements keeps the rows let in. -/
theorem Lifecycles.run (h : Lifecycles db) (writes : List Write) :
    Lifecycles (runWrites engine allows db writes) := by
  induction writes generalizing db with
  | nil => exact h
  | cons write rest ih => exact ih (h.apply write)

/-- Changes that keep the id of a row advance it. -/
theorem changes_advances {events : List Event} {old new : HypothesisRow} (hOld : Stored old)
    (h : Relation.ReflTransGen
      (fun a b => Changes (hypothesisGuards engine) events a b ∧ b.id = a.id) old new) :
    Relation.ReflTransGen (Advances engine events) old new := by
  have hBoth : Relation.ReflTransGen (Advances engine events) old new ∧ Stored new := by
    induction h with
    | refl => exact ⟨.refl, hOld⟩
    | tail _ hStep ih =>
        exact ⟨ih.1.tail (update_advances hStep.2 ih.2 hStep.1), update_stored ih.2 hStep.1⟩
  exact hBoth.1

/-- A statement that leaves rows and ids alone advances each row where it is. -/
theorem Lifecycles.apply_row (h : Lifecycles db) {write : Write} (hWrite : write.Undisturbed db)
    {i : Nat} {row : HypothesisRow} (hRow : db.hypotheses[i]? = some row) :
    ∃ row', (write.apply engine allows db).hypotheses[i]? = some row' ∧
      Relation.ReflTransGen (Advances engine db.events) row row' := by
  rcases @apply_hypotheses engine allows db write with
    hSame | ⟨statement, rfl, hRun⟩
  · exact ⟨row, by rw [hSame, hRow], .refl⟩
  · obtain ⟨row', hAt, -, hChain⟩ := Statement.run_changes_view HypothesisRow.id
      (by rintro positions rfl; exact hWrite) (by rintro changes rfl; exact hWrite) hRun hRow
    exact ⟨row', hAt, changes_advances (h.stored row (List.mem_of_getElem? hRow)) hChain⟩

/-- A run that leaves rows and ids alone advances each row where it is. -/
theorem Lifecycles.run_row (h : Lifecycles db) {writes : List Write}
    (hRun : UndisturbedRun engine allows db writes) {i : Nat} {row : HypothesisRow}
    (hRow : db.hypotheses[i]? = some row) :
    ∃ row', (runWrites engine allows db writes).hypotheses[i]? = some row' ∧
      Relation.ReflTransGen (Advances engine (runWrites engine allows db writes).events)
        row row' := by
  induction writes generalizing db row with
  | nil => exact ⟨row, hRow, .refl⟩
  | cons write rest ih =>
      obtain ⟨hHere, hRest⟩ := hRun
      obtain ⟨mid, hMid, hFirst⟩ := @Lifecycles.apply_row engine allows db h _ hHere _ _ hRow
      obtain ⟨row', hAt, hMore⟩ := ih (h.apply write) hRest hMid
      have hLog := (@apply_keeps_events engine allows db write).trans
        (@run_keeps_events engine allows _ rest)
      have hFirst' := Relation.ReflTransGen.mono
        (fun _ _ hStep => Advances.mono hLog.subset hStep) _ _ hFirst
      exact ⟨row', hAt, hFirst'.trans hMore⟩

/-- A stored id names one row. -/
theorem Lifecycles.row_unique (h : Lifecycles db) {a b : HypothesisRow} (ha : a ∈ db.hypotheses)
    (hb : b ∈ db.hypotheses) (hId : a.id = b.id) (hNull : a.id ≠ .null) : a = b := by
  have hPairs : db.hypotheses.Pairwise
      fun x y => x.id ≠ .null → y.id ≠ .null → x.id ≠ y.id := by
    have hUnique := h.unique
    rw [List.Nodup, List.pairwise_filter, List.pairwise_map] at hUnique
    exact hUnique.imp fun hxy hx hy => hxy (by simpa using hx) (by simpa using hy)
  by_contra hNe
  have hSymm : Std.Symm (fun x y : HypothesisRow => x.id ≠ .null → y.id ≠ .null → x.id ≠ y.id) :=
    ⟨fun _ _ hxy hy hx hEq => hxy hx hy hEq.symm⟩
  exact hPairs.forall ha hb hNe hNull (hId ▸ hNull) hId

theorem lifecycles_empty : Lifecycles Database.empty where
  unique := List.nodup_nil
  stored := by
    rintro row hRow
    cases hRow

/-- A stored hypothesis stays, moves along recorded legal transitions with growing
events and never comes back to `OPEN`, as long as no statement deletes a row of
`hypotheses` or changes an id. -/
theorem hypotheses_advance (engine : Engine) (allows : MutableTable → List GuardedRow → Bool)
    (writes more : List Write)
    (hRun : UndisturbedRun engine allows (runWrites engine allows Database.empty writes) more) :
    let db := runWrites engine allows Database.empty writes
    let later := runWrites engine allows Database.empty (writes ++ more)
    ∀ row ∈ db.hypotheses, ∃ row' ∈ later.hypotheses, row'.id = row.id ∧
      (row.id ≠ .null → ∀ other ∈ later.hypotheses, other.id = row.id → other = row') ∧
      Relation.ReflTransGen (Advances engine later.events) row row' ∧
      (row' = row ∨ ∃ i j, row.lastEventId = .int i ∧ row'.lastEventId = .int j ∧ i < j) ∧
      (row.state ≠ .text HState.open.text → row'.state ≠ .text HState.open.text) := by
  intro db later row hMem
  have hLater : later = runWrites engine allows db more := by simp [later, db, runWrites]
  have hDb : Lifecycles db := lifecycles_empty.run writes
  obtain ⟨i, hAt⟩ := List.getElem?_of_mem hMem
  obtain ⟨row', hAt', hChain⟩ := hDb.run_row hRun hAt
  rw [← hLater] at hAt' hChain
  have hMem' := List.mem_of_getElem? hAt'
  obtain ⟨hId, hEvent, hOpen⟩ := chain_advances hChain
  refine ⟨row', hMem', hId, fun hNull other hOther hSame => ?_, hChain, hEvent, hOpen⟩
  have hUnique : Lifecycles later := lifecycles_empty.run (writes ++ more)
  exact hUnique.row_unique hOther hMem' (hSame.trans hId.symm) (hSame ▸ hNull)

end Run

section Removal

/-- The row snapshot of a hypothesis in some state. -/
def removalSnapshot (state : HState) : Json := .obj
  [("body", .str "{}"), ("id", .str "H-001"), ("lens", .null), ("prior_p", .null),
    ("protocol_type", .null), ("state", .str state.text)]

def removalRow (state : HState) (event : Int) : HypothesisRow :=
  ⟨.text "H-001", .text state.text, .null, .null, .null, .text "{}", .int event⟩

def removalEvent (id : Int) (kind : String) (payload : Json) : Event :=
  ⟨id, .text "2026-01-01T00:00:00Z", .text kind, .text "hypothesis", .text "H-001",
    .text payload.dumps⟩

def removalCreated : Json := .obj [("row_snapshot", removalSnapshot .open)]

def removalMoved : Json := .obj [("from", .str "OPEN"),
  ("row_snapshot", removalSnapshot .investigating), ("to", .str "INVESTIGATING")]

/-- A hypothesis is created and its investigation begins. -/
def removalWrites : List Write :=
  [.events (.insert [removalEvent 1 "hyp_created" removalCreated]),
    .hypotheses (.insert [removalRow .open 1]),
    .events (.insert [removalEvent 2 "hyp_transition" removalMoved]),
    .hypotheses (.update [(0, removalRow .investigating 2)])]

theorem extract_created (path : List String) :
    Engine.strict.jsonExtract (.text removalCreated.dumps) path =
      some (ofJson (walk path removalCreated)) :=
  Engine.strict_dumps (by decide) path

theorem extract_moved (path : List String) :
    Engine.strict.jsonExtract (.text removalMoved.dumps) path =
      some (ofJson (walk path removalMoved)) :=
  Engine.strict_dumps (by decide) path

/-- The triggers let the creation of the sample in. -/
theorem removal_insert {events : List Event}
    (hMem : removalEvent 1 "hyp_created" removalCreated ∈ events) :
    (hypothesisGuards Engine.strict).insert events (removalRow .open 1) = true := by
  rw [hypothesisGuards, Bool.and_eq_true, List.any_eq_true]
  refine ⟨by decide, _, hMem, ?_⟩
  simp only [backsHypothesis, matchesSnapshot, matchesPayload, removalEvent, extract_created]
  decide

/-- The triggers let the transition of the sample in. -/
theorem removal_update {events : List Event}
    (hMem : removalEvent 2 "hyp_transition" removalMoved ∈ events) :
    (hypothesisGuards Engine.strict).update events (removalRow .open 1)
      (removalRow .investigating 2) = true := by
  simp only [hypothesisGuards, Bool.and_eq_true, Bool.or_eq_true, List.any_eq_true]
  refine ⟨⟨by decide, _, hMem, ?_⟩, .inr ⟨by decide, _, hMem, ?_⟩⟩
  · simp only [backsHypothesis, matchesSnapshot, matchesPayload, removalEvent, extract_moved]
    decide
  · simp only [backsTransition, removalEvent, extract_moved]
    decide

/-- The constraints let the row of the sample in. -/
theorem removal_allows (s : HState) (i : Int) :
    (hypothesisGuards Engine.strict).allows [removalRow s i] = true := by
  cases s <;> simp [hypothesisGuards, removalRow, HState.all, Value.equals_text]

def removalLog : List Event :=
  [removalEvent 1 "hyp_created" removalCreated, removalEvent 2 "hyp_transition" removalMoved]

/-- After the first two statements the hypothesis is there. -/
theorem removal_opened (allows : MutableTable → List GuardedRow → Bool) :
    runWrites Engine.strict allows Database.empty (removalWrites.take 2) =
      ⟨removalLog.take 1, [removalRow .open 1], fun _ => [], []⟩ := by
  have hEvent : (Statement.insert [removalEvent 1 "hyp_created" removalCreated]).run eventGuards ()
      [] = some (removalLog.take 1) := Statement.run_insert_one rfl (by simp [eventGuards, removalEvent])
  have hRow : (Statement.insert [removalRow .open 1]).run (hypothesisGuards Engine.strict)
      (removalLog.take 1) [] = some [removalRow .open 1] :=
    Statement.run_insert_one (removal_insert (by simp [removalLog])) (removal_allows .open 1)
  simp only [removalWrites, List.take, runWrites, List.foldl, Write.apply, Database.empty, hEvent,
    Option.getD_some, hRow]

/-- After all statements the investigation has begun. -/
theorem removal_moved (allows : MutableTable → List GuardedRow → Bool) :
    runWrites Engine.strict allows Database.empty removalWrites =
      ⟨removalLog, [removalRow .investigating 2], fun _ => [], []⟩ := by
  have hSplit : removalWrites = removalWrites.take 2 ++ removalWrites.drop 2 := by simp
  have hEvent : (Statement.insert [removalEvent 2 "hyp_transition" removalMoved]).run eventGuards ()
      (removalLog.take 1) = some removalLog :=
    Statement.run_insert_one rfl (by simp [eventGuards, removalEvent, removalLog])
  have hRow : (Statement.update [(0, removalRow .investigating 2)]).run
      (hypothesisGuards Engine.strict) removalLog [removalRow .open 1] =
        some [removalRow .investigating 2] :=
    Statement.run_update_one rfl (removal_update (by simp [removalLog]))
      (removal_allows .investigating 2)
  rw [hSplit, runWrites, List.foldl_append]
  change runWrites _ _ (runWrites _ _ _ _) _ = _
  rw [removal_opened]
  simp only [removalWrites, List.drop, runWrites, List.foldl, Write.apply, hEvent,
    Option.getD_some, hRow]

theorem removal_undisturbed (allows : MutableTable → List GuardedRow → Bool) :
    UndisturbedRun Engine.strict allows
      (runWrites Engine.strict allows Database.empty (removalWrites.take 2))
      (removalWrites.drop 2) := by
  rw [removal_opened]
  refine ⟨trivial, ?_, trivial⟩
  intro change hChange old hOld
  rw [List.mem_singleton] at hChange
  subst hChange
  have hSame : removalRow .open 1 = old := by simpa [Write.apply] using hOld
  rw [← hSame]
  rfl

/-- The hypothesis that is opened and then investigated advances. -/
theorem investigated_advances : ∃ row',
    row' ∈ (runWrites Engine.strict (fun _ _ => true) Database.empty
      (removalWrites.take 2 ++ removalWrites.drop 2)).hypotheses ∧ row'.id = .text "H-001" ∧
    Relation.ReflTransGen (Advances Engine.strict (runWrites Engine.strict (fun _ _ => true)
      Database.empty (removalWrites.take 2 ++ removalWrites.drop 2)).events)
      (removalRow .open 1) row' := by
  obtain ⟨row', hMem, hId, -, hChain, -⟩ := hypotheses_advance Engine.strict (fun _ _ => true)
    (removalWrites.take 2) (removalWrites.drop 2) (removal_undisturbed _) (removalRow .open 1)
    (by rw [removal_opened]; exact List.mem_singleton_self _)
  exact ⟨row', hMem, hId, hChain⟩

/-- A row that has left `OPEN` is deleted and inserted again as `OPEN`, against the
event that created it. -/
theorem deleted_hypothesis_reopens : ¬ ∀ (engine : Engine)
    (allows : MutableTable → List GuardedRow → Bool) (writes more : List Write),
    ∀ row ∈ (runWrites engine allows Database.empty writes).hypotheses,
      ∃ row' ∈ (runWrites engine allows Database.empty (writes ++ more)).hypotheses,
        row'.id = row.id ∧ (row.state ≠ .text HState.open.text →
          row'.state ≠ .text HState.open.text) := by
  intro h
  have hMoved := removal_moved fun _ _ => true
  have hDelete : (Statement.delete [0]).run (hypothesisGuards Engine.strict) removalLog
      [removalRow .investigating 2] = some [] := rfl
  have hInsert : (Statement.insert [removalRow .open 1]).run (hypothesisGuards Engine.strict)
      removalLog [] = some [removalRow .open 1] :=
    Statement.run_insert_one (removal_insert (by simp [removalLog])) (removal_allows .open 1)
  have hAfter : (runWrites Engine.strict (fun _ _ => true) Database.empty (removalWrites ++
      [.hypotheses (.delete [0]), .hypotheses (.insert [removalRow .open 1])])).hypotheses =
        [removalRow .open 1] := by
    rw [runWrites, List.foldl_append]
    change (runWrites _ _ (runWrites _ _ _ _) _).hypotheses = _
    rw [hMoved]
    simp only [runWrites, List.foldl, Write.apply, hDelete, Option.getD_some, hInsert]
  obtain ⟨row', hMem, -, hOpen⟩ := h Engine.strict (fun _ _ => true) removalWrites
    [.hypotheses (.delete [0]), .hypotheses (.insert [removalRow .open 1])]
    (removalRow .investigating 2) (by rw [hMoved]; exact List.mem_singleton_self _)
  rw [hAfter, List.mem_singleton] at hMem
  subst hMem
  exact hOpen (by simp [removalRow, HState.text]) rfl

end Removal
end L0vi0x.Core.Store
