import Mathlib.Logic.Relation
import L0vi0x.Core.Ladder

/-! A ladder that only awards have built is closed: every level stands on the
levels that it presupposes. -/
namespace L0vi0x.Core.Ladder

open L0vi0x.Python

/-- An axis is held numerically at a level or above. -/
def Holds (ladder : LadderMap) (axis : String) (level : Int) : Prop :=
  ∃ i, level ≤ i ∧ ladder.lookup axis = some (.int i)

/-- One level presupposes another, as the table lists it. -/
def Requires (a b : String × Int) : Prop := b ∈ predecessorsOf a.1 a.2

section Award

variable {host : Host} {secret : Bytes} {ladder : LadderMap} {axis : String}

/-- A check of all items accepts when it accepts each of them. -/
theorem allM_eq_true {α : Type} {p : α → Py Bool} {xs : List α} :
    xs.allM p = .ok true ↔ ∀ x ∈ xs, p x = .ok true := by
  induction xs with
  | nil => simp [List.allM, pure, Except.pure]
  | cons x xs ih =>
      rw [List.allM, bind_eq_ok, List.forall_mem_cons, ← ih]
      constructor
      · rintro ⟨b, hx, hRest⟩
        cases b with
        | false => simp [pure, Except.pure] at hRest
        | true => exact ⟨hx, hRest⟩
      · rintro ⟨hx, hRest⟩
        exact ⟨true, hx, hRest⟩

/-- `_held_at` finds what is held numerically. -/
theorem heldAt_eq_true {level : Int} (hInt : ∀ s, ladder.lookup axis = some (.text s) →
    s = "not_applicable") : heldAt ladder axis level = .ok true ↔ Holds ladder axis level := by
  unfold heldAt Holds
  cases hLookup : ladder.lookup axis with
  | none => simp [pure, Except.pure]
  | some current =>
      cases current with
      | int i =>
          simp only [LadderLevel.notApplicable, reduceCtorEq, ↓reduceIte, LadderLevel.toInt,
            LadderLevel.json, Json.toInt]
          simp [pure, Except.pure, bind, Except.bind]
      | text s =>
          obtain rfl := hInt s hLookup
          simp [LadderLevel.notApplicable, pure, Except.pure]

/-- A level is read as the sentinel, or as a number that its axis has. -/
theorem asLevel_eq_ok {level value : LadderLevel} :
    asLevel axis level = .ok value ↔
      (level = .notApplicable ∧ value = .notApplicable) ∨
      (level ≠ .notApplicable ∧ ∃ i, level.toInt = .ok i ∧ i ∈ levelsOf axis ∧ value = .int i) := by
  unfold asLevel
  split
  · rename_i hNot
    rw [pure_eq_ok]
    simp [hNot, eq_comm]
  · rename_i hNot
    simp only [bind_eq_ok, except_eq_ok, raise_ne_ok, and_false, exists_false, or_false,
      raiseIf_eq_ok, pure_eq_ok, Bool.not_eq_false', List.contains_iff_mem, hNot, false_and,
      false_or, ne_eq, not_false_eq_true, true_and]
    constructor
    · rintro ⟨i, hi, _, hMem, rfl⟩
      exact ⟨i, hi, hMem, rfl⟩
    · rintro ⟨i, hi, hMem, rfl⟩
      exact ⟨i, hi, (), hMem, rfl⟩

/-- An accepted award is one that `validate` and the monotonicity rules pass. -/
theorem award_eq_ok {token : Option DriverToken} {h h' : HypothesisRecord}
    {level : LadderLevel} {proof : Option LadderProof}
    (hAward : award host secret token (some h) axis level proof = .ok (true, some h')) :
    (∃ artifacts, validate host secret token (some h) axis level proof = .ok (true, artifacts)) ∧
      checkLadder h.ladder axis level = .ok true ∧
      ∃ value, awarded level = .ok value ∧
        h' = { h with ladder := h.ladder.insert axis value } := by
  rw [award, bind_eq_ok] at hAward
  obtain ⟨ok, hOk, hAward⟩ := hAward
  cases ok with
  | false => simp [pure, Except.pure] at hAward
  | true =>
      simp only [Bool.not_true, Bool.false_eq_true, ↓reduceIte, bind_eq_ok, pure_eq_ok,
        Prod.mk.injEq, true_and, Option.some.injEq] at hAward
      rw [validateAward, bind_eq_ok] at hOk
      obtain ⟨⟨valid, artifacts⟩, hValid, hOk⟩ := hOk
      cases valid with
      | false => simp [pure, Except.pure] at hOk
      | true =>
          obtain ⟨value, hValue, rfl⟩ := hAward
          exact ⟨⟨artifacts, hValid⟩, by simpa using hOk, value, hValue, rfl⟩

/-- What `validate` has established about the level and the proof. -/
theorem validate_eq_ok {token : Option DriverToken} {h : Option HypothesisRecord}
    {level : LadderLevel} {proof : Option LadderProof} {artifacts : List String}
    (hValid : validate host secret token h axis level proof = .ok (true, artifacts)) :
    ∃ value shown, asLevel axis level = .ok value ∧ proof = some shown ∧ shown.axis = axis ∧
      shown.level = value ∧ proofHolds host h axis value shown artifacts = .ok true := by
  rw [validate, bind_eq_ok] at hValid
  obtain ⟨valid, _, hValid⟩ := hValid
  rw [bind_eq_ok] at hValid
  obtain ⟨_, _, hValid⟩ := hValid
  rw [bind_eq_ok] at hValid
  obtain ⟨_, _, hValid⟩ := hValid
  rw [bind_eq_ok] at hValid
  obtain ⟨value, hValue, hValid⟩ := hValid
  cases proof with
  | none => simp [pure, Except.pure] at hValid
  | some shown =>
      by_cases hShown : shown.axis ≠ axis ∨ shown.level ≠ value
      · simp [hShown, pure, Except.pure] at hValid
      · simp only [hShown, ↓reduceIte, bind_eq_ok, pure_eq_ok, Prod.mk.injEq] at hValid
        obtain ⟨_, _, holds, hHolds, rfl, rfl⟩ := hValid
        push Not at hShown
        exact ⟨value, shown, hValue, rfl, hShown.1, hShown.2, hHolds⟩

/-- From level 6 on, a proof that holds has a certificate that verified. -/
theorem proofHolds_certified {h : Option HypothesisRecord} {i : Int} {proof : LadderProof}
    {artifacts : List String} (hLevel : 6 ≤ i)
    (hHolds : proofHolds host h axis (.int i) proof artifacts = .ok true) :
    ∃ certificate key, proof.certificate = some certificate ∧ proof.key = some key ∧
      Certificates.verify host certificate key (binding proof i) = .ok true := by
  rw [proofHolds] at hHolds
  split at hHolds
  · simp [pure, Except.pure] at hHolds
  · rw [bind_eq_ok] at hHolds
    obtain ⟨verified, hVerified, hHolds⟩ := hHolds
    cases verified with
    | false => simp [pure, Except.pure] at hHolds
    | true =>
        rw [levelCertified, if_pos hLevel, certified] at hVerified
        split at hVerified
        · rename_i certificate key hCertificate hKey
          split at hVerified
          · rw [bind_eq_ok] at hVerified
            obtain ⟨verified, hVerify, hVerified⟩ := hVerified
            rw [pure_eq_ok, Bool.and_eq_true] at hVerified
            exact ⟨certificate, key, hCertificate, hKey, hVerified.1 ▸ hVerify⟩
          · simp [pure, Except.pure] at hVerified
        · simp [pure, Except.pure] at hVerified

/-- The monotonicity rules, for the sentinel and for a number. -/
theorem checkLadder_notApplicable
    (hCheck : checkLadder ladder axis .notApplicable = .ok true) :
    ladder.lookup axis = none ∨ ladder.lookup axis = some .notApplicable := by
  simp only [checkLadder, ↓reduceIte, bind_eq_ok, raiseIf_eq_ok] at hCheck
  obtain ⟨_, hAny, _⟩ := hCheck
  cases hLookup : ladder.lookup axis with
  | none => exact .inl rfl
  | some current => exact .inr (by simpa [hLookup] using hAny)

/-- A number that is accepted is above the current one, on an axis that is applicable. -/
theorem checkLadder_number {level : LadderLevel} {i : Int} (hNot : level ≠ .notApplicable)
    (hInt : level.toInt = .ok i) (hCheck : checkLadder ladder axis level = .ok true) :
    ladder.lookup axis ≠ some .notApplicable ∧
      ∃ current, (ladder.lookup axis).elim (pure 0) LadderLevel.toInt = .ok current ∧
        current ≤ i ∧ (current < i → prerequisitesSatisfied ladder axis i = .ok true) := by
  simp only [checkLadder, hNot, ↓reduceIte, bind_eq_ok, raiseIf_eq_ok, decide_eq_false_iff_not,
    hInt] at hCheck
  obtain ⟨_, hMarked, current, hCurrent, i', hi, _, hLe, hCheck⟩ := hCheck
  cases hi
  refine ⟨hMarked, current, hCurrent, not_lt.mp hLe, fun hLt => ?_⟩
  rw [if_pos hLt, bind_eq_ok] at hCheck
  obtain ⟨satisfied, hSatisfied, hCheck⟩ := hCheck
  cases satisfied with
  | true => exact hSatisfied
  | false => simp [map_eq_ok] at hCheck

end Award

structure Award where
  token : Option DriverToken
  axis : String
  level : LadderLevel
  proof : Option LadderProof

/-- The hypothesis after a call; a call that raises or returns `False` leaves it. -/
def Award.apply (host : Host) (secret : Bytes) (h : HypothesisRecord) (a : Award) :
    HypothesisRecord :=
  match award host secret a.token (some h) a.axis a.level a.proof with
  | .ok (true, some h') => h'
  | _ => h

def run (host : Host) (secret : Bytes) (h : HypothesisRecord) (calls : List Award) :
    HypothesisRecord :=
  calls.foldl (Award.apply host secret) h

/-- The proof of a call has a certificate that verifies under its key and values. -/
def Award.Certified (host : Host) (a : Award) (level : Int) : Prop :=
  ∃ proof certificate key, a.proof = some proof ∧ proof.certificate = some certificate ∧
    proof.key = some key ∧
    Certificates.verify host certificate key (binding proof level) = .ok true

/-- What an accepted award of a number has passed. -/
structure Raises (host : Host) (ladder : LadderMap) (a : Award) (i : Int) : Prop where
  toInt : a.level.toInt = .ok i
  listed : i ∈ levelsOf a.axis
  unmarked : ladder.lookup a.axis ≠ some .notApplicable
  above : ∃ current, (ladder.lookup a.axis).elim (pure 0) LadderLevel.toInt = .ok current ∧
    current ≤ i ∧ (current < i → prerequisitesSatisfied ladder a.axis i = .ok true)
  certified : 6 ≤ i → a.Certified host i

/-- What one call can do to a ladder. -/
inductive Step (host : Host) (ladder : LadderMap) (a : Award) : LadderMap → Prop where
  | refused : Step host ladder a ladder
  | marked (hFree : ladder.lookup a.axis = none ∨ ladder.lookup a.axis = some .notApplicable) :
      Step host ladder a (ladder.insert a.axis .notApplicable)
  | raised (i : Int) (hRaises : Raises host ladder a i) :
      Step host ladder a (ladder.insert a.axis (.int i))

/-- Every call of `award` is a step of the ladder. -/
theorem Award.step (host : Host) (secret : Bytes) (h : HypothesisRecord) (a : Award) :
    Step host h.ladder a (a.apply host secret h).ladder := by
  unfold Award.apply
  split
  · rename_i h' hAward
    obtain ⟨⟨artifacts, hValid⟩, hCheck, value, hValue, rfl⟩ := award_eq_ok hAward
    obtain ⟨asked, shown, hAsked, hProof, -, -, hHolds⟩ := validate_eq_ok hValid
    rcases asLevel_eq_ok.mp hAsked with ⟨hLevel, rfl⟩ | ⟨hLevel, i, hInt, hListed, rfl⟩
    · rw [hLevel] at hValue hCheck
      simp only [awarded, ↓reduceIte, pure_eq_ok] at hValue
      rw [← hValue]
      exact .marked (checkLadder_notApplicable hCheck)
    · simp only [awarded, hLevel, ↓reduceIte, hInt, bind_eq_ok, pure_eq_ok] at hValue
      obtain ⟨i', hi, rfl⟩ := hValue
      cases hi
      obtain ⟨hUnmarked, hAbove⟩ := checkLadder_number hLevel hInt hCheck
      refine .raised i ⟨hInt, hListed, hUnmarked, hAbove, fun hSix => ?_⟩
      obtain ⟨certificate, key, hCertificate, hKey, hVerify⟩ := proofHolds_certified hSix hHolds
      exact ⟨shown, certificate, key, hProof, hCertificate, hKey, hVerify⟩
  · exact .refused

/-- Every level is one that its axis has, and whatever it presupposes is held. -/
structure Closed (ladder : LadderMap) : Prop where
  levels : ∀ axis value, ladder.lookup axis = some value →
    value = .notApplicable ∨ ∃ i, value = .int i ∧ i ∈ levelsOf axis
  held : ∀ a b, Requires a b → Holds ladder a.1 a.2 → Holds ladder b.1 b.2

/-- A later ladder keeps what an earlier one held, and its sentinels. -/
structure Extends (before after : LadderMap) : Prop where
  number : ∀ axis i, before.lookup axis = some (.int i) →
    ∃ j, i ≤ j ∧ after.lookup axis = some (.int j)
  sentinel : ∀ axis, before.lookup axis = some .notApplicable →
    after.lookup axis = some .notApplicable

theorem Extends.refl (ladder : LadderMap) : Extends ladder ladder :=
  ⟨fun _ i h => ⟨i, le_refl i, h⟩, fun _ h => h⟩

theorem Extends.trans {a b c : LadderMap} (hab : Extends a b) (hbc : Extends b c) :
    Extends a c := by
  constructor
  · intro axis i h
    obtain ⟨j, hij, hj⟩ := hab.number axis i h
    obtain ⟨k, hjk, hk⟩ := hbc.number axis j hj
    exact ⟨k, hij.trans hjk, hk⟩
  · intro axis h
    exact hbc.sentinel axis (hab.sentinel axis h)

/-- What was held is held in a later ladder. -/
theorem Extends.holds {before after : LadderMap} (h : Extends before after) {axis : String}
    {level : Int} (hHolds : Holds before axis level) : Holds after axis level := by
  obtain ⟨i, hLe, hi⟩ := hHolds
  obtain ⟨j, hij, hj⟩ := h.number axis i hi
  exact ⟨j, hLe.trans hij, hj⟩

/-- A write that keeps the old level of its axis, or raises it, extends a ladder. -/
theorem extends_insert {ladder : LadderMap} {axis : String} {value : LadderLevel}
    (hNumber : ∀ i, ladder.lookup axis = some (.int i) → ∃ j, i ≤ j ∧ value = .int j)
    (hSentinel : ladder.lookup axis = some .notApplicable → value = .notApplicable) :
    Extends ladder (ladder.insert axis value) := by
  constructor
  · intro other i h
    by_cases hAxis : other = axis
    · subst hAxis
      obtain ⟨j, hij, rfl⟩ := hNumber i h
      exact ⟨j, hij, AList.lookup_insert _⟩
    · exact ⟨i, le_refl i, by rw [AList.lookup_insert_ne hAxis, h]⟩
  · intro other h
    by_cases hAxis : other = axis
    · subst hAxis
      rw [AList.lookup_insert, hSentinel h]
    · rw [AList.lookup_insert_ne hAxis, h]

/-- Below a level that has prerequisites of its own lies one that they name: the
table leaves no gap on an axis. -/
theorem predecessors_chain : ∀ row ∈ predecessors, ∀ i ∈ levelsOf row.1, ∀ lower ∈ row.2,
    lower.1 < i → ∃ p ∈ predecessorsOf row.1 i, p.1 = row.1 ∧ lower.1 ≤ p.2 := by
  decide

theorem predecessors_positive : ∀ row ∈ predecessors, ∀ lower ∈ row.2, 0 < lower.1 := by
  decide

theorem mem_of_lookup {α β : Type} [BEq α] [LawfulBEq α] {rows : List (α × β)} {key : α}
    {value : β} (h : rows.lookup key = some value) : (key, value) ∈ rows := by
  obtain ⟨before, after, rfl, -⟩ := List.lookup_eq_some_iff.mp h
  simp

/-- The rows of the tables behind a prerequisite. -/
theorem Requires.row {a b : String × Int} (h : Requires a b) :
    ∃ row ∈ predecessors, row.1 = a.1 ∧ ∃ lower ∈ row.2, lower.1 = a.2 := by
  unfold Requires predecessorsOf at h
  cases hRow : predecessors.lookup a.1 with
  | none => simp [hRow] at h
  | some levels =>
      rw [hRow, Option.getD_some] at h
      cases hLower : levels.lookup a.2 with
      | none => simp [hLower] at h
      | some required =>
          exact ⟨(a.1, levels), mem_of_lookup hRow, rfl, (a.2, required),
            mem_of_lookup hLower, rfl⟩

/-- A closed ladder has no other text than the sentinel. -/
theorem Closed.texts {ladder : LadderMap} (h : Closed ladder) {axis s : String}
    (hLookup : ladder.lookup axis = some (.text s)) : s = "not_applicable" := by
  rcases h.levels axis _ hLookup with hText | ⟨i, hInt, -⟩
  · simpa [LadderLevel.notApplicable] using hText
  · cases hInt

theorem Closed.empty : Closed ∅ := by
  constructor
  · intro axis value h
    rw [AList.lookup_empty] at h
    cases h
  · rintro a b - ⟨i, -, h⟩
    rw [AList.lookup_empty] at h
    cases h

section Step

variable {host : Host} {ladder after : LadderMap} {a : Award} {i : Int}

/-- The number that the monotonicity rules compare with is the level held. -/
theorem Raises.current (h : Raises host ladder a i) (hClosed : Closed ladder) :
    (ladder.lookup a.axis = none ∧
        (0 < i → prerequisitesSatisfied ladder a.axis i = .ok true)) ∨
      ∃ current, ladder.lookup a.axis = some (.int current) ∧ current ≤ i ∧
        (current < i → prerequisitesSatisfied ladder a.axis i = .ok true) := by
  obtain ⟨current, hCurrent, hLe, hAbove⟩ := h.above
  cases hLookup : ladder.lookup a.axis with
  | none =>
      rw [hLookup, Option.elim_none, pure_eq_ok] at hCurrent
      rw [← hCurrent] at hAbove
      exact .inl ⟨rfl, hAbove⟩
  | some value =>
      cases value with
      | int c =>
          rw [hLookup, Option.elim_some] at hCurrent
          obtain rfl : c = current := by simpa [LadderLevel.toInt, LadderLevel.json, Json.toInt]
            using hCurrent
          exact .inr ⟨c, rfl, hLe, hAbove⟩
      | text s =>
          obtain rfl := hClosed.texts hLookup
          exact absurd hLookup h.unmarked

/-- An accepted number keeps what was held. -/
theorem Raises.extends (h : Raises host ladder a i) (hClosed : Closed ladder) :
    Extends ladder (ladder.insert a.axis (.int i)) := by
  refine extends_insert ?_ fun hMarked => absurd hMarked h.unmarked
  intro c hc
  rcases h.current hClosed with ⟨hNone, -⟩ | ⟨current, hCurrent, hLe, -⟩
  · rw [hNone] at hc
    cases hc
  · rw [hCurrent] at hc
    cases hc
    exact ⟨i, hLe, rfl⟩

theorem Step.extends (h : Step host ladder a after) (hClosed : Closed ladder) :
    Extends ladder after := by
  cases h with
  | refused => exact Extends.refl ladder
  | marked hFree =>
      refine extends_insert ?_ fun _ => rfl
      intro c hc
      rcases hFree with hNone | hMarked
      · rw [hNone] at hc
        cases hc
      · rw [hMarked] at hc
        cases hc
  | raised i hRaises => exact hRaises.extends hClosed

/-- When a level is new on its axis, the prerequisites of the award were checked. -/
theorem Raises.prerequisites (h : Raises host ladder a i) (hClosed : Closed ladder)
    {level : Int} (hPositive : 0 < level) (hLevel : level ≤ i)
    (hNew : ¬ Holds ladder a.axis level) :
    ∀ p ∈ predecessorsOf a.axis i, Holds ladder p.1 p.2 := by
  have hSatisfied : prerequisitesSatisfied ladder a.axis i = .ok true := by
    rcases h.current hClosed with ⟨-, hAbove⟩ | ⟨current, hCurrent, -, hAbove⟩
    · exact hAbove (by omega)
    · apply hAbove
      by_contra hNot
      exact hNew ⟨current, by omega, hCurrent⟩
  intro p hp
  have hHeld := allM_eq_true.mp hSatisfied p hp
  exact (heldAt_eq_true fun s hText => hClosed.texts hText).mp hHeld

/-- The level that an award sets stands on what it presupposes. -/
theorem Raises.held (h : Raises host ladder a i) (hClosed : Closed ladder) {level : Int}
    {b : String × Int} (hRequires : Requires (a.axis, level) b) (hLevel : level ≤ i) :
    Holds ladder b.1 b.2 := by
  by_cases hOld : Holds ladder a.axis level
  · exact hClosed.held (a.axis, level) b hRequires hOld
  · obtain ⟨row, hRow, hAxis, lower, hLower, hSame⟩ := hRequires.row
    simp only at hAxis hSame
    have hPositive : 0 < level := hSame ▸ predecessors_positive row hRow lower hLower
    have hChecked := h.prerequisites hClosed hPositive hLevel hOld
    rcases lt_or_eq_of_le hLevel with hLt | hEq
    · exfalso
      have hListed : i ∈ levelsOf row.1 := by rw [hAxis]; exact h.listed
      obtain ⟨p, hp, hSelf, hAbove⟩ :=
        predecessors_chain row hRow i hListed lower hLower (by omega)
      rw [hAxis] at hp hSelf
      obtain ⟨j, hj, hLookup⟩ := hChecked p hp
      rw [hSelf] at hLookup
      exact hOld ⟨j, by omega, hLookup⟩
    · rw [hEq] at hRequires
      exact hChecked b hRequires

theorem Step.closed (h : Step host ladder a after) (hClosed : Closed ladder) :
    Closed after := by
  have hExtends := h.extends hClosed
  cases h with
  | refused => exact hClosed
  | marked hFree =>
      constructor
      · intro axis value hLookup
        by_cases hAxis : axis = a.axis
        · rw [hAxis, AList.lookup_insert, Option.some.injEq] at hLookup
          exact .inl hLookup.symm
        · rw [AList.lookup_insert_ne hAxis] at hLookup
          exact hClosed.levels axis value hLookup
      · rintro x b hRequires ⟨j, hj, hLookup⟩
        by_cases hAxis : x.1 = a.axis
        · rw [hAxis, AList.lookup_insert] at hLookup
          cases hLookup
        · rw [AList.lookup_insert_ne hAxis] at hLookup
          exact hExtends.holds (hClosed.held x b hRequires ⟨j, hj, hLookup⟩)
  | raised i hRaises =>
      constructor
      · intro axis value hLookup
        by_cases hAxis : axis = a.axis
        · rw [hAxis, AList.lookup_insert, Option.some.injEq] at hLookup
          exact .inr ⟨i, hLookup.symm, hAxis ▸ hRaises.listed⟩
        · rw [AList.lookup_insert_ne hAxis] at hLookup
          exact hClosed.levels axis value hLookup
      · rintro ⟨axis, level⟩ b hRequires ⟨j, hj, hLookup⟩
        apply hExtends.holds
        by_cases hAxis : axis = a.axis
        · subst hAxis
          rw [AList.lookup_insert] at hLookup
          cases hLookup
          exact hRaises.held hClosed hRequires hj
        · rw [AList.lookup_insert_ne hAxis] at hLookup
          exact hClosed.held (axis, level) b hRequires ⟨j, hj, hLookup⟩

end Step

section Run

variable (host : Host) (secret : Bytes)

theorem run_append (h : HypothesisRecord) (calls more : List Award) :
    run host secret h (calls ++ more) = run host secret (run host secret h calls) more := by
  simp [run]

/-- Every sequence of calls keeps a ladder closed. -/
theorem run_closed {h : HypothesisRecord} (hClosed : Closed h.ladder) (calls : List Award) :
    Closed (run host secret h calls).ladder := by
  induction calls generalizing h with
  | nil => exact hClosed
  | cons a rest ih => exact ih ((a.step host secret h).closed hClosed)

/-- Every sequence of calls keeps what was held. -/
theorem run_extends {h : HypothesisRecord} (hClosed : Closed h.ladder) (calls : List Award) :
    Extends h.ladder (run host secret h calls).ladder := by
  induction calls generalizing h with
  | nil => exact Extends.refl _
  | cons a rest ih =>
      have hStep := a.step host secret h
      exact (hStep.extends hClosed).trans (ih (hStep.closed hClosed))

/-- A level from 6 on was set by one of the calls, whose certificate verified. -/
theorem run_certified {h : HypothesisRecord} (hEmpty : h.ladder = ∅) (calls : List Award)
    {axis : String} {i : Int} (hSix : 6 ≤ i)
    (hLookup : (run host secret h calls).ladder.lookup axis = some (.int i)) :
    ∃ before a after, calls = before ++ a :: after ∧ a.axis = axis ∧ a.level.toInt = .ok i ∧
      (run host secret h (before ++ [a])).ladder.lookup axis = some (.int i) ∧
      a.Certified host i := by
  induction calls using List.reverseRecOn with
  | nil =>
      rw [run, List.foldl_nil, hEmpty, AList.lookup_empty] at hLookup
      cases hLookup
  | append_singleton before a ih =>
      by_cases hOld : (run host secret h before).ladder.lookup axis = some (.int i)
      · obtain ⟨earlier, setter, after, rfl, hSetter⟩ := ih hOld
        exact ⟨earlier, setter, after ++ [a], by simp, hSetter⟩
      · have hLast := hLookup
        have hStep := a.step host secret (run host secret h before)
        rw [run_append] at hLookup
        change (a.apply host secret (run host secret h before)).ladder.lookup axis = _ at hLookup
        generalize (a.apply host secret (run host secret h before)).ladder = ladder at hStep hLookup
        cases hStep with
        | refused => exact absurd hLookup hOld
        | marked _ =>
            by_cases hAxis : axis = a.axis
            · rw [hAxis, AList.lookup_insert] at hLookup
              cases hLookup
            · rw [AList.lookup_insert_ne hAxis] at hLookup
              exact absurd hLookup hOld
        | raised j hRaises =>
            by_cases hAxis : axis = a.axis
            · rw [hAxis, AList.lookup_insert, Option.some.injEq, LadderLevel.int.injEq] at hLookup
              subst hLookup
              exact ⟨before, a, [], rfl, hAxis.symm, hRaises.toInt, hLast,
                hRaises.certified hSix⟩
            · rw [AList.lookup_insert_ne hAxis] at hLookup
              exact absurd hLookup hOld

/-- The ladder of a hypothesis that starts without one, at two moments of any
sequence of awards: nothing held is lost, prerequisites are held along every
chain of the table, and the levels from 6 on are certified. -/
theorem ladder_closure (h : HypothesisRecord) (calls more : List Award) :
    let fresh := { h with ladder := ∅ }
    let before := (run host secret fresh calls).ladder
    let after := (run host secret fresh (calls ++ more)).ladder
    (∀ axis i, before.lookup axis = some (.int i) →
        ∃ j, i ≤ j ∧ after.lookup axis = some (.int j)) ∧
      (∀ axis, before.lookup axis = some .notApplicable →
        after.lookup axis = some .notApplicable) ∧
      (∀ axis value, after.lookup axis = some value →
        value = .notApplicable ∨ ∃ i, value = .int i ∧ i ∈ levelsOf axis) ∧
      (∀ a b, Relation.TransGen Requires a b → Holds after a.1 a.2 → Holds after b.1 b.2) ∧
      ∀ axis i, 6 ≤ i → after.lookup axis = some (.int i) →
        ∃ earlier a later, calls ++ more = earlier ++ a :: later ∧ a.axis = axis ∧
          a.level.toInt = .ok i ∧
          (run host secret fresh (earlier ++ [a])).ladder.lookup axis = some (.int i) ∧
          a.Certified host i := by
  intro fresh before after
  have hBefore : Closed before := run_closed host secret (h := fresh) Closed.empty calls
  have hAfter : Closed after := run_closed host secret (h := fresh) Closed.empty (calls ++ more)
  have hExtends : Extends before after := by
    simp only [after, run_append]
    exact run_extends host secret hBefore more
  refine ⟨hExtends.number, hExtends.sentinel, hAfter.levels, ?_, ?_⟩
  · intro a b hChain hHolds
    induction hChain with
    | single hRequires => exact hAfter.held _ _ hRequires hHolds
    | tail _ hRequires ih => exact hAfter.held _ _ hRequires ih
  · intro axis i hSix hLookup
    exact run_certified host secret rfl (calls ++ more) hSix hLookup

end Run
end L0vi0x.Core.Ladder
