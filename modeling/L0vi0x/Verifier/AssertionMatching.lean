import L0vi0x.Verifier.EvidenceOrigin
import L0vi0x.Verifier.RetainedRun
import Mathlib.Data.Fintype.EquivFin

/-! When the events that V06 accepts correspond one to one to the required assertions. -/
namespace L0vi0x.Verifier

open L0vi0x.Python L0vi0x.Core L0vi0x.Chain

section Matching

variable {α β : Type}

/-- The positions of two lists, paired so that every pair is related. -/
def PairedBy (r : α → β → Prop) (xs : List α) (ys : List β) : Prop :=
  ∃ f : Fin xs.length ≃ Fin ys.length, ∀ i, r (xs.get i) (ys.get (f i))

/-- No element at one position of `ys` is related to two positions of `xs`. -/
def Unshared (r : α → β → Prop) (xs : List α) (ys : List β) : Prop :=
  ∀ (i j : Fin xs.length) (k : Fin ys.length), r (xs.get i) (ys.get k) → r (xs.get j) (ys.get k) →
    i = j

/-- A list in which one element passes a test has one position that does. -/
theorem exists_unique_position {p : β → Bool} {ys : List β} (h : (ys.filter p).length = 1) :
    ∃ k : Fin ys.length, p (ys.get k) = true ∧ ∀ l : Fin ys.length, p (ys.get l) = true → l = k := by
  induction ys with
  | nil => cases h
  | cons y rest ih =>
      by_cases hHead : p y = true
      · rw [List.filter_cons_of_pos hHead, List.length_cons, Nat.add_eq_right,
          List.length_eq_zero_iff, List.filter_eq_nil_iff] at h
        refine ⟨0, hHead, fun l hl => ?_⟩
        cases l using Fin.cases with
        | zero => rfl
        | succ l => exact absurd hl (h _ (List.getElem_mem _))
      · rw [List.filter_cons_of_neg hHead] at h
        obtain ⟨k, hk, hUnique⟩ := ih h
        refine ⟨k.succ, hk, fun l hl => ?_⟩
        cases l using Fin.cases with
        | zero => exact absurd hl hHead
        | succ l => exact congrArg Fin.succ (hUnique l hl)

/-- Lists of one length, each element of the first with one partner: they are paired
exactly when no partner is shared. -/
theorem pairedBy_iff_unshared {r : α → β → Bool} {xs : List α} {ys : List β}
    (hLength : ys.length = xs.length) (hOne : ∀ x ∈ xs, (ys.filter (r x)).length = 1) :
    PairedBy (fun x y => r x y = true) xs ys ↔ Unshared (fun x y => r x y = true) xs ys := by
  have hPartner : ∀ i : Fin xs.length, ∃ k : Fin ys.length, r (xs.get i) (ys.get k) = true ∧
      ∀ l : Fin ys.length, r (xs.get i) (ys.get l) = true → l = k := fun i =>
    exists_unique_position (hOne _ (List.get_mem xs i))
  choose partner hRelated hUnique using hPartner
  constructor
  · rintro ⟨f, hf⟩ i j k hi hj
    have hFirst : f i = k := (hUnique i _ (hf i)).trans (hUnique i k hi).symm
    have hSecond : f j = k := (hUnique j _ (hf j)).trans (hUnique j k hj).symm
    exact f.injective (hFirst.trans hSecond.symm)
  · intro hUnshared
    have hInjective : Function.Injective partner := by
      intro i j hEq
      exact hUnshared i j (partner i) (hRelated i) (hEq ▸ hRelated j)
    have hBijective : Function.Bijective partner :=
      (Fintype.bijective_iff_injective_and_card partner).mpr ⟨hInjective, by simp [hLength]⟩
    exact ⟨.ofBijective partner hBijective, hRelated⟩

end Matching

section Events

/-- The required assertions and the events correspond one to one. -/
def MatchedOneToOne (w : Witness) (events : List Fields) : Prop :=
  PairedBy (fun a event => assertionMatches a event = true) w.required events

/-- What V06 accepts corresponds one to one, exactly when no event matches two of the
required assertions. -/
theorem matched_one_to_one_iff {w : Witness} {events : List Fields}
    {control : Option ControlEvidence}
    (hPasses : (checkAssertion w events control).blocks = false) :
    MatchedOneToOne w events ↔
      Unshared (fun a event => assertionMatches a event = true) w.required events := by
  obtain ⟨hLength, hOne⟩ := checkAssertion_passes hPasses
  exact pairedBy_iff_unshared hLength hOne

/-- Two assertions on one value, which differ in their operator alone. -/
def overlapping : Witness :=
  { Sample.declaration "" with
    assertions := [Sample.assertion, { Sample.assertion with operator := .gte }] }

/-- An event that matches both, and one that matches neither. -/
def overlappingEvents : List Fields :=
  [[("id", .str "a1"), ("kind", .str "invariant"), ("target", .str "vault"), ("expected", .int 1),
    ("observed", .int 1), ("ok", .bool true)], [("id", .str "a2")]]

def quietControl : ControlEvidence where
  passed := true
  matchingAssertion := false
  observedStateChanged := false
  assertionEventCount := 0

theorem overlapping_accepted :
    (checkAssertion overlapping overlappingEvents (some quietControl)).blocks = false := by
  decide

/-- V06 accepts both events, though the second matches no assertion. -/
theorem overlapping_assertions_unmatched :
    (checkAssertion overlapping overlappingEvents (some quietControl)).blocks = false ∧
      ¬ MatchedOneToOne overlapping overlappingEvents := by
  refine ⟨overlapping_accepted, ?_⟩
  rintro ⟨f, hf⟩
  have hNone : ∀ a ∈ overlapping.required, assertionMatches a [("id", .str "a2")] = false := by
    decide
  have hTwo : 1 < overlappingEvents.length := by decide
  have hLast := hf (f.symm ⟨1, hTwo⟩)
  rw [Equiv.apply_symm_apply] at hLast
  exact Bool.false_ne_true ((hNone _ (List.get_mem _ _)).symm.trans hLast)

theorem overlapping_matched_iff : MatchedOneToOne overlapping overlappingEvents ↔
    Unshared (fun a event => assertionMatches a event = true) overlapping.required
      overlappingEvents :=
  matched_one_to_one_iff overlapping_accepted

end Events
end L0vi0x.Verifier
