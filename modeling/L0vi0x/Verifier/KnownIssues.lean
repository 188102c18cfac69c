import L0vi0x.Verifier.ScopedFiles

/-! Known issues. V01 compares the lines of an issue with the first line of the target only. -/
namespace L0vi0x.Verifier

open L0vi0x.Python L0vi0x.Core

section KnownIssues

variable {h : Hypothesis} {scope : Scope}

/-- `check(…)` with a witness commit that may be missing: then no commits are compared. -/
def checkFinding (h : Hypothesis) (scope : Scope) (known : List KnownIssue)
    (witnessCommit : Option String) : CheckResult :=
  checkEligibility h scope known (witnessCommit.getD scope.commit)

/-- The checks of V01 that come before the known issues pass. -/
structure InScope (h : Hypothesis) (scope : Scope) (witnessCommit : Option String) : Prop where
  path : h.target.file ≠ "" →
    pathInScope h.target.file scope = true ∧ pathExcluded h.target.file scope = false
  mechanism : h.mechanismTag ∉ scope.excludedClasses
  commit : ∀ commit, witnessCommit = some commit → commit = scope.commit

/-- The lines of two spans have one in common. -/
def Span.Meets (s t : Span) : Prop :=
  ∃ line, (s.startLine ≤ line ∧ line ≤ s.endLine) ∧ t.startLine ≤ line ∧ line ≤ t.endLine

/-- An issue that counts: open or accepted, and about the target file. -/
structure Applies (h : Hypothesis) (issue : KnownIssue) : Prop where
  counts : issue.status = .open ∨ issue.status = .accepted
  about : issue.appliesTo = [] ∨ h.target.file ∈ issue.appliesTo

/-- The finding is known: an issue makes its claim, or has lines in common with its target. -/
def Known (h : Hypothesis) (known : List KnownIssue) : Prop :=
  ∃ issue ∈ known, Applies h issue ∧ (strip issue.claim = strip h.claim ∨
    ∃ span ∈ issue.spans, span.file = h.target.file ∧ Span.Meets span h.target)

/-- What V01 recognises: the claim, or a span that has the first line of the target. -/
def Recognised (h : Hypothesis) (known : List KnownIssue) : Prop :=
  ∃ issue ∈ known, Applies h issue ∧ (strip issue.claim = strip h.claim ∨
    ∃ span ∈ issue.spans, span.file = h.target.file ∧
      span.startLine ≤ h.target.startLine ∧ h.target.startLine ≤ span.endLine)

/-- An issue has a span that starts inside the target, after its first line. -/
def StartsInside (h : Hypothesis) (known : List KnownIssue) : Prop :=
  ∃ issue ∈ known, Applies h issue ∧ ∃ span ∈ issue.spans, span.file = h.target.file ∧
    h.target.startLine < span.startLine ∧ span.startLine ≤ h.target.endLine

/-- Two spans meet when neither ends before the other starts. -/
theorem meets_iff {s t : Span} :
    Span.Meets s t ↔ s.startLine ≤ t.endLine ∧ t.startLine ≤ s.endLine := by
  constructor
  · rintro ⟨line, hs, ht⟩
    omega
  · rintro ⟨hStart, hEnd⟩
    have hs := s.ordered
    have ht := t.ordered
    exact ⟨max s.startLine t.startLine, by omega, by omega⟩

/-- Spans that meet have the first line of one of them in common. -/
theorem meets_iff_first {s t : Span} : Span.Meets s t ↔
    (s.startLine ≤ t.startLine ∧ t.startLine ≤ s.endLine) ∨
      (t.startLine < s.startLine ∧ s.startLine ≤ t.endLine) := by
  have hs := s.ordered
  have ht := t.ordered
  rw [meets_iff]
  omega

theorem issueApplies_iff {issue : KnownIssue} :
    issueApplies issue h.target.file = true ↔ Applies h issue := by
  rw [issueApplies, Bool.and_eq_true, Bool.or_eq_true, Bool.or_eq_true, decide_eq_true_iff,
    decide_eq_true_iff, List.isEmpty_iff, List.contains_iff_mem]
  exact ⟨fun hBoth => ⟨hBoth.1, hBoth.2⟩, fun hApplies => ⟨hApplies.counts, hApplies.about⟩⟩

/-- V01 recognises an issue by its claim, or by the first line of the target. -/
theorem knownIssueFailure_isSome {issue : KnownIssue} :
    (∃ failure, knownIssueFailure? h issue = some failure) ↔
      Applies h issue ∧ (strip issue.claim = strip h.claim ∨
        ∃ span ∈ issue.spans, span.file = h.target.file ∧
          span.startLine ≤ h.target.startLine ∧ h.target.startLine ≤ span.endLine) := by
  have hSpans : (issue.spans.any fun span => span.file = h.target.file &&
      span.startLine ≤ h.target.startLine && h.target.startLine ≤ span.endLine) = true ↔
      ∃ span ∈ issue.spans, span.file = h.target.file ∧
        span.startLine ≤ h.target.startLine ∧ h.target.startLine ≤ span.endLine := by
    simp [List.any_eq_true, and_assoc]
  rw [← issueApplies_iff, ← hSpans]
  unfold knownIssueFailure?
  dsimp only
  by_cases hApplies : issueApplies issue h.target.file = true
  · by_cases hClaim : strip issue.claim = strip h.claim
    · simp [hApplies, hClaim]
    · rw [if_pos hApplies, if_neg hClaim]
      simp only [hApplies, hClaim, false_or, true_and]
      split
      · next hSpan => exact ⟨fun _ => hSpan, fun _ => ⟨_, rfl⟩⟩
      · next hSpan =>
          refine ⟨?_, fun hAny => absurd hAny hSpan⟩
          rintro ⟨failure, hNone⟩
          cases hNone
  · rw [if_neg hApplies]
    refine ⟨?_, fun hBoth => absurd hBoth.1 hApplies⟩
    rintro ⟨failure, hNone⟩
    cases hNone

theorem knownIssueFailure_code {issue : KnownIssue} {failure : CheckResult}
    (hFailure : knownIssueFailure? h issue = some failure) :
    failure.code = some .knownIssue := by
  unfold knownIssueFailure? at hFailure
  dsimp only at hFailure
  split at hFailure
  · split at hFailure
    · cases hFailure
      rfl
    · split at hFailure
      · cases hFailure
        rfl
      · cases hFailure
  · cases hFailure

/-- Past the scope checks, V01 reports what it recognises. -/
theorem checkFinding_known_iff {witnessCommit : Option String} {known : List KnownIssue}
    (hScope : InScope h scope witnessCommit) :
    (checkFinding h scope known witnessCommit).code = some .knownIssue ↔ Recognised h known := by
  have hPath : ¬ (h.target.file ≠ "" ∧ (!pathInScope h.target.file scope) = true) := by
    rintro ⟨hFile, hOut⟩
    rw [(hScope.path hFile).1] at hOut
    cases hOut
  have hExcluded : ¬ (h.target.file ≠ "" ∧ (scope.outOfScope.any fun excluded =>
      h.target.file = excluded || startsWith h.target.file (rstripSlash excluded ++ "/")) = true) := by
    rintro ⟨hFile, hIn⟩
    have hNot : pathExcluded h.target.file scope = false := (hScope.path hFile).2
    rw [pathExcluded, hIn] at hNot
    cases hNot
  have hCommit : ¬ witnessCommit.getD scope.commit ≠ scope.commit := by
    cases hGiven : witnessCommit with
    | none => exact fun hNe => hNe rfl
    | some commit => exact fun hNe => hNe (hScope.commit commit hGiven)
  have hRecognised : Recognised h known ↔
      ∃ issue ∈ known, ∃ failure, knownIssueFailure? h issue = some failure := by
    simp only [knownIssueFailure_isSome]
    rfl
  rw [hRecognised, checkFinding, checkEligibility]
  rw [if_neg hPath, if_neg hExcluded, if_neg hScope.mechanism, if_neg hCommit]
  cases hFirst : known.findSome? (knownIssueFailure? h) with
  | some failure =>
      obtain ⟨issue, hIssue, hFailure⟩ := List.exists_of_findSome?_eq_some hFirst
      exact ⟨fun _ => ⟨issue, hIssue, failure, hFailure⟩, fun _ => knownIssueFailure_code hFailure⟩
  | none =>
      constructor
      · intro hCode
        dsimp only at hCode
        split at hCode
        · cases hCode
        · cases hCode
      · rintro ⟨issue, hIssue, failure, hFailure⟩
        rw [List.findSome?_eq_none_iff.mp hFirst issue hIssue] at hFailure
        cases hFailure

/-- A known finding is recognised, or an issue starts inside its target. -/
theorem known_iff_recognised {known : List KnownIssue} :
    Known h known ↔ Recognised h known ∨ StartsInside h known := by
  simp only [Known, Recognised, StartsInside, meets_iff_first]
  constructor
  · rintro ⟨issue, hIssue, hApplies, hClaim | ⟨span, hSpan, hFile, hFirst | hInside⟩⟩
    · exact .inl ⟨issue, hIssue, hApplies, .inl hClaim⟩
    · exact .inl ⟨issue, hIssue, hApplies, .inr ⟨span, hSpan, hFile, hFirst⟩⟩
    · exact .inr ⟨issue, hIssue, hApplies, span, hSpan, hFile, hInside⟩
  · rintro (⟨issue, hIssue, hApplies, hClaim | ⟨span, hSpan, hFile, hFirst⟩⟩ |
      ⟨issue, hIssue, hApplies, span, hSpan, hFile, hInside⟩)
    · exact ⟨issue, hIssue, hApplies, .inl hClaim⟩
    · exact ⟨issue, hIssue, hApplies, .inr ⟨span, hSpan, hFile, .inl hFirst⟩⟩
    · exact ⟨issue, hIssue, hApplies, .inr ⟨span, hSpan, hFile, .inr hInside⟩⟩

/-- Known issues are recognised exactly where one is recognised by its claim or by the first
line of the target, or none has a span that starts further inside the target. -/
theorem known_issues_recognised_iff {witnessCommit : Option String} {known : List KnownIssue}
    (hScope : InScope h scope witnessCommit) :
    ((checkFinding h scope known witnessCommit).code = some .knownIssue ↔ Known h known) ↔
      Recognised h known ∨ ¬ StartsInside h known := by
  rw [checkFinding_known_iff hScope, known_iff_recognised]
  by_cases hRecognised : Recognised h known
  · simp [hRecognised]
  · simp [hRecognised]

end KnownIssues

section Sample

def wideFinding : Hypothesis where
  claim := "anyone can drain the vault"
  target := ⟨"src/V.sol", 1, 3, "", by decide⟩
  mechanismTag := "access_control"
  provenance := []

def plainScope : Scope := ⟨"c0ffee", [some "src"], [], [], 0⟩

/-- An open issue about some lines of the file. -/
def issueAt (first : Int) (h : 1 ≤ first) : KnownIssue :=
  ⟨"K-1", "rounding", .open, [⟨"src/V.sol", first, first, "", ⟨h, le_rfl⟩⟩], []⟩

theorem wideFinding_inScope : InScope wideFinding plainScope none :=
  ⟨fun _ => by decide, List.not_mem_nil, fun _ hNone => by cases hNone⟩

/-- An issue about the second line of the target is not recognised. -/
theorem inner_overlap_missed :
    ¬ ∀ (h : Hypothesis) (scope : Scope) (known : List KnownIssue) (witnessCommit : Option String),
      InScope h scope witnessCommit →
        ((checkFinding h scope known witnessCommit).code = some .knownIssue ↔ Known h known) := by
  intro hClaim
  have hIff := hClaim wideFinding plainScope [issueAt 2 (by decide)] none wideFinding_inScope
  have hKnown : Known wideFinding [issueAt 2 (by decide)] :=
    ⟨_, List.mem_singleton.mpr rfl, ⟨.inl rfl, .inl rfl⟩, .inr ⟨_, List.mem_singleton.mpr rfl, rfl,
      2, by decide, by decide⟩⟩
  have hCode : (checkFinding wideFinding plainScope [issueAt 2 (by decide)] none).code = none := by
    decide
  rw [hCode] at hIff
  cases hIff.mpr hKnown

/-- An issue about the first line of the target is recognised. -/
theorem first_line_recognised :
    (checkFinding wideFinding plainScope [issueAt 1 (by decide)] none).code = some .knownIssue ↔
      Known wideFinding [issueAt 1 (by decide)] := by
  refine (known_issues_recognised_iff wideFinding_inScope).mpr (.inl ?_)
  exact ⟨_, List.mem_singleton.mpr rfl, ⟨.inl rfl, .inl rfl⟩, .inr ⟨_, List.mem_singleton.mpr rfl,
    rfl, by decide, by decide⟩⟩

end Sample
end L0vi0x.Verifier
