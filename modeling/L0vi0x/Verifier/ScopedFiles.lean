import L0vi0x.Python.LexicalPath
import L0vi0x.Verifier.EvidenceOrigin

/-! Scope as a question about files. V01 compares the paths as they are spelled, while V02
reads the file that the target path resolves to. -/
namespace L0vi0x.Verifier

open L0vi0x.Python L0vi0x.Core

section Scope

variable {cwd root : String} {h : Hypothesis} {scope : Scope}

/-- The in-scope paths; a target without a path, or with an empty one, has none. -/
def inScopePaths (scope : Scope) : List String :=
  scope.inScope.filterMap fun target => target.filter (· ≠ "")

def pathExcluded (file : String) (scope : Scope) : Bool :=
  scope.outOfScope.any fun excluded =>
    file = excluded || startsWith file (rstripSlash excluded ++ "/")

/-- The parts of the file that a path denotes below the checkout. -/
def denoted (cwd root s : String) : List String := located cwd ((Path.ofText root).join s)

/-- The file lies at or under an in-scope path, and at or under no excluded one. -/
structure FileInScope (cwd root : String) (scope : Scope) (file : Path) : Prop where
  included : ∃ target ∈ inScopePaths scope, denoted cwd root target <+: file.parts
  notExcluded : ∀ excluded ∈ scope.outOfScope, ¬ denoted cwd root excluded <+: file.parts

/-- A path spelled as it resolves. -/
def resolvedText (cwd root s : String) : String := Path.text ⟨"/", denoted cwd root s⟩

/-- The hypothesis with its target path spelled as it resolves. -/
def respelledTarget (cwd root : String) (h : Hypothesis) : Hypothesis :=
  { h with target := { h.target with file := resolvedText cwd root h.target.file } }

/-- The scope with its paths spelled as they resolve. -/
def respelledScope (cwd root : String) (scope : Scope) : Scope :=
  { scope with
    inScope := (inScopePaths scope).map fun target => some (resolvedText cwd root target)
    outOfScope := scope.outOfScope.map (resolvedText cwd root) }

/-- V01, known issues apart, accepts the finding with all paths spelled as they resolve. -/
def EligibleAsResolved (cwd root : String) (h : Hypothesis) (scope : Scope) (commit : String) :
    Prop :=
  (checkEligibility (respelledTarget cwd root h) (respelledScope cwd root scope) []
    commit).blocks = false

theorem cleanParts_denoted (cwd root s : String) : CleanParts (denoted cwd root s) :=
  cleanParts_located (cleanParts_join (cleanParts_ofText root) s) cwd

theorem resolvedText_ne_empty (cwd root s : String) : resolvedText cwd root s ≠ "" := by
  intro hEmpty
  have hText := text_absolute (denoted cwd root s)
  rw [show Path.text ⟨"/", denoted cwd root s⟩ = "" from hEmpty] at hText
  split at hText
  · cases hText
  · rename_i hParts
    obtain ⟨part, rest, hCons⟩ := List.exists_cons_of_ne_nil hParts
    rw [hCons] at hText
    cases hText

/-- On the spellings that resolve, the tests of V01 are about the files. -/
theorem resolvedText_tests (cwd root : String) (file : String) (scope : Scope) :
    (pathInScope (resolvedText cwd root file) (respelledScope cwd root scope) = true ↔
      ∃ target ∈ inScopePaths scope, denoted cwd root target <+: denoted cwd root file) ∧
    (pathExcluded (resolvedText cwd root file) (respelledScope cwd root scope) = false ↔
      ∀ excluded ∈ scope.outOfScope, ¬ denoted cwd root excluded <+: denoted cwd root file) := by
  have hNorm : ∀ s, (Path.ofText (resolvedText cwd root s)).text = resolvedText cwd root s := by
    intro s
    rw [resolvedText, ofText_text (cleanParts_denoted cwd root s)]
  have hUnder : ∀ s, (resolvedText cwd root file = resolvedText cwd root s ∨
      startsWith (resolvedText cwd root file) (rstripSlash (resolvedText cwd root s) ++ "/") = true) ↔
      denoted cwd root s <+: denoted cwd root file := fun s =>
    text_under_iff (cleanParts_denoted cwd root s) (cleanParts_denoted cwd root file)
  constructor
  · simp only [pathInScope, respelledScope, hNorm, List.any_map, List.any_eq_true,
      Function.comp_apply, Bool.and_eq_true, Bool.or_eq_true, decide_eq_true_eq, hUnder, bne_iff_ne,
      resolvedText_ne_empty, ne_eq, not_false_eq_true, true_and]
  · simp only [pathExcluded, respelledScope, List.any_map, List.any_eq_false, Function.comp_apply,
      Bool.or_eq_true, decide_eq_true_eq, hUnder]

/-- The conditions of V01 that do not look at paths. -/
structure EligibleApart (h : Hypothesis) (scope : Scope) (commit : String) : Prop where
  mechanism : h.mechanismTag ∉ scope.excludedClasses
  commit : commit = scope.commit
  provenance : (((getField? "commit" h.provenance).getD .null).truthy &&
    (getField? "commit" h.provenance).getD .null != .str scope.commit) = false

theorem blocks_of_knownIssueFailure {issue : KnownIssue} {failure : CheckResult}
    (hFailure : knownIssueFailure? h issue = some failure) : failure.blocks = true := by
  unfold knownIssueFailure? at hFailure
  dsimp only at hFailure
  split at hFailure
  · split at hFailure
    · cases hFailure
      rfl
    · split at hFailure
      · cases hFailure
        rfl
      · cases hFailure
  · cases hFailure

/-- V01 passes when each of its tests does, the one on the paths only for a named file. -/
theorem checkEligibility_passes_iff {known : List KnownIssue} {commit : String} :
    (checkEligibility h scope known commit).blocks = false ↔
      (h.target.file ≠ "" → pathInScope h.target.file scope = true ∧
        pathExcluded h.target.file scope = false) ∧
      EligibleApart h scope commit ∧ ∀ issue ∈ known, knownIssueFailure? h issue = none := by
  have hExcludedTest : (scope.outOfScope.any fun excluded => h.target.file = excluded ||
      startsWith h.target.file (rstripSlash excluded ++ "/")) = pathExcluded h.target.file scope := rfl
  have hIssues : known.findSome? (knownIssueFailure? h) = none ↔
      ∀ issue ∈ known, knownIssueFailure? h issue = none := List.findSome?_eq_none_iff
  unfold checkEligibility
  dsimp only
  rw [hExcludedTest, ← hIssues]
  split
  · rename_i hOutside
    simp only [CheckResult.blocks_fail, Bool.true_eq_false, false_iff, not_and]
    intro hTests
    have hIn := (hTests hOutside.1).1
    simp [hIn] at hOutside
  rename_i hInside
  split
  · rename_i hExcluded
    simp only [CheckResult.blocks_fail, Bool.true_eq_false, false_iff, not_and]
    intro hTests
    have hNot := (hTests hExcluded.1).2
    simp [hNot] at hExcluded
  rename_i hNotExcluded
  have hTests : h.target.file ≠ "" → pathInScope h.target.file scope = true ∧
      pathExcluded h.target.file scope = false := by
    intro hFile
    exact ⟨by simpa [hFile] using hInside, by simpa [hFile] using hNotExcluded⟩
  split
  · rename_i hClass
    simp only [CheckResult.blocks_fail, Bool.true_eq_false, false_iff, not_and]
    exact fun _ hApart => absurd hClass hApart.mechanism
  rename_i hClass
  split
  · rename_i hCommit
    simp only [CheckResult.blocks_fail, Bool.true_eq_false, false_iff, not_and]
    exact fun _ hApart => absurd hApart.commit hCommit
  rename_i hCommit
  split
  · rename_i failure hFailure
    obtain ⟨issue, _, hIssue⟩ := List.exists_of_findSome?_eq_some hFailure
    rw [hFailure, blocks_of_knownIssueFailure hIssue]
    simp
  · rename_i hNone
    split
    · rename_i hProvenance
      simp only [CheckResult.blocks_fail, Bool.true_eq_false, false_iff, not_and]
      intro _ hApart
      rw [hApart.provenance] at hProvenance
      cases hProvenance
    · rename_i hProvenance
      simp only [CheckResult.blocks_pass, true_iff]
      exact ⟨hTests, ⟨hClass, not_not.mp hCommit, by simpa using hProvenance⟩, hNone⟩

/-- A finding that V01 and V02 accept is about a file in scope exactly when V01 accepts it
with the paths spelled as they resolve. -/
theorem scope_about_files_iff {host : Host} {fs : FileSystem} {known : List KnownIssue}
    {commit : String} (hFiles : fs.Lexical cwd)
    (hEligible : (checkEligibility h scope known commit).blocks = false)
    (hSpan : Passes (checkSpan host fs (Path.ofText root) h.target)) :
    ∃ file, fs.resolve ((Path.ofText root).join h.target.file) = .ok file ∧
      (FileInScope cwd root scope file ↔ EligibleAsResolved cwd root h scope commit) := by
  obtain ⟨r, hRun, _⟩ := hSpan
  simp only [checkSpan, bind_eq_ok] at hRun
  obtain ⟨file, hFile, _⟩ := hRun
  refine ⟨file, hFile, ?_⟩
  have hParts : file.parts = denoted cwd root h.target.file := hFiles _ _ hFile
  obtain ⟨_, hApart, _⟩ := checkEligibility_passes_iff.mp hEligible
  obtain ⟨hIncluded, hExcluded⟩ := resolvedText_tests cwd root h.target.file scope
  rw [EligibleAsResolved, checkEligibility_passes_iff]
  constructor
  · rintro ⟨hIn, hOut⟩
    rw [hParts] at hIn hOut
    exact ⟨fun _ => ⟨hIncluded.mpr hIn, hExcluded.mpr hOut⟩,
      ⟨hApart.mechanism, hApart.commit, hApart.provenance⟩, by simp⟩
  · rintro ⟨hTests, _⟩
    obtain ⟨hIn, hOut⟩ := hTests (resolvedText_ne_empty cwd root h.target.file)
    refine ⟨?_, ?_⟩
    · rw [hParts]
      exact hIncluded.mp hIn
    · rw [hParts]
      exact hExcluded.mp hOut

end Scope

section Aliased

open Sample

/-- A finding whose target path leaves the directory in scope and enters an excluded one. -/
def aliasedTarget : Hypothesis :=
  { Sample.hypothesis with target := { Sample.hypothesis.target with file := "src/../vault/V.sol" } }

def vaultScope : Scope := { Sample.scope with outOfScope := ["vault"] }

def vaultFile : Path := ⟨"/", ["w", "vault", "V.sol"]⟩

def vaultFiles : MemoryFiles := [(vaultFile, targetText)]

/-- The aliased path leads to a file inside the project. -/
theorem vault_resolves : vaultFiles.lexical.resolve ((Path.ofText "/w").join aliasedTarget.target.file) =
      .ok vaultFile ∧
    staysInside vaultFiles.lexical vaultFile (Path.ofText "/w") = .ok true ∧
    vaultFiles.lexical.real vaultFile = vaultFile ∧
    (checkEligibility aliasedTarget vaultScope [] "c0ffee").blocks = false := by
  decide

/-- The cited span of the aliased target is there. -/
theorem aliased_span : Passes (checkSpan Sample.host vaultFiles.lexical (Path.ofText "/w")
    aliasedTarget.target) := by
  have hContent : vaultFiles.content? vaultFile = some targetText := rfl
  have hFile : vaultFiles.lexical.isFile vaultFile = .ok true := by
    rw [FileSystem.isFile, vault_resolves.2.2.1]
    exact MemoryFiles.isFile_of_content hContent
  have hText : vaultFiles.lexical.readText vaultFile = .ok targetText.text := by
    rw [FileSystem.readText, FileSystem.readBytes, vault_resolves.2.2.1]
    exact MemoryFiles.readText_of_content hContent
  have hHash : rangeHash Sample.host vaultFiles.lexical vaultFile 1 1 =
      .ok (Sample.host.sha256Text targetText.text) := by
    simp only [rangeHash, hText]
    decide
  refine ⟨.pass .v02 "cited span exists and hash-matches", ?_, rfl⟩
  simp only [checkSpan, bind_eq_ok]
  refine ⟨vaultFile, vault_resolves.1, true, vault_resolves.2.1, ?_⟩
  simp [hFile, hHash, aliasedTarget, Sample.hypothesis, bind, Except.bind, pure, Except.pure]

/-- A finding in an excluded file is accepted under a path that starts in scope. -/
theorem excluded_file_accepted :
    ¬ ∀ (host : Host) (fs : FileSystem) (cwd root : String) (h : Hypothesis) (scope : Scope)
      (known : List KnownIssue) (commit : String), fs.Lexical cwd →
        (checkEligibility h scope known commit).blocks = false →
          Passes (checkSpan host fs (Path.ofText root) h.target) → ∀ file,
            fs.resolve ((Path.ofText root).join h.target.file) = .ok file →
              FileInScope cwd root scope file := by
  intro hClaim
  have hScope := hClaim Sample.host _ "/" "/w" aliasedTarget vaultScope [] "c0ffee"
    (MemoryFiles.lexical_lexical vaultFiles) vault_resolves.2.2.2 aliased_span vaultFile vault_resolves.1
  refine hScope.notExcluded "vault" (List.mem_singleton.mpr rfl) ?_
  decide

/-- The scope by files and the one as spelled, at the aliased target. -/
theorem aliased_scope_iff :
    ∃ file, vaultFiles.lexical.resolve ((Path.ofText "/w").join aliasedTarget.target.file) = .ok file ∧
      (FileInScope "/" "/w" vaultScope file ↔
        EligibleAsResolved "/" "/w" aliasedTarget vaultScope "c0ffee") :=
  scope_about_files_iff (MemoryFiles.lexical_lexical vaultFiles) vault_resolves.2.2.2 aliased_span

end Aliased
end L0vi0x.Verifier
