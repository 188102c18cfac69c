import L0vi0x.Core.StoreCalls

/-! What the guards of a transition read of its evidence. A guard is a conjunction of clauses,
each a choice of references, so more evidence never turns an accepted transition down. -/
namespace L0vi0x.Core.Lifecycle

open L0vi0x.Python

/-- The items that the guards see: stripped and not empty. -/
def items (evidence : List String) : Set String :=
  { item | item ≠ "" ∧ ∃ given ∈ evidence, strip given = item }

/-- A reference: the start, followed by text that is not blank. -/
def Refers (evidence : List String) (start : String) : Prop :=
  ∃ item ∈ items evidence, ∃ text, item = start ++ text ∧ strip text ≠ ""

/-- The clauses of a pair of states: of each, one reference is asked for. -/
def clauses : HState → HState → List (List String)
  | .open, .investigating => [["task:"], ["scope:", "in_scope:"]]
  | .open, .parked => [["assumption:", "budget:", "human_reason:"]]
  | .open, .closed => [["disproof:", "scope:", "not_actionable:"]]
  | .open, .closedDuplicate => [["finding:", "hypothesis:"], ["duplicate_reason:"]]
  | .investigating, .confirmed =>
      [["execution_l5:"], ["run_receipt:"], ["witness_assertion:"], ["build_pass:"], ["ast_pass:"],
        ["trace_policy_pass:"], ["mechanism_l1:"], ["reachability_l2:"],
        ["economics_l5:", "impact:"]]
  | .investigating, .parked => [["failure:", "human_reason:", "blocker:"]]
  | .investigating, .closed => [["disproof:", "scope:", "not_actionable:"]]
  | .investigating, .closedDuplicate => [["finding:"], ["duplicate_reason:"]]
  | .confirmed, .finding =>
      [["execution_l6:"], ["hard_verifier_pass:"], ["economics_l6:", "impact:"],
        ["production_l7:", "production:not_applicable"], ["adjudication:", "human_override:"]]
  | .confirmed, .investigating => [["repair:"]]
  | .confirmed, .parked => [["economics:", "blocker:", "certification_failure:"]]
  | .confirmed, .closed => [["disproof:", "scope:", "not_actionable:"]]
  | .confirmed, .closedDuplicate => [["finding:"], ["duplicate_reason:"]]
  | .parked, .investigating => [["unblocked:"]]
  | .parked, .closed => [["permanent_blocker:", "scope:"]]
  | .parked, .merged => [["parent:"], ["replacement:"], ["merge_rationale:"]]
  | .finding, .closed => [["disproof:", "invalidating:", "scope:"]]
  | .finding, .closedDuplicate => [["finding:"], ["duplicate_reason:"]]
  | .finding, .merged => [["replacement:"], ["preserved_evidence:"]]
  | _, _ => []

/-- The references that a reopening asks for. -/
def reopenClauses (reopenCount : Nat) : List String :=
  ["human_reason:", "new_evidence:", "replacement:"] ++
    if 3 ≤ reopenCount then ["reviewer2:"] else []

section Guards

variable {evidence : List String}

theorem mem_cleanEvidence {item : String} :
    item ∈ cleanEvidence evidence ↔ item ∈ items evidence := by
  rw [cleanEvidence, List.mem_filter, List.mem_map, decide_eq_true_iff]
  exact and_comm

theorem has_iff {start : String} :
    has (cleanEvidence evidence) start = true ↔ Refers evidence start := by
  rw [has, List.any_eq_true]
  constructor
  · rintro ⟨item, hItem, hStart⟩
    rw [Bool.and_eq_true, decide_eq_true_iff] at hStart
    exact ⟨item, mem_cleanEvidence.mp hItem, _, startsWith_iff.mp hStart.1, hStart.2⟩
  · rintro ⟨item, hItem, text, rfl, hText⟩
    refine ⟨_, mem_cleanEvidence.mpr hItem, ?_⟩
    rw [dropText_append, startsWith_append]
    simpa using hText

/-- A guard finds one of several references when there is one. -/
theorem hasAny_iff {starts : List String} :
    hasAny (cleanEvidence evidence) starts = true ↔ ∃ start ∈ starts, Refers evidence start := by
  rw [hasAny, List.any_eq_true]
  exact exists_congr fun start => and_congr_right fun _ => has_iff

/-- The guard of a pair is the conjunction of its clauses. -/
theorem checkEvidence_eq_ok {given : List String} (old new : HState) {u : Unit} :
    checkEvidence given old new = .ok u ↔
      ∀ starts ∈ clauses old new, hasAny given starts = true := by
  cases old <;> cases new <;>
    simp [checkEvidence, clauses, bind_eq_ok, require_eq_ok, pure_eq_ok, hasAny]

/-- A reopening asks for the override and for the references of its clauses. -/
theorem checkReopen_clauses {signed : DriverToken} {reopenCount : Nat} {u : Unit} :
    checkReopen signed reopenCount (cleanEvidence evidence) = .ok u ↔
      signed.humanOverride = true ∧ ∀ start ∈ reopenClauses reopenCount, Refers evidence start := by
  have hThird : (∀ start ∈ if 3 ≤ reopenCount then ["reviewer2:"] else [], Refers evidence start) ↔
      (3 ≤ reopenCount → Refers evidence "reviewer2:") := by
    by_cases hThree : 3 ≤ reopenCount
    · simp [hThree]
    · simp [hThree]
  rw [checkReopen_eq_ok, has_iff, has_iff, has_iff, has_iff, reopenClauses, List.forall_mem_append,
    hThird]
  simp [and_assoc]

end Guards

section Acceptance

variable {host : Host} {secret : Bytes} {token : Option DriverToken} {h : HypothesisRecord}
  {newState : HState} {cause : String} {evidence more : List String}

/-- A transition is accepted by its token, its cause, its pair of states and the references
that its evidence makes. -/
theorem accepts_iff : validateTransition host secret token h newState cause evidence = .ok () ↔
    (∃ signed, token = some signed ∧ signed.isValid host secret = .ok true ∧
      (isReopen h.state newState = true → signed.humanOverride = true)) ∧
    strip cause ≠ "" ∧ newState ∈ legalTransitions h.state ∧ (items evidence).Nonempty ∧
    (isReopen h.state newState = true →
      ∀ start ∈ reopenClauses h.reopenCount, Refers evidence start) ∧
    ∀ starts ∈ clauses h.state newState, ∃ start ∈ starts, Refers evidence start := by
  have hItems : cleanEvidence evidence ≠ [] ↔ (items evidence).Nonempty := by
    constructor
    · intro hNe
      obtain ⟨item, hItem⟩ := List.exists_mem_of_ne_nil _ hNe
      exact ⟨item, mem_cleanEvidence.mp hItem⟩
    · rintro ⟨item, hItem⟩
      exact List.ne_nil_of_mem (mem_cleanEvidence.mpr hItem)
  rw [validateTransition_eq_ok, checkEvidence_eq_ok, hItems]
  simp only [hasAny_iff, checkReopen_clauses]
  constructor
  · rintro ⟨signed, hToken, hValid, hCause, hSome, hLegal, hReopen, hClauses⟩
    exact ⟨⟨signed, hToken, hValid, fun hPair => (hReopen hPair).1⟩, hCause, hLegal, hSome,
      fun hPair => (hReopen hPair).2, hClauses⟩
  · rintro ⟨⟨signed, hToken, hValid, hHuman⟩, hCause, hLegal, hSome, hReopen, hClauses⟩
    exact ⟨signed, hToken, hValid, hCause, hSome, hLegal,
      fun hPair => ⟨hHuman hPair, hReopen hPair⟩, hClauses⟩

theorem Refers.mono (hItems : items evidence ⊆ items more) {start : String}
    (h : Refers evidence start) : Refers more start := by
  obtain ⟨item, hItem, hText⟩ := h
  exact ⟨item, hItems hItem, hText⟩

/-- A transition that is accepted is accepted with more evidence. -/
theorem accepts_mono (hItems : items evidence ⊆ items more)
    (hAccepted : validateTransition host secret token h newState cause evidence = .ok ()) :
    validateTransition host secret token h newState cause more = .ok () := by
  rw [accepts_iff] at hAccepted ⊢
  obtain ⟨hToken, hCause, hLegal, hSome, hReopen, hClauses⟩ := hAccepted
  refine ⟨hToken, hCause, hLegal, hSome.mono hItems, ?_, ?_⟩
  · exact fun hPair start hStart => (hReopen hPair start hStart).mono hItems
  · intro starts hStarts
    obtain ⟨start, hStart, hRefers⟩ := hClauses starts hStarts
    exact ⟨start, hStart, hRefers.mono hItems⟩

/-- Acceptance depends on the set of stripped items only, and grows with it. -/
theorem acceptance_by_items (host : Host) (secret : Bytes) (token : Option DriverToken)
    (h : HypothesisRecord) (newState : HState) (cause : String) (evidence more : List String) :
    (items evidence = items more →
      (validateTransition host secret token h newState cause evidence = .ok () ↔
        validateTransition host secret token h newState cause more = .ok ())) ∧
    (items evidence ⊆ items more →
      validateTransition host secret token h newState cause evidence = .ok () →
        validateTransition host secret token h newState cause more = .ok ()) := by
  refine ⟨fun hEq => ⟨?_, ?_⟩, accepts_mono⟩
  · exact accepts_mono hEq.subset
  · exact accepts_mono hEq.symm.subset

open Store in
/-- Evidence of the sample's first move, with an item repeated and one added. -/
theorem sample_accepted_with_more :
    validateTransition sampleHost sampleSecret (some sampleToken) (sample .open ∅ 0)
      .investigating "reviewed" ["note", "scope:Vault", "task:T-001", " task:T-001"] = .ok () := by
  refine (acceptance_by_items sampleHost sampleSecret (some sampleToken) (sample .open ∅ 0)
    .investigating "reviewed" ["task:T-001", "scope:Vault"] _).2 ?_ (by decide)
  rintro item ⟨hText, given, hGiven, hStrip⟩
  refine ⟨hText, given, ?_, hStrip⟩
  simp only [List.mem_cons, List.not_mem_nil, or_false] at hGiven ⊢
  tauto

end Acceptance

section Findings

/-- The literal item that stands for a production reference. -/
def NotApplicable (evidence : List String) : Prop := "production:not_applicable" ∈ items evidence

/-- The references that a finding needs, those on production left out. -/
structure Supported (evidence : List String) : Prop where
  execution : Refers evidence "execution_l6:"
  verified : Refers evidence "hard_verifier_pass:"
  impact : Refers evidence "economics_l6:" ∨ Refers evidence "impact:"
  adjudicated : Refers evidence "adjudication:" ∨ Refers evidence "human_override:"

/-- The documented evidence of a finding. -/
structure Documented (evidence : List String) : Prop extends Supported evidence where
  production : Refers evidence "production_l7:" ∨ NotApplicable evidence

variable {host : Host} {secret : Bytes} {signed : DriverToken} {h : HypothesisRecord}
  {cause : String} {evidence : List String}

theorem finding_accepted (hToken : signed.isValid host secret = .ok true)
    (hState : h.state = .confirmed) :
    validateTransition host secret (some signed) h .finding cause evidence = .ok () ↔
      strip cause ≠ "" ∧ Supported evidence ∧
        (Refers evidence "production_l7:" ∨ Refers evidence "production:not_applicable") := by
  rw [accepts_iff, hState]
  constructor
  · rintro ⟨-, hCause, -, -, -, hClauses⟩
    simp only [clauses, List.forall_mem_cons] at hClauses
    simp only [List.mem_cons, List.not_mem_nil, or_false, exists_eq_or_imp,
      exists_eq_left] at hClauses
    obtain ⟨hExecution, hVerified, hImpact, hProduction, hAdjudicated, -⟩ := hClauses
    exact ⟨hCause, ⟨hExecution, hVerified, hImpact, hAdjudicated⟩, hProduction⟩
  · rintro ⟨hCause, hSupported, hProduction⟩
    obtain ⟨item, hItem, -⟩ := hSupported.execution
    have hNoReopen : isReopen .confirmed .finding = false := rfl
    refine ⟨⟨signed, rfl, hToken, ?_⟩, hCause, by decide, ⟨item, hItem⟩, ?_, ?_⟩
    · rw [hNoReopen]
      exact fun hPair => Bool.noConfusion hPair
    · rw [hNoReopen]
      exact fun hPair => Bool.noConfusion hPair
    simp only [clauses, List.forall_mem_cons]
    simp only [List.mem_cons, List.not_mem_nil, or_false, exists_eq_or_imp, exists_eq_left]
    exact ⟨hSupported.execution, hSupported.verified, hSupported.impact, hProduction,
      hSupported.adjudicated, fun _ hNone => hNone.elim⟩

/-- A confirmed hypothesis becomes a finding on the documented evidence exactly where the
production clause is not met by the literal item alone, or by the literal with more text alone. -/
theorem finding_as_documented_iff (hToken : signed.isValid host secret = .ok true)
    (hState : h.state = .confirmed) :
    (validateTransition host secret (some signed) h .finding cause evidence = .ok () ↔
        Documented evidence) ↔
      ¬ Supported evidence ∨
      (strip cause ≠ "" ∧ (Refers evidence "production_l7:" ∨
        (NotApplicable evidence ↔ Refers evidence "production:not_applicable"))) ∨
      (strip cause = "" ∧ ¬ Refers evidence "production_l7:" ∧ ¬ NotApplicable evidence) := by
  have hDocumented : Documented evidence ↔ Supported evidence ∧
      (Refers evidence "production_l7:" ∨ NotApplicable evidence) :=
    ⟨fun hAll => ⟨hAll.toSupported, hAll.production⟩, fun hAll => ⟨hAll.1, hAll.2⟩⟩
  rw [finding_accepted hToken hState, hDocumented, ne_eq]
  generalize Supported evidence = supported
  generalize Refers evidence "production_l7:" = production
  generalize Refers evidence "production:not_applicable" = extended
  generalize NotApplicable evidence = literal
  generalize (strip cause = "") = blank
  by_cases hSupported : supported
  · by_cases hProduction : production
    · by_cases hBlank : blank
      · simp [hSupported, hProduction, hBlank]
      · simp [hSupported, hProduction, hBlank]
    · by_cases hBlank : blank
      · simp [hSupported, hProduction, hBlank]
      · simp [hSupported, hProduction, hBlank, iff_comm]
  · simp [hSupported]

def confirmedEvidence (production : String) : List String :=
  ["execution_l6:r1", "hard_verifier_pass:r2", "impact:loss", production, "adjudication:a1"]

open Store in
theorem sample_confirmed_finding :
    validateTransition sampleHost sampleSecret (some sampleToken) (sample .confirmed ∅ 0) .finding
      "reviewed" (confirmedEvidence "production_l7:r3") = .ok () ∧
    validateTransition sampleHost sampleSecret (some sampleToken) (sample .confirmed ∅ 0) .finding
      "reviewed" (confirmedEvidence "production:not_applicable") ≠ .ok () := by
  decide

/-- A reference in the evidence of the sample. -/
theorem confirmed_refers {production given : String} (start text : String)
    (hGiven : given ∈ confirmedEvidence production) (hStrip : strip given = start ++ text)
    (hText : strip text ≠ "") : Refers (confirmedEvidence production) start := by
  refine ⟨start ++ text, ⟨fun hEmpty => ?_, given, hGiven, hStrip⟩, text, rfl, hText⟩
  have hTextEmpty : text = "" := by
    rw [← String.toList_eq_nil_iff, String.toList_append, List.append_eq_nil_iff] at hEmpty
    exact String.toList_eq_nil_iff.mp hEmpty.2
  rw [hTextEmpty] at hText
  exact hText (by decide)

/-- The evidence of the sample supports a finding, whatever it says on production. -/
theorem confirmed_supported (production : String) :
    Supported (confirmedEvidence production) := by
  refine ⟨?_, ?_, .inr ?_, .inl ?_⟩
  · exact @confirmed_refers production "execution_l6:r1" _ "r1" (by simp [confirmedEvidence])
      (by decide) (by decide)
  · exact @confirmed_refers production "hard_verifier_pass:r2" _ "r2" (by simp [confirmedEvidence])
      (by decide) (by decide)
  · exact @confirmed_refers production "impact:loss" _ "loss" (by simp [confirmedEvidence])
      (by decide) (by decide)
  · exact @confirmed_refers production "adjudication:a1" _ "a1" (by simp [confirmedEvidence])
      (by decide) (by decide)

/-- The documented literal alone is refused. -/
theorem literal_refused :
    ¬ ∀ (host : Host) (secret : Bytes) (signed : DriverToken) (h : HypothesisRecord)
      (cause : String) (evidence : List String), signed.isValid host secret = .ok true →
        h.state = .confirmed → cause ≠ "" → evidence ≠ [] →
          (validateTransition host secret (some signed) h .finding cause evidence = .ok () ↔
            Documented evidence) := by
  intro hClaim
  have hIff := hClaim _ _ Store.sampleToken (Store.sample .confirmed ∅ 0) "reviewed"
    (confirmedEvidence "production:not_applicable") Store.sampleToken_valid rfl (by decide)
    (List.cons_ne_nil _ _)
  refine sample_confirmed_finding.2 (hIff.mpr ⟨confirmed_supported _, .inr ?_⟩)
  exact ⟨by decide, "production:not_applicable", by simp [confirmedEvidence], by decide⟩

/-- With a production reference the evidence of the sample is read as documented. -/
theorem production_documented :
    validateTransition Store.sampleHost Store.sampleSecret (some Store.sampleToken)
      (Store.sample .confirmed ∅ 0) .finding "reviewed" (confirmedEvidence "production_l7:r3") =
        .ok () ↔ Documented (confirmedEvidence "production_l7:r3") := by
  refine (finding_as_documented_iff Store.sampleToken_valid rfl).mpr (.inr (.inl ⟨by decide, .inl ?_⟩))
  exact @confirmed_refers "production_l7:r3" "production_l7:r3" _ "r3" (by simp [confirmedEvidence])
    (by decide) (by decide)

end Findings
end L0vi0x.Core.Lifecycle
