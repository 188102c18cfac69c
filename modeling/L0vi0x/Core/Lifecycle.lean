import L0vi0x.Core.Hypothesis
import L0vi0x.Core.Interfaces

/-! The lifecycle of a hypothesis: which states follow which, and the evidence
that each move asks for. -/
namespace L0vi0x.Core.Lifecycle

open L0vi0x.Python

def legalTransitions : HState → List HState
  | .open => [.investigating, .parked, .closed, .closedDuplicate]
  | .investigating => [.confirmed, .parked, .closed, .closedDuplicate]
  | .confirmed => [.investigating, .finding, .closedDuplicate, .parked, .closed]
  | .parked => [.investigating, .closed, .merged]
  | .finding => [.closed, .closedDuplicate, .merged]
  | .closed => [.investigating]
  | .closedDuplicate => [.investigating]
  | .merged => [.investigating]

def isReopen : HState → HState → Bool
  | .closed, .investigating | .closedDuplicate, .investigating | .merged, .investigating => true
  | _, _ => false

def cleanEvidence (evidence : List String) : List String :=
  (evidence.map strip).filter (· ≠ "")

def has (evidence : List String) (start : String) : Bool :=
  evidence.any fun item => startsWith item start && strip (dropText item start.length) ≠ ""

def hasAny (evidence : List String) (starts : List String) : Bool := starts.any (has evidence)

def require (condition : Bool) (message : String) : Py Unit :=
  raiseIf (!condition) .illegalTransition message

def checkReopen (token : DriverToken) (reopenCount : Nat) (evidence : List String) : Py Unit := do
  require token.humanOverride "reopening is human-override only"
  require (has evidence "human_reason:") "reopening requires a human reason evidence reference"
  require (has evidence "new_evidence:") "reopening requires new evidence"
  require (has evidence "replacement:") "reopening requires a replacement evidence reference"
  if 3 ≤ reopenCount then
    require (has evidence "reviewer2:")
      "a fourth or later reopen requires second-reviewer evidence"
  else pure ()

/-- The evidence that a pair of states asks for. -/
def checkEvidence (evidence : List String) : HState → HState → Py Unit
  | .open, .investigating => do
      require (has evidence "task:") "OPEN -> INVESTIGATING requires an assigned task ID"
      require (hasAny evidence ["scope:", "in_scope:"])
        "OPEN -> INVESTIGATING requires in-scope evidence"
  | .open, .parked =>
      require (hasAny evidence ["assumption:", "budget:", "human_reason:"])
        "OPEN -> PARKED requires a blocker assumption, budget reason, or explicit human reason"
  | .open, .closed =>
      require (hasAny evidence ["disproof:", "scope:", "not_actionable:"])
        "OPEN -> CLOSED requires falsity, scope, or non-actionable evidence"
  | .open, .closedDuplicate => do
      require (hasAny evidence ["finding:", "hypothesis:"])
        "OPEN -> CLOSED_DUPLICATE requires an existing finding or hypothesis ID"
      require (has evidence "duplicate_reason:") "duplicate closure requires duplicate rationale"
  | .investigating, .confirmed => do
      ["execution_l5:", "run_receipt:", "witness_assertion:", "build_pass:", "ast_pass:",
        "trace_policy_pass:", "mechanism_l1:", "reachability_l2:"].forM fun start =>
          require (has evidence start)
            ("INVESTIGATING -> CONFIRMED requires " ++ start ++ " evidence")
      require (hasAny evidence ["economics_l5:", "impact:"])
        "CONFIRMED requires economics L5 or an applicable non-financial impact assertion"
  | .investigating, .parked =>
      require (hasAny evidence ["failure:", "human_reason:", "blocker:"])
        "INVESTIGATING -> PARKED requires a failure record or explicit blocker"
  | .investigating, .closed =>
      require (hasAny evidence ["disproof:", "scope:", "not_actionable:"])
        "INVESTIGATING -> CLOSED requires invalidating evidence"
  | .investigating, .closedDuplicate => do
      require (has evidence "finding:")
        "INVESTIGATING -> CLOSED_DUPLICATE requires an existing finding ID"
      require (has evidence "duplicate_reason:") "duplicate closure requires duplicate rationale"
  | .confirmed, .finding => do
      ["execution_l6:", "hard_verifier_pass:"].forM fun start =>
        require (has evidence start) ("CONFIRMED -> FINDING requires " ++ start ++ " evidence")
      require (hasAny evidence ["economics_l6:", "impact:"])
        "FINDING requires economics L6 or an applicable non-financial impact assertion"
      require (hasAny evidence ["production_l7:", "production:not_applicable"])
        "FINDING requires production L7 or production:not_applicable"
      require (hasAny evidence ["adjudication:", "human_override:"])
        "FINDING requires adjudication support or a documented human override"
  | .confirmed, .investigating =>
      require (has evidence "repair:") "CONFIRMED -> INVESTIGATING requires a repair code"
  | .confirmed, .parked =>
      require (hasAny evidence ["economics:", "blocker:", "certification_failure:"])
        "CONFIRMED -> PARKED requires a blocker or certification/economics failure"
  | .confirmed, .closed =>
      require (hasAny evidence ["disproof:", "scope:", "not_actionable:"])
        "CONFIRMED -> CLOSED requires invalidating evidence"
  | .confirmed, .closedDuplicate => do
      require (has evidence "finding:")
        "CONFIRMED -> CLOSED_DUPLICATE requires an existing finding ID"
      require (has evidence "duplicate_reason:") "duplicate closure requires duplicate rationale"
  | .parked, .investigating =>
      require (has evidence "unblocked:") "PARKED -> INVESTIGATING requires unblock evidence"
  | .parked, .closed =>
      require (hasAny evidence ["permanent_blocker:", "scope:"])
        "PARKED -> CLOSED requires permanent blocker or scope evidence"
  | .parked, .merged => do
      require (has evidence "parent:") "PARKED -> MERGED requires parent hypothesis evidence"
      require (has evidence "replacement:")
        "PARKED -> MERGED requires replacement hypothesis evidence"
      require (has evidence "merge_rationale:") "PARKED -> MERGED requires merge rationale"
  | .finding, .closed =>
      require (hasAny evidence ["disproof:", "invalidating:", "scope:"])
        "FINDING -> CLOSED requires invalidating evidence"
  | .finding, .closedDuplicate => do
      require (has evidence "finding:") "FINDING -> CLOSED_DUPLICATE requires existing finding ID"
      require (has evidence "duplicate_reason:") "duplicate closure requires duplicate rationale"
  | .finding, .merged => do
      require (has evidence "replacement:") "FINDING -> MERGED requires replacement finding ID"
      require (has evidence "preserved_evidence:")
        "finding merge requires preserved evidence link"
  | _, _ => pure ()

/-- The reopening rules, where the pair of states is a reopening. -/
def checkHuman (token : Option DriverToken) (h : HypothesisRecord) (newState : HState)
    (evidence : List String) : Py Unit :=
  match token, isReopen h.state newState with
  | some token, true => checkReopen token h.reopenCount evidence
  | _, _ => pure ()

/-- `validate_transition(token, hypothesis, new_state, cause, evidence)`, which
reads the state and the reopen count of the hypothesis. -/
def validateTransition (host : Host) (secret : Bytes) (token : Option DriverToken)
    (h : HypothesisRecord) (newState : HState) (cause : String) (evidence : List String) :
    Py Unit := do
  let valid ← validToken host secret token
  raiseIf (!valid) .illegalTransition "valid driver token required"
  raiseIf (strip cause = "") .illegalTransition "cause must be non-empty"
  let items := cleanEvidence evidence
  raiseIf items.isEmpty .illegalTransition
    "every transition requires at least one evidence reference"
  raiseIf (!(legalTransitions h.state).contains newState) .illegalTransition
    ("illegal transition " ++ h.state.text ++ " -> " ++ newState.text)
  checkHuman token h newState items
  checkEvidence items h.state newState

section Facts

variable {host : Host} {secret : Bytes}

/-- A requirement is passed when its condition holds. -/
@[simp] theorem require_eq_ok {condition : Bool} {message : String} {u : Unit} :
    require condition message = .ok u ↔ condition = true := by
  simp [require]

/-- What a transition asks of the token of a human. -/
theorem checkHuman_eq_ok {signed : DriverToken} {h : HypothesisRecord} {newState : HState}
    {evidence : List String} {u : Unit} :
    checkHuman (some signed) h newState evidence = .ok u ↔
      (isReopen h.state newState = true →
        checkReopen signed h.reopenCount evidence = .ok ()) := by
  unfold checkHuman
  cases isReopen h.state newState with
  | false => simp
  | true => simp

/-- What an accepted transition has passed: a valid token, a legal pair, the rules
of a reopening and the evidence of the pair. -/
theorem validateTransition_eq_ok {token : Option DriverToken} {h : HypothesisRecord}
    {newState : HState} {cause : String} {evidence : List String} {u : Unit} :
    validateTransition host secret token h newState cause evidence = .ok u ↔
      ∃ signed, token = some signed ∧ signed.isValid host secret = .ok true ∧
        strip cause ≠ "" ∧ cleanEvidence evidence ≠ [] ∧ newState ∈ legalTransitions h.state ∧
        (isReopen h.state newState = true →
          checkReopen signed h.reopenCount (cleanEvidence evidence) = .ok ()) ∧
        checkEvidence (cleanEvidence evidence) h.state newState = .ok () := by
  cases token with
  | none => simp [validateTransition, validToken, bind_eq_ok]
  | some signed =>
      simp only [validateTransition, validToken, bind_eq_ok, raiseIf_eq_ok, Bool.not_eq_false',
        decide_eq_false_iff_not, List.contains_iff_mem, Option.some.injEq, exists_eq_left']
      constructor
      · rintro ⟨valid, hValid, _, rfl, _, hCause, _, hItems, _, hLegal, _, hReopen, hEvidence⟩
        exact ⟨hValid, hCause, by simpa using hItems, hLegal, checkHuman_eq_ok.mp hReopen,
          hEvidence⟩
      · rintro ⟨hValid, hCause, hItems, hLegal, hReopen, hEvidence⟩
        exact ⟨true, hValid, (), rfl, (), hCause, (), by simpa using hItems, (), hLegal, (),
          checkHuman_eq_ok.mpr hReopen, hEvidence⟩

theorem checkReopen_eq_ok {token : DriverToken} {reopenCount : Nat} {evidence : List String}
    {u : Unit} : checkReopen token reopenCount evidence = .ok u ↔
      token.humanOverride = true ∧ has evidence "human_reason:" = true ∧
        has evidence "new_evidence:" = true ∧ has evidence "replacement:" = true ∧
        (3 ≤ reopenCount → has evidence "reviewer2:" = true) := by
  simp only [checkReopen, bind_eq_ok, require_eq_ok]
  constructor
  · rintro ⟨_, hHuman, _, hReason, _, hNew, _, hReplace, hThird⟩
    refine ⟨hHuman, hReason, hNew, hReplace, fun hThree => ?_⟩
    rw [if_pos hThree, require_eq_ok] at hThird
    exact hThird
  · rintro ⟨hHuman, hReason, hNew, hReplace, hThird⟩
    refine ⟨(), hHuman, (), hReason, (), hNew, (), hReplace, ?_⟩
    split
    · rename_i hThree
      exact require_eq_ok.mpr (hThird hThree)
    · rfl

end Facts
end L0vi0x.Core.Lifecycle
