import L0vi0x.Chain.TracePolicy
import L0vi0x.Chain.Environment
import L0vi0x.Chain.Econ
import L0vi0x.Core.Certificates

/-! Evidence, the context of a verification and its result. -/
namespace L0vi0x.Verifier

open L0vi0x.Python L0vi0x.Core L0vi0x.Chain

inductive CheckCode
  | buildFail | outOfScope | knownIssue | spanDrift | certificateInvalid
  | envDeclarationMismatch | nondeterministicEnv | nondeterministicTrace
  | controlNondeterministic | traceMissing | policyViolation | harnessTampered
  | assertMismatch | assertVacuous | coverageIncomplete | econIncomplete
  | capitalMismatch | sensitivityIncomplete | sensitivityInvalid | headReplayFail
  | upstreamStateMismatch | likelyDuplicate
  deriving DecidableEq, Repr

def CheckCode.text : CheckCode → String
  | .buildFail => "BUILD_FAIL"
  | .outOfScope => "OUT_OF_SCOPE"
  | .knownIssue => "KNOWN_ISSUE"
  | .spanDrift => "SPAN_DRIFT"
  | .certificateInvalid => "CERTIFICATE_INVALID"
  | .envDeclarationMismatch => "ENV_DECLARATION_MISMATCH"
  | .nondeterministicEnv => "NONDETERMINISTIC_ENV"
  | .nondeterministicTrace => "NONDETERMINISTIC_TRACE"
  | .controlNondeterministic => "CONTROL_NONDETERMINISTIC"
  | .traceMissing => "TRACE_MISSING"
  | .policyViolation => "POLICY_VIOLATION"
  | .harnessTampered => "HARNESS_TAMPERED"
  | .assertMismatch => "ASSERT_MISMATCH"
  | .assertVacuous => "ASSERT_VACUOUS"
  | .coverageIncomplete => "COVERAGE_INCOMPLETE"
  | .econIncomplete => "ECON_INCOMPLETE"
  | .capitalMismatch => "CAPITAL_MISMATCH"
  | .sensitivityIncomplete => "SENSITIVITY_INCOMPLETE"
  | .sensitivityInvalid => "SENSITIVITY_INVALID"
  | .headReplayFail => "HEAD_REPLAY_FAIL"
  | .upstreamStateMismatch => "UPSTREAM_STATE_MISMATCH"
  | .likelyDuplicate => "LIKELY_DUPLICATE"

inductive CheckId
  | v01 | v02 | v03 | v04 | v05 | v06 | v07 | v08 | v09
  deriving DecidableEq, Repr

structure CheckResult where
  checkId : CheckId
  ok : Bool
  code : Option CheckCode
  hard : Bool
  message : String
  details : Fields
  deriving DecidableEq

def CheckResult.fail (checkId : CheckId) (code : CheckCode) (message : String)
    (details : Fields := []) : CheckResult :=
  ⟨checkId, false, some code, true, message, details⟩

def CheckResult.pass (checkId : CheckId) (message : String) (details : Fields := [])
    (hard : Bool := true) : CheckResult :=
  ⟨checkId, true, none, hard, message, details⟩

/-- Whether a check ends the verification. -/
def CheckResult.blocks (c : CheckResult) : Bool := c.hard && !c.ok

@[simp] theorem CheckResult.blocks_fail (checkId : CheckId) (code : CheckCode)
    (message : String) (details : Fields) :
    (CheckResult.fail checkId code message details).blocks = true := rfl

/-- A passed check does not block. -/
@[simp] theorem CheckResult.blocks_pass (checkId : CheckId) (message : String)
    (details : Fields) (hard : Bool) :
    (CheckResult.pass checkId message details hard).blocks = false := by
  cases hard <;> rfl

/-- A condition under which a check fails, with the code and message it fails with. -/
structure Failure where
  holds : Bool
  code : CheckCode
  message : String

/-- Conditions tested in order: the first that holds fails the check. -/
def CheckResult.unless (checkId : CheckId) (failures : List Failure) (passed : CheckResult) :
    CheckResult :=
  match failures.find? (·.holds) with
  | some failure => .fail checkId failure.code failure.message
  | none => passed

/-- A check that does not block has met none of its failures. -/
theorem CheckResult.unless_passes {checkId : CheckId} {failures : List Failure}
    {passed : CheckResult} (h : (CheckResult.unless checkId failures passed).blocks = false) :
    (∀ failure ∈ failures, failure.holds = false) ∧
      CheckResult.unless checkId failures passed = passed := by
  unfold CheckResult.unless at h ⊢
  cases hFind : failures.find? (·.holds) with
  | some failure => simp [hFind] at h
  | none =>
      refine ⟨fun failure hMem => ?_, rfl⟩
      simpa using List.find?_eq_none.mp hFind failure hMem

/-- Where the retained runs are. -/
structure ReplayEvidence where
  root : Path
  runDirs : List Path
  certificate : Option ReplayCertificate
  certificateKey : Option Bytes

structure BuildEvidence where
  clean : Bool
  buildStderr : String
  toolLockVerified : Bool
  toolLockProblems : List String

structure ControlEvidence where
  passed : Bool
  matchingAssertion : Bool
  observedStateChanged : Bool
  assertionEventCount : Nat
  deriving DecidableEq

structure SnapshotEvidence where
  nativeBeforeWei : Option Int
  nativeAfterWei : Option Int
  tokenBefore : List (String × Int)
  tokenAfter : List (String × Int)
  gasUsed : Option Int
  gasPriceWei : Option Int
  protocolAssetsDeltaWei : Option Int
  declaredCapitalWei : Int
  observedCapitalWei : Option Int
  sensitivity : List (String × PyFloat)
  sensitivityScenarios : List (String × SensitivityScenario)
  deriving DecidableEq

structure HarnessEvidence where
  harnessAddress : String
  wrapperAddress : String
  expectedWrapperDepth : Int
  observedWrapperDepth : Int
  observedRuntimeSha256 : String
  expectedRuntimeSha256 : String
  observedSourceSha256 : String
  expectedSourceSha256 : String
  wrapperRuntimeSha256 : String
  expectedWrapperRuntimeSha256 : String
  wrapperSourceSha256 : String
  expectedWrapperSourceSha256 : String
  create2Deployer : String
  create2Salt : String
  create2InitCodeSha256 : String
  assertionEmitter : String
  assertionEventDepth : Int
  assertionEventCaller : String
  observedActorAddresses : List String
  observedTokenAddresses : List String
  expectedActorAddresses : List String
  expectedTokenAddresses : List String
  assertionEventCount : Nat
  economicEventCount : Nat
  controlEventCount : Nat
  deriving DecidableEq

structure EconomicEvidence where
  snapshot : SnapshotEvidence
  realismFlags : List String
  pinnedBlock : Option Int
  headReplayPassed : Option Bool
  upstreamStateMatch : Option Bool
  priceSources : List String
  sensitivity : List (String × PyFloat)
  sensitivityScenarios : List (String × SensitivityScenario)
  evidenceComplete : Bool
  deriving DecidableEq

structure DuplicateEvidence where
  exactMatchId : Option String
  nearMatchIds : List String

structure VerificationContext where
  root : Path
  hypothesis : Hypothesis
  scope : Scope
  witness : Witness
  knownIssues : List KnownIssue
  replay : Option ReplayEvidence
  build : Option BuildEvidence
  duplicate : Option DuplicateEvidence
  productionL7Required : Bool
  currentPolicyPath : Option Path
  cheatcodeCatalogPath : Option Path
  toolLockPath : Option Path
  priceEvidencePath : Option Path
  pinnedImpactUsd : Option PyFloat
  requireCertificate : Bool

structure VerificationResult where
  passed : Bool
  checks : List CheckResult
  nextState : NextState
  routeReason : String
  deriving DecidableEq

end L0vi0x.Verifier
