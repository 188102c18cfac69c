import L0vi0x.Verifier.Pipeline
import L0vi0x.Chain.TraceParse

/-! What a passing verification means: every stage returned, no check blocked, and
the stages after V04 read the first run only. -/
namespace L0vi0x.Verifier

open L0vi0x.Python L0vi0x.Core L0vi0x.Chain

variable {host : Host} {fs : FileSystem} {ctx : VerificationContext}

/-- A check that returns and does not block. -/
def Passes (check : Py CheckResult) : Prop := ∃ c, check = .ok c ∧ c.blocks = false

/-- The evidence that the later stages derive from the first run. -/
structure Evidence where
  control : ControlEvidence
  harness : HarnessEvidence
  economics : EconomicEvidence

structure StaticAccepted (host : Host) (fs : FileSystem) (ctx : VerificationContext) : Prop where
  eligibility : (checkEligibility ctx.hypothesis ctx.scope ctx.knownIssues
    ctx.witness.commit).blocks = false
  span : Passes (checkSpan host fs ctx.root ctx.hypothesis.target)
  build : Passes (checkBuild host ctx)

structure RunAccepted (host : Host) (fs : FileSystem) (ctx : VerificationContext)
    (run : DerivedReplayRun) (e : Evidence) : Prop where
  config : fs.isFile (run.root.join "foundry.toml") = .ok true
  policy : Passes (checkPolicy host fs run.trace ctx.witness.witnessClass
    (ctx.currentPolicyPath.getD (Path.ofText "config/policy/cheatcode_policy.yaml"))
    (run.root.join "foundry.toml") ctx.witness.forkBlock)
  control : deriveControl run.trace run.controlTrace ctx.witness = .ok e.control
  assertion : (checkAssertion ctx.witness run.trace.assertionEvents
    (some e.control)).blocks = false
  harness : deriveHarness host fs run ctx.witness = .ok e.harness
  economics : (loadPrices fs ctx >>= deriveEconomics run ctx.witness) = .ok e.economics
  origin : (checkHarness e.harness ctx.witness.harnessAddress e.economics).blocks = false
  econ : (checkEcon e.economics ctx.productionL7Required ctx.pinnedImpactUsd).blocks = false

/-- The stages of a verification that passes. -/
structure Accepted (host : Host) (fs : FileSystem) (ctx : VerificationContext)
    (replay : ReplayEvidence) (run : DerivedReplayRun) (rest : List DerivedReplayRun)
    (e : Evidence) : Prop where
  static : StaticAccepted host fs ctx
  retained : ctx.replay = some replay
  derived : derivedRuns host fs ctx = .ok (run :: rest)
  agreed : Passes (checkReplay host fs ctx replay (run :: rest))
  run : RunAccepted host fs ctx run e

/-- A computation that returns a passing result. -/
def ReturnsPassed (run : Py VerificationResult) : Prop := ∃ r, run = .ok r ∧ r.passed = true

/-- Two steps return a passing result when the second does, on a result of the first. -/
theorem returnsPassed_bind {α : Type} {first : Py α} {next : α → Py VerificationResult} :
    ReturnsPassed (first >>= next) ↔ ∃ a, first = .ok a ∧ ReturnsPassed (next a) := by
  simp only [ReturnsPassed, bind_eq_ok]
  constructor
  · rintro ⟨r, ⟨a, ha, hr⟩, hPassed⟩
    exact ⟨a, ha, r, hr, hPassed⟩
  · rintro ⟨a, ha, r, hr, hPassed⟩
    exact ⟨r, ⟨a, ha, hr⟩, hPassed⟩

@[simp] theorem returnsPassed_failure {checks : List CheckResult} {code : Option CheckCode} :
    ReturnsPassed (pure (failureResult checks code)) ↔ False := by
  simp [ReturnsPassed]

@[simp] theorem returnsPassed_error {e : PyError} : ReturnsPassed (.error e) ↔ False := by
  simp [ReturnsPassed]

/-- The end of the pipeline is a passing result. -/
@[simp] theorem returnsPassed_finish {checks : List CheckResult} :
    ReturnsPassed (pure (finish checks)) ↔ True := by
  refine ⟨fun _ => trivial, fun _ => ⟨_, rfl, ?_⟩⟩
  unfold finish
  split <;> rfl

/-- A gate lets through what does not block. -/
theorem returnsPassed_gate {checks : List CheckResult} {current : CheckResult}
    {next : List CheckResult → Py VerificationResult} :
    ReturnsPassed (gate checks current next) ↔
      current.blocks = false ∧ ReturnsPassed (next (checks ++ [current])) := by
  unfold gate
  cases hBlocks : current.blocks <;> simp

theorem returnsPassed_verifyEvidence {checks : List CheckResult} {harness : HarnessEvidence}
    {economics : EconomicEvidence} :
    ReturnsPassed (verifyEvidence ctx checks harness economics) ↔
      (checkHarness harness ctx.witness.harnessAddress economics).blocks = false ∧
      (checkEcon economics ctx.productionL7Required ctx.pinnedImpactUsd).blocks = false := by
  simp only [verifyEvidence, returnsPassed_gate, returnsPassed_finish, and_true]

/-- The stages of a run pass when the run is accepted. -/
theorem returnsPassed_verifyRun {checks : List CheckResult} {run : DerivedReplayRun} :
    ReturnsPassed (verifyRun host fs ctx checks run) ↔ ∃ e, RunAccepted host fs ctx run e := by
  unfold verifyRun
  simp only [returnsPassed_bind]
  constructor
  · rintro ⟨present, hConfig, h⟩
    cases present with
    | false => simp at h
    | true =>
        simp only [Bool.not_true, Bool.false_eq_true, ↓reduceIte, returnsPassed_bind,
          returnsPassed_gate] at h
        obtain ⟨policy, hPolicy, hPolicyOk, control, hControl, hAssertion, h⟩ := h
        cases hHarness : deriveHarness host fs run ctx.witness with
        | error e => simp [hHarness] at h
        | ok harness =>
            cases hEcon : loadPrices fs ctx >>= deriveEconomics run ctx.witness with
            | error e => simp [hHarness, hEcon] at h
            | ok economics =>
                simp only [hHarness, hEcon, returnsPassed_verifyEvidence] at h
                exact ⟨⟨control, harness, economics⟩, hConfig, ⟨policy, hPolicy, hPolicyOk⟩,
                  hControl, hAssertion, hHarness, hEcon, h.1, h.2⟩
  · rintro ⟨e, h⟩
    obtain ⟨policy, hPolicy, hPolicyOk⟩ := h.policy
    refine ⟨true, h.config, ?_⟩
    simp only [Bool.not_true, Bool.false_eq_true, ↓reduceIte, returnsPassed_bind,
      returnsPassed_gate, h.harness, h.economics, returnsPassed_verifyEvidence]
    exact ⟨policy, hPolicy, hPolicyOk, e.control, h.control, h.assertion, h.origin, h.econ⟩

/-- The stages from V04 on pass when the replay and its first run are accepted. -/
theorem returnsPassed_verifyReplay {checks : List CheckResult} :
    ReturnsPassed (verifyReplay host fs ctx checks) ↔
      ∃ replay run rest e, ctx.replay = some replay ∧
        derivedRuns host fs ctx = .ok (run :: rest) ∧
        Passes (checkReplay host fs ctx replay (run :: rest)) ∧
        RunAccepted host fs ctx run e := by
  unfold verifyReplay
  cases hReplay : ctx.replay with
  | none =>
      cases hRuns : derivedRuns host fs ctx with
      | error e => simp
      | ok runs => simp [raise]
  | some replay =>
      cases hRuns : derivedRuns host fs ctx with
      | error e => simp
      | ok runs =>
          simp only [returnsPassed_bind, returnsPassed_gate]
          constructor
          · rintro ⟨current, hCurrent, hBlocks, h⟩
            cases runs with
            | nil => simp [raise] at h
            | cons run rest =>
                obtain ⟨e, he⟩ := returnsPassed_verifyRun.mp h
                exact ⟨replay, run, rest, e, rfl, rfl, ⟨current, hCurrent, hBlocks⟩, he⟩
          · rintro ⟨replay', run, rest, e, hEq, hRunsEq, ⟨current, hCurrent, hBlocks⟩, he⟩
            cases hEq
            cases hRunsEq
            exact ⟨current, hCurrent, hBlocks, returnsPassed_verifyRun.mpr ⟨e, he⟩⟩

/-- A verification passes exactly when its stages are accepted. -/
theorem verify_passes_iff :
    ReturnsPassed (verify host fs ctx) ↔
      ∃ replay run rest e, Accepted host fs ctx replay run rest e := by
  unfold verify
  simp only [returnsPassed_bind, returnsPassed_gate, returnsPassed_verifyReplay]
  constructor
  · rintro ⟨span, hSpan, build, hBuild, hEligible, hSpanOk, hBuildOk, replay, run, rest, e, hReplay,
      hRuns, hAgreed, hRun⟩
    exact ⟨replay, run, rest, e, ⟨hEligible, ⟨span, hSpan, hSpanOk⟩, ⟨build, hBuild, hBuildOk⟩⟩,
      hReplay, hRuns, hAgreed, hRun⟩
  · rintro ⟨replay, run, rest, e, h⟩
    obtain ⟨span, hSpan, hSpanOk⟩ := h.static.span
    obtain ⟨build, hBuild, hBuildOk⟩ := h.static.build
    exact ⟨span, hSpan, build, hBuild, h.static.eligibility, hSpanOk, hBuildOk, replay, run, rest, e,
      h.retained, h.derived, h.agreed, h.run⟩

end L0vi0x.Verifier
