import L0vi0x.Verifier.Derived

/-! The nine checks in order. A check that blocks ends the verification; what a
check raises outside a `try` leaves `verify` as an exception. -/
namespace L0vi0x.Verifier

open L0vi0x.Python L0vi0x.Core L0vi0x.Chain

def failureResult (checks : List CheckResult) (code : Option CheckCode) : VerificationResult :=
  match code with
  | some .nondeterministicEnv =>
      ⟨false, checks, .investigating, "repair:NONDETERMINISTIC_ENV"⟩
  | some .nondeterministicTrace =>
      ⟨false, checks, .parked, "characterize_conditional_trigger"⟩
  | some .knownIssue => ⟨false, checks, .closedDuplicate, "KNOWN_ISSUE"⟩
  | some .outOfScope => ⟨false, checks, .closed, "OUT_OF_SCOPE"⟩
  | some .spanDrift => ⟨false, checks, .closed, "SPAN_DRIFT"⟩
  | some code => ⟨false, checks, .investigating, "repair:" ++ code.text⟩
  | none => ⟨false, checks, .investigating, "repair:verification_failure"⟩

/-- A failure has not passed. -/
@[simp] theorem failureResult_passed (checks : List CheckResult) (code : Option CheckCode) :
    (failureResult checks code).passed = false := by
  unfold failureResult
  split <;> rfl

variable (host : Host) (fs : FileSystem)

def toolLockDetails (problems : List String) : Fields := [("problems", textItems problems)]

/-- V03. Without build evidence and with a tool lock, the names to look up are asked
of the missing evidence. -/
def checkBuild (ctx : VerificationContext) : Py CheckResult :=
  match ctx.build with
  | some build =>
      if !build.clean then
        pure (.fail .v03 .buildFail
          (if build.buildStderr = "" then "pinned build failed" else build.buildStderr))
      else if !build.toolLockVerified then
        pure (.fail .v03 .buildFail "tool lock is not verified"
          (toolLockDetails build.toolLockProblems))
      else pure (.pass .v03 "project builds cleanly under the verified toolchain")
  | none => match host.forgeBuild ctx.root.text with
      | .error message => pure (.fail .v03 .buildFail message)
      | .ok report =>
          if !report.passed then
            pure (.fail .v03 .buildFail
              (if report.stderr = "" then report.stdout else report.stderr))
          else if ctx.toolLockPath.isSome then
            raise .attributeError "'NoneType' object has no attribute 'required_tools'"
          else pure (.pass .v03 "forge build succeeded")

def loadCatalog (ctx : VerificationContext) : Py (List (String × String)) :=
  match ctx.cheatcodeCatalogPath with
  | none => raise .valueError "current cheatcode catalog is required"
  | some p => do
      let raw ← (← loadDocument host fs p).dumped
      match ← raw.attrGet "categories" raw with
      | .obj fields => pure (fields.map fun p => (p.1, p.2.text))
      | _ => raise .valueError "cheatcode catalog is malformed"

/-- One run directory: resolved, inside the trust root, loaded. -/
def deriveRun (ctx : VerificationContext) (trustRoot raw : Path) : Py DerivedReplayRun := do
  let p ← fs.resolve raw
  raiseIf (!p.isRelativeTo trustRoot) .valueError
    "replay run escapes declared replay trust root"
  let catalog ← loadCatalog host fs ctx
  loadRun host fs p ctx.witness catalog

def derivedRuns (ctx : VerificationContext) : Py (List DerivedReplayRun) :=
  match ctx.replay with
  | none => raise .valueError "replay evidence is missing"
  | some replay => do
      raiseIf (replay.runDirs.length < 3) .valueError
        "at least three independent replay directories are required"
      let trustRoot ← fs.resolve replay.root
      replay.runDirs.mapM (deriveRun host fs ctx trustRoot)

/-- `len(set(values)) == 1`. -/
def agree (values : List String) : Bool := values.dedup.length = 1

/-- The digest of the list of all record digests. -/
def aggregateSha256 (records : List String) : String :=
  host.sha256Text (textItems records).dumps

/-- The policy hash that a certificate is compared with, when both files are given. -/
def expectedPolicy (ctx : VerificationContext) : Py (Option String) :=
  match ctx.currentPolicyPath, ctx.cheatcodeCatalogPath with
  | some policy, some catalog => some <$> policyHash host fs policy catalog
  | _, _ => pure none

/-- The certificate part of V04. -/
def checkCertificate (w : Witness) (replay : ReplayEvidence) (policy : Option String)
    (envHash controlSha aggregate : String) (passed : CheckResult) : Py CheckResult :=
  match replay.certificate, replay.certificateKey with
  | some cert, some key =>
      if cert.runs < 3 ∨ cert.envHash ≠ envHash ∨ cert.controlSha256 ≠ controlSha ∨
          cert.observedRecordsSha256 ≠ aggregate then
        pure (.fail .v04 .certificateInvalid
          "certificate binding does not match independently derived evidence")
      else if policy.isSome ∧ policy ≠ some cert.tracePolicySha256 then
        pure (.fail .v04 .certificateInvalid
          "certificate policy hash does not match current policy/catalog")
      else do
        let valid ← Certificates.verify host cert key {
          witnessSha256 := witnessHash host w
          envHash := envHash
          observedRecordsSha256 := some aggregate
          tracePolicySha256 := some cert.tracePolicySha256
          controlSha256 := some controlSha
          crossCheckSha256 := none }
        pure (if valid then passed
          else .fail .v04 .certificateInvalid
            "certificate MAC does not verify against derived evidence")
  | _, _ => pure (.fail .v04 .certificateInvalid
      "final verification requires a certificate and host verification key")

/-- The digests of the runs: of their environments, records and controls. -/
structure RunDigests where
  environments : List String
  records : List String
  controls : List String

def runDigests (runs : List DerivedReplayRun) : RunDigests where
  environments := runs.map (·.environmentHash)
  records := runs.map fun run => run.trace.observedRecordsSha256 host
  controls := runs.map (·.controlHash)

def v04Passed (envHash aggregate controlSha : String) : CheckResult :=
  .pass .v04 "three fresh replay roots agree and all replay evidence is independently derived"
    [("control_sha256", .str controlSha), ("environment_hash", .str envHash),
      ("observed_records_sha256", .str aggregate)]

def checkReplay (ctx : VerificationContext) (replay : ReplayEvidence)
    (runs : List DerivedReplayRun) : Py CheckResult :=
  let digests := runDigests host runs
  if !agree digests.environments then
    pure (.fail .v04 .nondeterministicEnv "environment hashes differ across fresh copies")
  else if !agree digests.records then
    pure (.fail .v04 .nondeterministicTrace
      "structured observed records differ with a stable environment")
  else if !agree digests.controls then
    pure (.fail .v04 .controlNondeterministic "control hashes differ across fresh copies")
  else
    let envHash := digests.environments.headD ""
    let controlSha := digests.controls.headD ""
    if envHash ≠ ctx.witness.envHash then
      pure (.fail .v04 .envDeclarationMismatch
        "derived environment does not match witness declaration")
    else do
      let aggregate := aggregateSha256 host digests.records
      let policy ← expectedPolicy host fs ctx
      let passed := v04Passed envHash aggregate controlSha
      if ctx.requireCertificate then
        checkCertificate host ctx.witness replay policy envHash controlSha aggregate passed
      else pure passed

def loadPrices (ctx : VerificationContext) : Py Json :=
  match ctx.priceEvidencePath with
  | none => pure (.obj [])
  | some p => do
      let payload ← Json.loads (← fs.readText p)
      raiseIf (!payload.isObj) .valueError "price evidence must be an object"
      pure (payload.getD "prices" payload)

/-- The code under which a failure to derive the runs is reported. -/
def loadFailureCode (message : String) : CheckCode :=
  let text := lower message
  if ["trace", "structured", "json", "artifact"].any (containsText text) then .traceMissing
  else if containsText text "environment" then .envDeclarationMismatch
  else .certificateInvalid

/-- Append a check; a blocking one ends the verification. -/
def gate (checks : List CheckResult) (current : CheckResult)
    (next : List CheckResult → Py VerificationResult) : Py VerificationResult :=
  if current.blocks then pure (failureResult (checks ++ [current]) current.code)
  else next (checks ++ [current])

def finish (checks : List CheckResult) : VerificationResult :=
  match checks.find? fun c => !c.hard && !c.ok with
  | some soft =>
      ⟨true, checks, .finding, "human_review:" ++ (soft.code.map CheckCode.text).getD "None"⟩
  | none => ⟨true, checks, .finding, "all_m1b_checks_pass"⟩

/-- V07 to V09, on derived evidence. -/
def verifyEvidence (ctx : VerificationContext) (checks : List CheckResult)
    (harness : HarnessEvidence) (economics : EconomicEvidence) : Py VerificationResult :=
  gate checks (checkHarness harness ctx.witness.harnessAddress economics) fun checks =>
    gate (checks ++ [checkDuplicate ctx.duplicate])
      (checkEcon economics ctx.productionL7Required ctx.pinnedImpactUsd) fun checks =>
        pure (finish checks)

/-- V05 to V09, on the first run. -/
def verifyRun (ctx : VerificationContext) (checks : List CheckResult)
    (run : DerivedReplayRun) : Py VerificationResult := do
  let config := run.root.join "foundry.toml"
  if !(← fs.isFile config) then
    let current := CheckResult.fail .v05 .policyViolation
      "authoritative sanitized Foundry config is missing from the replay root"
    pure (failureResult (checks ++ [current]) current.code)
  else
    let policyPath := ctx.currentPolicyPath.getD
      (Path.ofText "config/policy/cheatcode_policy.yaml")
    let current ← checkPolicy host fs run.trace ctx.witness.witnessClass policyPath config
      ctx.witness.forkBlock
    gate checks current fun checks => do
      let control ← deriveControl run.trace run.controlTrace ctx.witness
      gate checks (checkAssertion ctx.witness run.trace.assertionEvents (some control))
        fun checks => match deriveHarness host fs run ctx.witness with
          | .error e =>
              let current := CheckResult.fail .v07 .harnessTampered
                ("cannot independently derive harness evidence: " ++ e.message)
              pure (failureResult (checks ++ [current]) current.code)
          | .ok harness =>
              match loadPrices fs ctx >>= deriveEconomics run ctx.witness with
              | .error e =>
                  let current := CheckResult.fail .v09 .econIncomplete
                    ("cannot independently derive economic evidence: " ++ e.message)
                  pure (failureResult (checks ++ [current]) current.code)
              | .ok economics => verifyEvidence ctx checks harness economics

/-- V04 and the checks after it. -/
def verifyReplay (ctx : VerificationContext) (checks : List CheckResult) :
    Py VerificationResult :=
  match ctx.replay, derivedRuns host fs ctx with
  | some replay, .ok runs => do
      let current ← checkReplay host fs ctx replay runs
      gate checks current fun checks => match runs with
        | run :: _ => verifyRun host fs ctx checks run
        | [] => raise .indexError "list index out of range"
  | none, .ok _ => raise .assertionError ""
  | _, .error e =>
      let current := CheckResult.fail .v04 (loadFailureCode e.message)
        ("cannot independently derive replay evidence: " ++ e.message)
      pure (failureResult (checks ++ [current]) current.code)

/-- `verify(ctx)`. The first three checks are evaluated before any is looked at. -/
def verify (ctx : VerificationContext) : Py VerificationResult := do
  let eligibility := checkEligibility ctx.hypothesis ctx.scope ctx.knownIssues ctx.witness.commit
  let span ← checkSpan host fs ctx.root ctx.hypothesis.target
  let build ← checkBuild host ctx
  gate [] eligibility fun checks => gate checks span fun checks => gate checks build fun checks =>
    verifyReplay host fs ctx checks

end L0vi0x.Verifier
