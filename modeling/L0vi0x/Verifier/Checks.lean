import L0vi0x.Verifier.Types

/-! The checks V01, V02 and V05 to V09, each on the evidence it is given. -/
namespace L0vi0x.Verifier

open L0vi0x.Python L0vi0x.Core L0vi0x.Chain

section Eligibility

def pathInScope (path : String) (scope : Scope) : Bool :=
  let norm := (Path.ofText path).text
  scope.inScope.any fun target => match target with
    | some target =>
        let text := (Path.ofText target).text
        target != "" && (norm = text || startsWith norm (rstripSlash text ++ "/"))
    | none => false

/-- Whether a known issue still counts and concerns the file. -/
def issueApplies (issue : KnownIssue) (file : String) : Bool :=
  (issue.status = .open || issue.status = .accepted) &&
    (issue.appliesTo.isEmpty || issue.appliesTo.contains file)

/-- The failure that a known issue causes. -/
def knownIssueFailure? (h : Hypothesis) (issue : KnownIssue) : Option CheckResult :=
  let details : Fields := [("known_issue_id", .str issue.id)]
  if issueApplies issue h.target.file then
    if strip issue.claim = strip h.claim then
      some (.fail .v01 .knownIssue ("matches known issue " ++ issue.id) details)
    else if issue.spans.any fun span => span.file = h.target.file &&
        span.startLine ≤ h.target.startLine && h.target.startLine ≤ span.endLine then
      some (.fail .v01 .knownIssue ("target overlaps known issue " ++ issue.id) details)
    else none
  else none

def checkEligibility (h : Hypothesis) (scope : Scope) (knownIssues : List KnownIssue)
    (witnessCommit : String) : CheckResult :=
  let file := h.target.file
  let provenance := (getField? "commit" h.provenance).getD .null
  if file ≠ "" ∧ !pathInScope file scope then
    .fail .v01 .outOfScope "target span is outside scope"
  else if file ≠ "" ∧ (scope.outOfScope.any fun excluded =>
      file = excluded || startsWith file (rstripSlash excluded ++ "/")) then
    .fail .v01 .outOfScope "target path is explicitly excluded"
  else if h.mechanismTag ∈ scope.excludedClasses then
    .fail .v01 .outOfScope "mechanism class is excluded"
  else if witnessCommit ≠ scope.commit then
    .fail .v01 .outOfScope "witness commit does not match the pinned scope commit"
  else match knownIssues.findSome? (knownIssueFailure? h) with
    | some failure => failure
    | none =>
        if provenance.truthy && provenance != .str scope.commit then
          .fail .v01 .outOfScope "hypothesis provenance commit does not match scope commit"
        else .pass .v01 "finding is within declared scope"

end Eligibility

section SpanCheck

variable (host : Host) (fs : FileSystem)

def rangeHash (p : Path) (first last : Int) : Py String := do
  let text ← fs.readText p
  let lines := splitLines text
  raiseIf (first < 1 ∨ last > lines.length) .indexError "span line range outside file"
  pure (host.sha256Text (String.join ((lines.take last.toNat).drop (first.toNat - 1))))

/-- Whether `path.relative_to(root.resolve())` succeeds; a `ValueError` counts as
escaping. -/
def staysInside (p root : Path) : Py Bool :=
  except (p.isRelativeTo <$> fs.resolve root) ErrorKind.isValueError fun _ => pure false

def checkSpan (root : Path) (span : Span) : Py CheckResult := do
  let p ← fs.resolve (root.join span.file)
  if !(← staysInside fs p root) then
    pure (.fail .v02 .spanDrift "span escapes pinned checkout")
  else if !(← fs.isFile p) then pure (.fail .v02 .spanDrift "cited file does not exist")
  else match rangeHash host fs p span.startLine span.endLine with
    | .error e =>
        if e.kind = .osError ∨ e.kind = .unicodeDecodeError ∨ e.kind = .indexError then
          pure (.fail .v02 .spanDrift ("cannot read cited span: " ++ e.message))
        else .error e
    | .ok actual =>
        if actual ≠ span.sha256 then
          pure (.fail .v02 .spanDrift "cited span hash does not match pinned checkout"
            [("actual", .str actual), ("expected", .str span.sha256)])
        else pure (.pass .v02 "cited span exists and hash-matches")

end SpanCheck

section Policy

variable (host : Host) (fs : FileSystem)

/-- `yaml.safe_load(path.read_text(encoding="utf-8")) or {}`. -/
def loadDocument (p : Path) : Py YamlDocument := do
  let text ← fs.readText p
  match host.safeLoad text with
  | .ok d => pure d.orEmpty
  | .error message => raise .yamlError message

/-- A document as lookups see it. -/
def loadYaml (p : Path) : Py Json := do
  let d ← loadDocument host fs p
  pure d.lookups

def policyHash (policyPath catalogPath : Path) : Py String := do
  let policy ← loadDocument host fs policyPath
  let catalog ← loadDocument host fs catalogPath
  let policy ← policy.sorted
  let catalog ← catalog.sorted
  pure (host.sha256Text (Json.obj (dictOf [("policy", policy), ("catalog", catalog)])).dumps)

/-- The rules of the policy document, applied to the trace. -/
def applyPolicy (t : TraceSummary) (witnessClass : WitnessClass) (policyPath : Path)
    (forkBlock : Option Int) : Py Unit := do
  let document ← loadYaml host fs policyPath
  let rules ← document.attrGet "rules" (.obj [])
  enforceCheatcodePolicy t witnessClass rules forkBlock

def requiredFragments : List String := ["ffi = false", "fs_permissions = []", "l0vi0x_gate ="]

/-- The checks on cheatcode calls that do not depend on the policy document. -/
def checkCheatcodes (cheatcodes : List CheatcodeCall) : CheckResult :=
  match cheatcodes.findSome? fun c =>
    if c.category = "UNCLASSIFIED" ∨ c.category = "" then some "unclassified cheatcode"
    else if c.name = "hoax" ∨ c.name = "startHoax" then
      some "opaque hoax helper is forbidden; structured trace must expose its deal+prank effects"
    else none with
  | some message => .fail .v05 .policyViolation message
  | none => .pass .v05 "structured trace passes authoritative cheatcode policy"

def checkPolicy (t : TraceSummary) (witnessClass : WitnessClass)
    (policyPath foundryConfigPath : Path) (forkBlock : Option Int) : Py CheckResult :=
  match fs.readText foundryConfigPath with
  | .error e =>
      if e.kind = .osError then
        pure (.fail .v05 .policyViolation ("sanitized Foundry config unavailable: " ++ e.message))
      else .error e
  | .ok text =>
      if requiredFragments.any fun fragment => !containsText text fragment then
        pure (.fail .v05 .policyViolation
          "sanitized Foundry config is missing fail-closed security settings")
      else match applyPolicy host fs t witnessClass policyPath forkBlock with
        | .error e =>
            if e.kind = .tracePolicyError ∨ e.kind = .osError ∨ e.kind = .yamlError then
              pure (.fail .v05
                (if containsText (lower e.message) "harness" then .harnessTampered
                  else .policyViolation) e.message)
            else .error e
        | .ok _ => pure (checkCheatcodes t.cheatcodes)

end Policy

section Assertions

/-- The relation that an operator asks of the observed and the expected value. All
comparisons are evaluated, so values without an order satisfy none. -/
def relationHolds (operator : AssertionOperator) (observed expected : Json) : Bool :=
  match observed.pyLt? expected, expected.pyLt? observed with
  | some lt, some gt => match operator with
      | .eq => observed.pyEq expected
      | .neq => !observed.pyEq expected
      | .gt => gt
      | .gte => gt || observed.pyEq expected
      | .lt => lt
      | .lte => lt || observed.pyEq expected
      | .holds => observed.truthy
      | .violated => !observed.truthy
  | _, _ => false

/-- Whether an optional declared name agrees with the event's field. -/
def declaredMatches (declared : Option String) (field : Json) : Bool :=
  match declared with
  | some name => lower field.text = lower name
  | none => true

def assertionMatches (a : WitnessAssertion) (event : Fields) : Bool :=
  let e := Json.obj event
  (e.getD "id" .null).text = a.id && (e.getD "kind" .null).text = a.kind.text &&
    (e.getD "target" .null).text = a.target &&
    (e.getD "expected" .null).text = a.expected.json.text &&
    declaredMatches a.actor (e.getD "actor" (.str "")) &&
    declaredMatches a.token (e.getD "token" (.str "")) &&
    a.observedRecord = "AssertionChecked" &&
    match e.get? "observed" with
    | none => false
    | some observed =>
        (e.getD "ok" .null).truthy && relationHolds a.operator observed a.expected.json

/-- V06: every required assertion is matched by exactly one event, and not by the
control run. -/
def checkAssertion (w : Witness) (events : List Fields) (control : Option ControlEvidence) :
    CheckResult :=
  if events.length ≠ w.required.length then
    .fail .v06 .assertMismatch
      "attack replay assertion-event count does not exactly match required assertions"
  else match w.required.find? fun a => (events.filter (assertionMatches a)).length ≠ 1 with
    | some a => .fail .v06 .assertMismatch
        ("declared assertion " ++ a.id ++ " was not uniquely observed")
    | none => match control with
      | none => .fail .v06 .assertVacuous "control run is missing or failed"
      | some c =>
          if !c.passed then .fail .v06 .assertVacuous "control run is missing or failed"
          else if c.matchingAssertion || c.observedStateChanged then
            .fail .v06 .assertVacuous "control run reproduces the claimed state-changing effect"
          else .pass .v06
            "declared assertions match exactly and disappear under the mechanically observed control"

end Assertions

section Harness

/-- `_norm(a).issubset(_norm(b))`. -/
def coveredBy (expected observed : List String) : Bool :=
  (expected.map lower).all ((observed.map lower).contains ·)

def identityTexts (h : HarnessEvidence) : List String :=
  [h.harnessAddress, h.wrapperAddress, h.create2Deployer, h.create2Salt,
    h.create2InitCodeSha256, h.assertionEmitter, h.assertionEventCaller,
    h.observedRuntimeSha256, h.expectedRuntimeSha256, h.observedSourceSha256,
    h.expectedSourceSha256, h.wrapperRuntimeSha256, h.expectedWrapperRuntimeSha256,
    h.wrapperSourceSha256, h.expectedWrapperSourceSha256]

/-- The conditions under which V07 fails, in the order they are tested. -/
def harnessFailures (h : HarnessEvidence) (witnessHarnessAddress : String)
    (economics : EconomicEvidence) : List Failure :=
  [⟨(identityTexts h).any (· = ""), .harnessTampered,
      "mandatory harness identity evidence is absent"⟩,
    ⟨lower h.harnessAddress ≠ lower witnessHarnessAddress, .harnessTampered,
      "observed harness address differs from witness declaration"⟩,
    ⟨h.observedRuntimeSha256 ≠ h.expectedRuntimeSha256 ∨
        h.observedSourceSha256 ≠ h.expectedSourceSha256, .harnessTampered,
      "harness source/runtime hash mismatch"⟩,
    ⟨h.wrapperRuntimeSha256 ≠ h.expectedWrapperRuntimeSha256 ∨
        h.wrapperSourceSha256 ≠ h.expectedWrapperSourceSha256, .harnessTampered,
      "wrapper source/runtime hash mismatch"⟩,
    ⟨h.observedWrapperDepth ≠ h.expectedWrapperDepth, .harnessTampered,
      "wrapper/harness call depth mismatch"⟩,
    ⟨lower h.assertionEmitter ≠ lower h.harnessAddress ∨
        lower h.assertionEventCaller ≠ lower h.wrapperAddress, .harnessTampered,
      "AssertionChecked origin is not the declared harness/wrapper"⟩,
    ⟨h.assertionEventCount ≠ 1, .harnessTampered,
      "exactly one assertion event is required for this witness"⟩,
    ⟨h.economicEventCount ≠ 1, .econIncomplete, "exactly one economic snapshot is required"⟩,
    ⟨h.controlEventCount ≠ 1, .harnessTampered,
      "exactly one mechanically observed control event is required"⟩,
    ⟨!coveredBy h.expectedActorAddresses h.observedActorAddresses, .coverageIncomplete,
      "declared actor coverage is incomplete"⟩,
    ⟨!coveredBy h.expectedTokenAddresses h.observedTokenAddresses, .coverageIncomplete,
      "declared token coverage is incomplete"⟩,
    ⟨!economics.evidenceComplete, .econIncomplete, "economic evidence is incomplete"⟩,
    ⟨economics.snapshot.gasUsed.isNone || economics.snapshot.gasPriceWei.isNone,
      .econIncomplete, "gas evidence is missing"⟩]

def checkHarness (h : HarnessEvidence) (witnessHarnessAddress : String)
    (economics : EconomicEvidence) : CheckResult :=
  .unless .v07 (harnessFailures h witnessHarnessAddress economics)
    (.pass .v07 ("CREATE2, bytecode, source, wrapper, event origin, coverage and " ++
      "economic-boundary evidence are verified"))

/-- V08 never blocks. -/
def checkDuplicate (evidence : Option DuplicateEvidence) : CheckResult :=
  match evidence with
  | none => .pass .v08 "duplicate evidence not supplied; pre-check is unavailable" [] false
  | some e =>
      if hasText e.exactMatchId then
        ⟨.v08, false, some .likelyDuplicate, false,
          "exact duplicate of " ++ e.exactMatchId.getD "",
          [("duplicate_id", textOrNull e.exactMatchId)]⟩
      else if !e.nearMatchIds.isEmpty then
        ⟨.v08, false, some .likelyDuplicate, false,
          "near-duplicate candidate requires human review",
          [("near_matches", textItems e.nearMatchIds)]⟩
      else .pass .v08 "no canonical duplicate match" [] false

end Harness

section Econ

/-- `value < 0` of an optional integer that is present. -/
def isNegative (i : Option Int) : Bool := i.any (· < 0)

/-- Whether a dictionary has exactly the three scenario labels as its keys. -/
def hasScenarioLabels {α : Type} (pairs : List (String × α)) : Bool :=
  let labels := sensitivityLabels.map (·.2)
  labels.all ((pairs.map (·.1)).contains ·) && (pairs.map (·.1)).all (labels.contains ·)

/-- The conditions under which one scenario fails. -/
def scenarioFailures (e : EconomicEvidence) (expectedBps : Int) (label : String) :
    List Failure :=
  let scenario := assoc? label e.sensitivityScenarios
  let net := (scenario.map (·.netUsd)).getD .nan
  let summary := (assoc? label e.sensitivity).getD .nan
  [⟨scenario.map (·.bps) != some expectedBps, .sensitivityInvalid,
      label ++ " has the wrong sensitivity basis"⟩,
    ⟨!net.isFinite, .econIncomplete,
      label ++ " lacks a finite independently-derived net USD result"⟩,
    ⟨(PyFloat.ofRat (pow10 (-12))).lt (net.sub summary).abs, .sensitivityInvalid,
      label ++ " summary does not match the retained scenario result"⟩]

/-- The conditions under which V09 fails, in the order they are tested. -/
def econFailures (e : EconomicEvidence) (productionRequired : Bool) : List Failure :=
  let s := e.snapshot
  [⟨!e.evidenceComplete, .econIncomplete,
      "economic evidence did not satisfy the mandatory evidence contract"⟩,
    ⟨s.nativeBeforeWei.isNone || s.nativeAfterWei.isNone || s.gasUsed.isNone ||
        s.gasPriceWei.isNone || s.observedCapitalWei.isNone, .econIncomplete,
      "native snapshots, gas, gas price and observed capital are required"⟩,
    ⟨isNegative s.gasUsed || isNegative s.gasPriceWei || s.declaredCapitalWei < 0 ||
        isNegative s.observedCapitalWei, .econIncomplete,
      "economic integer evidence is invalid"⟩,
    ⟨s.observedCapitalWei.any (· > s.declaredCapitalWei), .capitalMismatch,
      "observed capital exceeds declared attacker capital"⟩,
    ⟨!hasScenarioLabels e.sensitivity || !hasScenarioLabels e.sensitivityScenarios,
      .sensitivityIncomplete, "mandatory +/-5% sensitivity scenarios are missing"⟩] ++
  (sensitivityLabels.flatMap fun entry => scenarioFailures e entry.1 entry.2) ++
  [⟨e.sensitivity.any fun p => !p.2.isFinite, .econIncomplete,
      "sensitivity contains non-finite values"⟩,
    ⟨productionRequired && s.protocolAssetsDeltaWei.isNone, .econIncomplete,
      "protocol asset delta is required for production verification"⟩,
    ⟨productionRequired && e.headReplayPassed != some true, .headReplayFail,
      "production replay must explicitly reproduce at head"⟩,
    ⟨productionRequired && e.upstreamStateMatch != some true, .upstreamStateMismatch,
      "independent provider state match must be explicitly confirmed"⟩]

def floatOrNull (x : Option PyFloat) : Json := (x.map Json.float).getD .null

def checkEcon (e : EconomicEvidence) (productionRequired : Bool)
    (pinnedImpactUsd : Option PyFloat) : CheckResult :=
  .unless .v09 (econFailures e productionRequired)
    (.pass .v09 ("mandatory economic snapshots, actual gas price, capital, pricing basis and " ++
        "sensitivity evidence pass")
      (dictOf [("severity_basis", .str (if pinnedImpactUsd.isSome then "pinned_block"
          else "native_or_unmapped")),
        ("pinned_block_impact_usd", floatOrNull pinnedImpactUsd),
        ("pinned_block", intOrNull e.pinnedBlock), ("gas_used", intOrNull e.snapshot.gasUsed),
        ("gas_price_wei", intOrNull e.snapshot.gasPriceWei),
        ("sensitivity", mapJson .float e.sensitivity)]))

end Econ
end L0vi0x.Verifier
