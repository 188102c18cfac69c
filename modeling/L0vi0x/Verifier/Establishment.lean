import L0vi0x.Verifier.HarnessDerivation
import L0vi0x.Verifier.EvidenceOrigin

/-! What a passing verification establishes about its first run. Each derivation is
inverted once; the checks between them fix the counts. -/
namespace L0vi0x.Verifier

open L0vi0x.Python L0vi0x.Core L0vi0x.Chain

variable {host : Host} {fs : FileSystem} {ctx : VerificationContext}

/-- The one assertion event is the declared one. `yes` says which values of its flag
count as true. -/
structure Declared (yes : Json → Prop) (w : Witness) (a : WitnessAssertion) (event : Fields) :
    Prop where
  ok : yes ((Json.obj event).getD "ok" .null)
  id : ((Json.obj event).getD "id" .null).text = a.id
  kind : ((Json.obj event).getD "kind" .null).text = a.kind.text
  target : ((Json.obj event).getD "target" .null).text = a.target
  expected : ((Json.obj event).getD "expected" .null).text = a.expected.json.text
  actor : declaredMatches a.actor ((Json.obj event).getD "actor" (.str "")) = true
  token : declaredMatches a.token ((Json.obj event).getD "token" (.str "")) = true
  observed : ∃ observed, (Json.obj event).get? "observed" = some observed ∧
    relationHolds a.operator observed a.expected.json = true
  emitter : loweredField (.obj event) "emitter" (.str "") = lower w.harnessAddress
  caller : w.wrapperAddress.map lower = some (loweredField (.obj event) "caller" (.str ""))
  depth : ((Json.obj event).getD "depth" (.int (-1))).toInt = .ok w.expectedWrapperDepth

/-- The frame deploys the harness from the pinned deployer, at the address that its
init code and the declared salt derive. -/
structure Deploys (host : Host) (w : Witness) (create : TraceFrame) : Prop where
  deployer : ∃ deployer, create.caller = .str deployer ∧
    w.harnessCreate2Deployer.map lower = some (lower deployer)
  derivation : ∃ deployer initCode address, w.harnessCreate2Deployer = some deployer ∧
    hexData create.data = .ok initCode ∧
    create2Address host (lower deployer) w.harnessCreate2Salt initCode = .ok address ∧
    lower address = lower w.harnessAddress

/-- The control trace reports once, for the assertion, that nothing changed, and does
not show the assertion. `no` says which values of its flag count as false. -/
structure Controlled (no : Json → Prop) (a : WitnessAssertion) (control : TraceSummary) :
    Prop where
  observed : ∃ event, (allLogs control.frames).filter (isEvent "ControlObserved") = [event] ∧
    (event.getD "id" .null).text = a.id ∧ no (event.getD "state_changed" .null)
  silent : ∀ e ∈ control.assertionEvents, ((Json.obj e).getD "id" .null).text ≠ a.id

/-- Every cheatcode call lies in a category that the rules allow in its phase. -/
def CheatcodesAllowed (witnessClass : WitnessClass) (rules : Json) (t : TraceSummary) : Prop :=
  ∃ byPhase, policyByPhase witnessClass rules = .ok byPhase ∧
    ∀ call ∈ t.cheatcodes, ∃ allowed, allowedCategories byPhase call.phase = .ok allowed ∧
      .str call.category ∈ allowed

/-- What holds of the first run of a passing verification. -/
structure Established (yes no : Json → Prop) (host : Host) (w : Witness) (rules : Json)
    (run : DerivedReplayRun) : Prop where
  assertion : ∃ a event, w.required = [a] ∧ run.trace.assertionEvents = [event] ∧
    Declared yes w a event ∧ Controlled no a run.controlTrace
  harness : ∃ create, harnessCreates run.trace.frames (lower w.harnessAddress) = [create] ∧
    Deploys host w create
  cheatcodes : CheatcodesAllowed w.witnessClass rules run.trace

section Inversion

/-- The event that V06 matches to an assertion. -/
theorem assertionMatches_iff {a : WitnessAssertion} {event : Fields} :
    assertionMatches a event = true ↔
      ((Json.obj event).getD "id" .null).text = a.id ∧
      ((Json.obj event).getD "kind" .null).text = a.kind.text ∧
      ((Json.obj event).getD "target" .null).text = a.target ∧
      ((Json.obj event).getD "expected" .null).text = a.expected.json.text ∧
      declaredMatches a.actor ((Json.obj event).getD "actor" (.str "")) = true ∧
      declaredMatches a.token ((Json.obj event).getD "token" (.str "")) = true ∧
      a.observedRecord = "AssertionChecked" ∧
      ∃ observed, (Json.obj event).get? "observed" = some observed ∧
        ((Json.obj event).getD "ok" .null).truthy = true ∧
        relationHolds a.operator observed a.expected.json = true := by
  unfold assertionMatches
  cases hObserved : (Json.obj event).get? "observed" with
  | none => simp [hObserved]
  | some observed => simp [hObserved, and_assoc]

/-- The origin that the harness evidence is about is the declared one. -/
theorem assertionOrigin_eq_ok {event : Fields} {w : Witness} {o : AssertionOrigin}
    (h : assertionOrigin [event] w = .ok o) :
    o.harness = lower w.harnessAddress ∧
      loweredField (.obj event) "emitter" (.str "") = lower w.harnessAddress ∧
      (hasText w.wrapperAddress = true →
        loweredField (.obj event) "caller" (.str "") = lower (w.wrapperAddress.getD "")) ∧
      ((Json.obj event).getD "depth" (.int (-1))).toInt = .ok w.expectedWrapperDepth := by
  simp only [assertionOrigin, bind_eq_ok, raiseIf_eq_ok, pure_eq_ok, decide_eq_false_iff_not,
    not_not, not_and] at h
  obtain ⟨_, _, _, _, _, hHarness, _, hWrapper, depth, hDepth, _, hDeclared, rfl⟩ := h
  exact ⟨hHarness, hHarness, hWrapper, hDeclared ▸ hDepth⟩

theorem hasText_iff {s : Option String} : hasText s = true ↔ ∃ t, s = some t ∧ t ≠ "" := by
  cases s with
  | none => simp [hasText]
  | some t => simp [hasText]

/-- A creation that is accepted deploys the harness from the pinned deployer. -/
theorem checkCreation_deploys {create : TraceFrame} {w : Witness} {harness : String}
    {creation : String × String} (hHarness : harness = lower w.harnessAddress)
    (h : checkCreation host create w harness = .ok creation) : Deploys host w create := by
  simp only [checkCreation, bind_eq_ok, raiseIf_eq_ok] at h
  obtain ⟨_, _, deployer, hDeployer, _, hPinned, initCode, hCode, _, _, address, hAddress, _, hSame,
    _⟩ := h
  obtain ⟨caller, hCaller, rfl⟩ : ∃ caller, create.caller = .str caller ∧ deployer = lower caller := by
    cases hCaller : create.caller with
    | str caller =>
        rw [hCaller, lowerMethod, pure_eq_ok] at hDeployer
        exact ⟨caller, rfl, hDeployer.symm⟩
    | _ => simp [hCaller, lowerMethod] at hDeployer
  simp only [Bool.or_eq_false_iff, Bool.not_eq_false', bne_eq_false_iff_eq] at hPinned
  obtain ⟨pinned, hDeclared, _⟩ := hasText_iff.mp hPinned.1
  have hLower : lower caller = lower pinned := by simpa [hDeclared] using hPinned.2
  have hDerived : create2Address host (lower caller) w.harnessCreate2Salt initCode =
      .ok address := by
    simp only [assertHarnessAddress, bind_eq_ok, pure_eq_ok] at hAddress
    obtain ⟨_, hActual, _, _, rfl⟩ := hAddress
    exact hActual
  refine ⟨⟨caller, hCaller, by rw [hDeclared, Option.map_some, hLower]⟩,
    pinned, initCode, address, hDeclared, hCode, hLower ▸ hDerived, ?_⟩
  rw [← hHarness]
  simpa using hSame

/-- Derived harness evidence is about the declared wrapper and one creation. -/
theorem deriveHarness_eq_ok {run : DerivedReplayRun} {w : Witness} {h : HarnessEvidence}
    (hDerive : deriveHarness host fs run w = .ok h) :
    (∃ o, assertionOrigin run.trace.assertionEvents w = .ok o ∧
      ∃ creation, harnessCreation host run.trace.frames w o.harness = .ok creation) ∧
      hasText w.wrapperAddress = true := by
  simp only [deriveHarness, bind_eq_ok, raiseIf_eq_ok] at hDerive
  obtain ⟨origin, hOrigin, creation, hCreation, _, _, _, _, _, hWrapper, _⟩ := hDerive
  simp only [Bool.or_eq_false_iff, Bool.not_eq_false'] at hWrapper
  exact ⟨⟨origin, hOrigin, creation, hCreation⟩, hWrapper.1.1.1⟩

/-- Two lists have the same elements when each is within the other. -/
theorem sameElements_iff {xs ys : List String} :
    sameElements xs ys = true ↔ (∀ x ∈ xs, x ∈ ys) ∧ ∀ y ∈ ys, y ∈ xs := by
  simp [sameElements]

/-- The derived control evidence of a witness with one required assertion. -/
theorem deriveControl_controlled {attack control : TraceSummary} {w : Witness}
    {a : WitnessAssertion} {c : ControlEvidence} (hOne : w.required = [a])
    (h : deriveControl attack control w = .ok c) (hUnchanged : c.observedStateChanged = false) :
    Controlled (fun j => j.truthy = false) a control := by
  simp only [deriveControl, bind_eq_ok, raiseIf_eq_ok, pure_eq_ok, hOne, List.map_cons,
    List.map_nil, List.dedup_cons_of_notMem List.not_mem_nil, List.dedup_nil,
    decide_eq_false_iff_not, not_not, Bool.not_eq_false'] at h
  obtain ⟨events, hScan, _, hLength, _, hIds, _, hSilent, rfl⟩ := h
  have hEvents := (scanLogs_eq_ok.mp hScan).2
  obtain ⟨event, rfl⟩ := List.length_eq_one_iff.mp hLength
  refine ⟨⟨event, hEvents.symm, ?_, ?_⟩, fun e he hId => ?_⟩
  · have hMem := (sameElements_iff.mp hIds).1
    simpa [eventIds] using hMem
  · simpa using hUnchanged
  · have hNone := List.filter_eq_nil_iff.mp (List.isEmpty_iff.mp hSilent) e he
    exact hNone (by simp [hId])

/-- V06 passes on control evidence in which nothing changed. -/
theorem checkAssertion_unchanged {w : Witness} {events : List Fields} {c : ControlEvidence}
    (h : (checkAssertion w events (some c)).blocks = false) : c.observedStateChanged = false := by
  unfold checkAssertion at h
  split at h
  · simp at h
  · split at h
    · simp at h
    · dsimp only at h
      split at h
      · simp at h
      · split at h
        · simp at h
        · rename_i hNot
          simp only [Bool.or_eq_true, not_or, Bool.not_eq_true] at hNot
          exact hNot.2

/-- V05 passes only when every call is allowed. -/
theorem checkPolicy_passes {t : TraceSummary} {witnessClass : WitnessClass}
    {policyPath configPath : Path} {forkBlock : Option Int}
    (h : Passes (checkPolicy host fs t witnessClass policyPath configPath forkBlock)) :
    ∃ document rules, loadYaml host fs policyPath = .ok document ∧
      document.attrGet "rules" (.obj []) = .ok rules ∧ CheatcodesAllowed witnessClass rules t := by
  obtain ⟨current, hCheck, hPasses⟩ := h
  unfold checkPolicy at hCheck
  split at hCheck
  · split at hCheck
    · simp at hCheck
      simp [← hCheck] at hPasses
    · simp at hCheck
  · split at hCheck
    · simp at hCheck
      simp [← hCheck] at hPasses
    · split at hCheck
      · split at hCheck
        · simp at hCheck
          simp [← hCheck] at hPasses
        · simp at hCheck
      · rename_i hApply
        simp only [applyPolicy, enforceCheatcodePolicy, bind_eq_ok] at hApply
        obtain ⟨document, hDocument, rules, hRules, byPhase, hPhase, hCalls⟩ := hApply
        refine ⟨document, rules, hDocument, hRules, byPhase, hPhase, fun call hCall => ?_⟩
        have hOne := forM_eq_ok.mp hCalls call hCall
        simp only [enforceCall, bind_eq_ok, raiseIf_eq_ok, decide_eq_false_iff_not, not_or,
          not_not] at hOne
        obtain ⟨allowed, hAllowed, _, hIn, _⟩ := hOne
        exact ⟨allowed, hAllowed, hIn.2⟩

end Inversion

section Result

/-- All checks that can block are passed. -/
def HardPassed (checks : List CheckResult) : Prop := ∀ c ∈ checks, c.hard = true → c.ok = true

/-- A stage that passes adds only checks that do not block. -/
def KeepsHard (stage : List CheckResult → Py VerificationResult) : Prop :=
  ∀ checks r, HardPassed checks → stage checks = .ok r → r.passed = true → HardPassed r.checks

/-- A check that does not block may be added to those that have passed. -/
theorem HardPassed.concat {checks : List CheckResult} {c : CheckResult}
    (h : HardPassed checks) (hBlocks : c.blocks = false) : HardPassed (checks ++ [c]) := by
  intro d hd hHard
  rcases List.mem_append.mp hd with hd | hd
  · exact h d hd hHard
  · rw [List.mem_singleton] at hd
    subst hd
    rw [CheckResult.blocks, hHard, Bool.true_and, Bool.not_eq_false'] at hBlocks
    exact hBlocks

theorem keepsHard_finish : KeepsHard fun checks => pure (finish checks) := by
  intro checks r hHard h _
  rw [pure_eq_ok] at h
  subst h
  unfold finish
  split <;> exact hHard

/-- A stage that passes adds a check that does not block. -/
theorem KeepsHard.gate {current : CheckResult} {next : List CheckResult → Py VerificationResult}
    (h : KeepsHard next) : KeepsHard fun checks => gate checks current next := by
  intro checks r hHard hGate hPassed
  dsimp only at hGate
  unfold Verifier.gate at hGate
  cases hBlocks : current.blocks with
  | true =>
      rw [hBlocks, if_pos rfl, pure_eq_ok] at hGate
      rw [← hGate, failureResult_passed] at hPassed
      cases hPassed
  | false =>
      rw [hBlocks, if_neg Bool.false_ne_true] at hGate
      exact h _ r (hHard.concat hBlocks) hGate hPassed

/-- A stage that ends in a failure does not pass. -/
theorem keepsHard_failure (current : CheckResult) :
    KeepsHard fun checks => pure (failureResult (checks ++ [current]) current.code) := by
  intro checks r _ h hPassed
  rw [pure_eq_ok] at h
  rw [← h, failureResult_passed] at hPassed
  cases hPassed

theorem KeepsHard.bind {α : Type} {first : Py α} {next : α → List CheckResult → Py VerificationResult}
    (h : ∀ a, KeepsHard (next a)) : KeepsHard fun checks => first >>= fun a => next a checks := by
  intro checks r hHard hRun hPassed
  obtain ⟨a, _, hNext⟩ := bind_eq_ok.mp hRun
  exact h a checks r hHard hNext hPassed

theorem keepsHard_error (e : PyError) : KeepsHard fun _ => .error e := by
  intro checks r _ h
  cases h

theorem keepsHard_verifyEvidence (harness : HarnessEvidence) (economics : EconomicEvidence) :
    KeepsHard fun checks => verifyEvidence ctx checks harness economics := by
  unfold verifyEvidence
  refine KeepsHard.gate fun checks r hHard h hPassed => ?_
  have hSoft : (checkDuplicate ctx.duplicate).blocks = false := by
    unfold checkDuplicate
    split
    · rfl
    · split
      · rfl
      · split <;> rfl
  exact keepsHard_finish.gate _ r (hHard.concat hSoft) h hPassed

/-- The stages of a run add only checks that do not block. -/
theorem keepsHard_verifyRun (run : DerivedReplayRun) :
    KeepsHard fun checks => verifyRun host fs ctx checks run := by
  unfold verifyRun
  refine KeepsHard.bind fun present => ?_
  cases present with
  | false => exact keepsHard_failure _
  | true =>
      refine KeepsHard.bind fun current => KeepsHard.gate (KeepsHard.bind fun control => ?_)
      refine KeepsHard.gate ?_
      cases deriveHarness host fs run ctx.witness with
      | error e => exact keepsHard_failure _
      | ok harness =>
          cases loadPrices fs ctx >>= deriveEconomics run ctx.witness with
          | error e => exact keepsHard_failure _
          | ok economics => exact keepsHard_verifyEvidence harness economics

/-- The stages of the replay add only checks that do not block. -/
theorem keepsHard_verifyReplay : KeepsHard fun checks => verifyReplay host fs ctx checks := by
  unfold verifyReplay
  cases ctx.replay with
  | none =>
      cases derivedRuns host fs ctx with
      | error e => exact keepsHard_failure _
      | ok runs => exact keepsHard_error _
  | some replay =>
      cases derivedRuns host fs ctx with
      | error e => exact keepsHard_failure _
      | ok runs =>
          refine KeepsHard.bind fun current => KeepsHard.gate ?_
          cases runs with
          | nil => exact keepsHard_error _
          | cons run rest => exact keepsHard_verifyRun run

/-- The blocking checks of a passing result are all passed. -/
theorem verify_hardPassed {r : VerificationResult} (h : verify host fs ctx = .ok r)
    (hPassed : r.passed = true) : HardPassed r.checks := by
  simp only [verify, bind_eq_ok] at h
  obtain ⟨span, _, build, _, h⟩ := h
  exact ((keepsHard_verifyReplay.gate).gate).gate [] r (by simp [HardPassed]) h hPassed

end Result

/-- A passing verification establishes, of its first run, the declared assertion, the
harness that emitted it, the control and the policy, and no blocking check failed. -/
theorem passed_establishes {r : VerificationResult} (h : verify host fs ctx = .ok r)
    (hPassed : r.passed = true) :
    ∃ run rest document rules, derivedRuns host fs ctx = .ok (run :: rest) ∧
      loadYaml host fs (ctx.currentPolicyPath.getD
        (Path.ofText "config/policy/cheatcode_policy.yaml")) = .ok document ∧
      document.attrGet "rules" (.obj []) = .ok rules ∧
      Established (fun j => j.truthy = true) (fun j => j.truthy = false) host ctx.witness rules
        run ∧
      HardPassed r.checks := by
  obtain ⟨replay, run, rest, e, hAccepted⟩ := verify_passes_iff.mp ⟨r, h, hPassed⟩
  obtain ⟨document, rules, hDocument, hRules, hCheatcodes⟩ := checkPolicy_passes hAccepted.run.policy
  have hMatched := checkAssertion_passes hAccepted.run.assertion
  have hCounts := deriveHarness_counts hAccepted.run.harness
  have hOne := checkHarness_counts hAccepted.run.origin
  obtain ⟨event, hEvent⟩ := List.length_eq_one_iff.mp (hCounts.1.symm.trans hOne.1)
  rw [hEvent] at hMatched
  obtain ⟨a, hRequired⟩ := List.length_eq_one_iff.mp hMatched.1.symm
  obtain ⟨⟨origin, hOrigin, creation, hCreation⟩, hWrapper⟩ :=
    deriveHarness_eq_ok hAccepted.run.harness
  rw [hEvent] at hOrigin
  obtain ⟨hHarness, hEmitter, hCaller, hDepth⟩ := assertionOrigin_eq_ok hOrigin
  obtain ⟨create, hCreates, hDeploys⟩ := harnessCreation_eq_ok hCreation
  obtain ⟨address, hAddress, _⟩ := hasText_iff.mp hWrapper
  -- the one required assertion is matched by the one event
  have hMatches : assertionMatches a event = true := by
    have hFilter := hMatched.2 a (by simp [hRequired])
    by_contra hNot
    simp [hNot] at hFilter
  obtain ⟨hId, hKind, hTarget, hExpected, hActor, hToken, _, observed, hObserved, hOk, hRelation⟩ :=
    assertionMatches_iff.mp hMatches
  refine ⟨run, rest, document, rules, hAccepted.derived, hDocument, hRules, ⟨?_, ?_, hCheatcodes⟩,
    verify_hardPassed h hPassed⟩
  · refine ⟨a, event, hRequired, hEvent, ?_, ?_⟩
    · exact ⟨hOk, hId, hKind, hTarget, hExpected, hActor, hToken, ⟨observed, hObserved, hRelation⟩,
        hEmitter, by simpa [hAddress, eq_comm] using hCaller hWrapper, hDepth⟩
    · exact deriveControl_controlled hRequired hAccepted.run.control
        (checkAssertion_unchanged hAccepted.run.assertion)
  · rw [hHarness] at hCreates hDeploys
    exact ⟨create, hCreates, checkCreation_deploys rfl hDeploys⟩

section Denied

open Sample

/-- The assertion event with the text `false` for its flag. -/
def deniedLog : Json := .obj
  [("event", .str "AssertionChecked"), ("expected", .int 1), ("id", .str "a1"),
    ("kind", .str "invariant"), ("observed", .int 1), ("ok", .str "false"),
    ("target", .str "vault")]

def deniedFrame : Json := .obj
  [("caller", .str wrapper), ("depth", .int 1), ("kind", .str "call"),
    ("logs", .arr [deniedLog, snapshotLog]), ("phase", .str "witness"), ("to", .str harness)]

/-- A control trace whose event does not say whether anything changed. -/
def mutePayload : { j : Json // Sound j } where
  val := .obj [("trace", .arr [.obj
    [("logs", .arr [.obj [("event", .str "ControlObserved"), ("id", .str "a1")]])]])]
  property := ⟨by decide +kernel, by decide +kernel⟩

def denied : Recorded :=
  ⟨tracePayload [createFrame, deniedFrame], mutePayload.val, 0,
    ⟨by decide +kernel, by decide +kernel⟩, mutePayload.property⟩

def deniedEvent : Fields :=
  [("caller", .str wrapper), ("depth", .int 1), ("emitter", .str harness),
    ("event", .str "AssertionChecked"), ("expected", .int 1), ("id", .str "a1"),
    ("kind", .str "invariant"), ("observed", .int 1), ("ok", .str "false"),
    ("target", .str "vault")]

theorem denied_passes :
    ReturnsPassed (verify Sample.host (tree fun _ => denied).fileSystem
      (context denied.trace [0, 1, 2])) := by
  refine @verify_passes _ _ _ _ (fun _ _ => rfl) (by decide) deniedEvent origin.val ?_ rfl ?_
  · decide
  · decide +kernel

theorem denied_events : (derived (fun _ => denied) 0).trace.assertionEvents = [deniedEvent] := by
  decide +kernel

/-- Flags that are no booleans pass: the event's `ok` is the text `false`. -/
theorem flags_are_read_as_truth :
    ¬ ∀ (host : Host) (fs : FileSystem) (ctx : VerificationContext) (r : VerificationResult),
      ctx.requireCertificate = true → verify host fs ctx = .ok r → r.passed = true →
        ∃ run rest document rules, derivedRuns host fs ctx = .ok (run :: rest) ∧
          loadYaml host fs (ctx.currentPolicyPath.getD
            (Path.ofText "config/policy/cheatcode_policy.yaml")) = .ok document ∧
          document.attrGet "rules" (.obj []) = .ok rules ∧
          Established (· = .bool true) (· = .bool false) host ctx.witness rules run ∧
          HardPassed r.checks := by
  intro h
  obtain ⟨r, hVerify, hPassed⟩ := denied_passes
  obtain ⟨run, rest, _, _, hRuns, _, _, hEstablished, _⟩ := h _ _ _ r rfl hVerify hPassed
  rw [Sample.derivedRuns_eq (by decide), Except.ok.injEq, List.map_cons, List.cons.injEq] at hRuns
  obtain ⟨a, event, _, hEvent, hDeclared, _⟩ := hEstablished.assertion
  rw [← hRuns.1, denied_events, List.cons.injEq] at hEvent
  have hOk := hDeclared.ok
  rw [← hEvent.1] at hOk
  exact absurd hOk (by decide +kernel)

/-- What a passing verification establishes, at the run whose flags are no booleans. -/
theorem denied_establishes :
    ∃ r run rest document rules,
      verify Sample.host (tree fun _ => denied).fileSystem (context denied.trace [0, 1, 2]) =
        .ok r ∧
      derivedRuns Sample.host (tree fun _ => denied).fileSystem (context denied.trace [0, 1, 2]) =
        .ok (run :: rest) ∧
      loadYaml Sample.host (tree fun _ => denied).fileSystem policyPath = .ok document ∧
      document.attrGet "rules" (.obj []) = .ok rules ∧
      Established (fun j => j.truthy = true) (fun j => j.truthy = false) Sample.host
        Sample.witness rules run ∧
      HardPassed r.checks := by
  obtain ⟨r, hVerify, hPassed⟩ := denied_passes
  obtain ⟨run, rest, document, rules, hAll⟩ := passed_establishes hVerify hPassed
  exact ⟨r, run, rest, document, rules, hVerify, hAll⟩

end Denied
end L0vi0x.Verifier
