import L0vi0x.Verifier.EvidenceOrigin
import L0vi0x.Verifier.HarnessDerivation

/-! The transfer flow that V07 compares with a declared balance delta: what V06 lets an
assertion declare, and the transfers of the setup that enter the flow. -/
namespace L0vi0x.Verifier

open L0vi0x.Python L0vi0x.Core L0vi0x.Chain

section Flow

variable {transfers : List TraceTransfer} {a : WitnessAssertion} {actor token : String}

/-- A required assertion on the balance of an actor in a token. -/
structure BalanceDelta (w : Witness) (a : WitnessAssertion) (actor token : String) : Prop where
  required : a ∈ w.required
  kind : a.kind = .balanceDelta
  actor : a.actor = some actor
  token : a.token = some token

/-- What flows to the actor of an assertion, in lower case as the transfers are. -/
def flowOf (transfers : List TraceTransfer) (actor token : String) : Int :=
  netFlow transfers (lower actor) (lower token)

theorem checkFlow_eq_ok {w : Witness} (h : BalanceDelta w a actor token) :
    checkFlow transfers a = .ok () ↔ a.expected.json.toInt = .ok (flowOf transfers actor token) := by
  unfold checkFlow
  simp only [h.kind, h.actor, h.token, bind_eq_ok, raiseIf_eq_ok, decide_eq_false_iff_not, not_not]
  constructor
  · rintro ⟨expected, hExpected, hFlow⟩
    rw [hExpected, flowOf, hFlow]
  · intro hExpected
    exact ⟨_, hExpected, rfl⟩

theorem netFlow_append (xs ys : List TraceTransfer) (actor token : String) :
    netFlow (xs ++ ys) actor token = netFlow xs actor token + netFlow ys actor token := by
  simp only [netFlow, List.filter_append, List.map_append, List.sum_append]
  omega

/-- The flow of a run is that of its setup plus that of its witness phase. -/
theorem flowOf_phases (transfers : List TraceTransfer) (actor token : String) :
    flowOf transfers actor token = flowOf (transfers.filter (·.phase = .setup)) actor token +
      flowOf (transfers.filter (·.phase = .witness)) actor token := by
  induction transfers with
  | nil => rfl
  | cons t rest ih =>
      have hCons : ∀ ts, flowOf (t :: ts) actor token =
          flowOf [t] actor token + flowOf ts actor token := fun ts =>
        netFlow_append [t] ts _ _
      have hRest := hCons rest
      have hSetup := hCons (rest.filter (·.phase = .setup))
      have hWitness := hCons (rest.filter (·.phase = .witness))
      cases hPhase : t.phase with
      | setup =>
          rw [List.filter_cons_of_pos (by simp [hPhase]), List.filter_cons_of_neg (by simp [hPhase])]
          omega
      | witness =>
          rw [List.filter_cons_of_neg (by simp [hPhase]), List.filter_cons_of_pos (by simp [hPhase])]
          omega

end Flow

section Readings

/-- A text is no integer's match, so that the expected value of a matched integer is it
exactly when the two are equal. -/
theorem expected_eq_iff {a : WitnessAssertion} {event : Fields} {d : Int}
    (hMatches : assertionMatches a event = true)
    (hObserved : getField? "observed" event = some (.int d)) :
    a.expected.json.toInt = .ok d ↔ (Json.int d).pyEq a.expected.json = true := by
  have hExact : ∀ n : Int, (Number.exact d).eq (.exact n) = true ↔ n = d := by
    intro n
    simp [Number.eq, eq_comm]
  cases hExpected : a.expected with
  | int n => simpa [Expected.json, Json.toInt, Json.pyEq, Json.number?] using (hExact n).symm
  | bool b =>
      cases b
      · simpa [Expected.json, Json.toInt, Json.pyEq, Json.number?] using (hExact 0).symm
      · simpa [Expected.json, Json.toInt, Json.pyEq, Json.number?] using (hExact 1).symm
  | text s =>
      have hNone : relationHolds a.operator (.int d) (Expected.text s).json = false := rfl
      simp only [assertionMatches, Json.get?, hObserved, hExpected, hNone, Bool.and_false] at hMatches
      cases hMatches

variable {w : Witness} {run : DerivedReplayRun} {a : WitnessAssertion} {actor token : String}

/-- V07 accepts the flow of an assertion that V06 accepts at an observed value which is
that flow, exactly when the value equals the expected one, whatever the operator is; it
rejects the run otherwise. -/
theorem flow_accepted_iff {event : Fields} {d : Int} (hDelta : BalanceDelta w a actor token)
    (hMatches : assertionMatches a event = true)
    (hObserved : getField? "observed" event = some (.int d))
    (hFlow : flowOf run.trace.transfers actor token = d) :
    (checkFlow run.trace.transfers a = .ok () ↔ (Json.int d).pyEq a.expected.json = true) ∧
      ((Json.int d).pyEq a.expected.json = false →
        ∀ host fs, ¬ returns (deriveHarness host fs run w)) := by
  have hIff : checkFlow run.trace.transfers a = .ok () ↔
      (Json.int d).pyEq a.expected.json = true := by
    rw [checkFlow_eq_ok hDelta, hFlow, expected_eq_iff hMatches hObserved]
  refine ⟨hIff, fun hDiffer host fs => ?_⟩
  rintro ⟨e, he⟩
  have hChecked := (harnessDerived_of_deriveHarness he).flows a hDelta.required
  rw [hIff.mp hChecked] at hDiffer
  cases hDiffer

end Readings

/-! Runs of the small project in which one balance delta is declared. The contracts of the
project are known, so V07 computes on what the run recorded. -/
namespace Sample

variable {runs : Fin 3 → Recorded}

def token : String := "0x00000000000000000000000000000000000000bb"
def pool : String := "0x00000000000000000000000000000000000000cc"

/-- The wrapper gains an amount of the token. -/
def balanceDelta (operator : AssertionOperator) (expected : Int) : WitnessAssertion where
  id := "a1"
  kind := .balanceDelta
  target := "vault"
  operator := operator
  expected := .int expected
  observedRecord := "AssertionChecked"
  actor := some wrapper
  token := some token
  required := true

/-- The witness with another assertion. -/
def declaring (a : WitnessAssertion) : Witness := { witness with assertions := [a] }

def harnessOf (run : DerivedReplayRun) (w : Witness) : Py HarnessEvidence := do
  let origin ← assertionOrigin run.trace.assertionEvents w
  let creation ← harnessCreation host run.trace.frames w origin.harness
  harnessCoverage run w origin creation
    (host.sha256Text Contract.harness.source.text, host.sha256 runtime)
    (host.sha256Text Contract.wrapper.source.text, host.sha256 runtime)

/-- The harness is derived from a run of the tree without the rest of the files. -/
theorem deriveHarness_declaring (i : Fin 3) (a : WitnessAssertion) :
    deriveHarness host (tree runs).fileSystem (derived runs i) (declaring a) =
      harnessOf (derived runs i) (declaring a) := by
  have hHarness : contractDigests host (tree runs).fileSystem (derived runs i).root
      (declaring a).harnessSourcePath (declaring a).harnessSourceSha256
      (declaring a).harnessRuntimeSha256 "harness" = .ok _ := contractDigests_run i .harness "harness"
  have hWrapper : contractDigests host (tree runs).fileSystem (derived runs i).root
      (declaring a).wrapperSourcePath (declaring a).wrapperSourceSha256
      (declaring a).wrapperRuntimeSha256 "wrapper" = .ok _ := contractDigests_run i .wrapper "wrapper"
  have hSource : (!hasText (declaring a).harnessSourcePath ||
      !hasText (declaring a).harnessSourceSha256) = false := declared_texts.2.1
  have hIdentity : (!hasText (declaring a).wrapperAddress || !hasText (declaring a).wrapperSourcePath ||
      !hasText (declaring a).wrapperSourceSha256 ||
        !hasText (declaring a).wrapperRuntimeSha256) = false := declared_texts.2.2.1
  simp only [deriveHarness, harnessOf, hHarness, hWrapper, hSource, hIdentity, raiseIf]
  rfl

/-- A transfer of the token to the wrapper. -/
def transferFrame (phase : Phase) (amount : Int) : Json := .obj
  [("caller", .str pool), ("depth", .int 2),
    ("erc20_transfer", .obj [("amount", .int amount), ("from", .str pool), ("to", .str wrapper),
      ("token", .str token)]),
    ("kind", .str "call"), ("phase", .str phase.text), ("to", .str token)]

/-- The call to the harness that logs the evidence of a balance delta. -/
def deltaFrame (expected observed : Int) : Json := .obj
  [("caller", .str wrapper), ("depth", .int 1), ("kind", .str "call"),
    ("logs", .arr [
      .obj [("actor", .str wrapper), ("event", .str "AssertionContext"), ("id", .str "a1"),
        ("token", .str token)],
      .obj [("event", .str "AssertionChecked"), ("expected", .int expected), ("id", .str "a1"),
        ("kind", .str "balance_delta"), ("observed", .int observed), ("ok", .bool true),
        ("target", .str "vault")],
      snapshotLog]),
    ("phase", .str "witness"), ("to", .str harness)]

/-- A run in which the token was moved in the phase. -/
def deltaRun (phase : Phase) (amount expected : Int)
    (h : Sound (tracePayload [createFrame, transferFrame phase amount, deltaFrame expected amount])) :
    Recorded :=
  recorded _ 0 h

end Sample

section Exceeded

open Sample

/-- A run in which the wrapper gains two tokens, where at least one is expected. -/
def exceeded : Recorded := deltaRun .witness 2 1 ⟨by decide +kernel, by decide +kernel⟩

def exceededRun : DerivedReplayRun := derived (fun _ => exceeded) 0

def exceededEvent : Fields :=
  [("actor", .str wrapper), ("caller", .str wrapper), ("depth", .int 1), ("emitter", .str harness),
    ("event", .str "AssertionChecked"), ("expected", .int 1), ("id", .str "a1"),
    ("kind", .str "balance_delta"), ("observed", .int 2), ("ok", .bool true),
    ("target", .str "vault"), ("token", .str token)]

theorem exceeded_facts :
    exceededRun.trace.assertionEvents = [exceededEvent] ∧
      assertionMatches (balanceDelta .gte 1) exceededEvent = true ∧
      flowOf exceededRun.trace.transfers wrapper token = 2 ∧
      harnessOf exceededRun (declaring (balanceDelta .gte 1)) =
        .error ⟨.valueError, "token transfer flow does not support the declared balance delta"⟩ := by
  decide +kernel

theorem exceeded_delta :
    BalanceDelta (declaring (balanceDelta .gte 1)) (balanceDelta .gte 1) wrapper token :=
  ⟨List.mem_singleton.mpr rfl, rfl, rfl, rfl⟩

/-- A gain that is larger than the expected one is accepted by V06 and rejected by V07. -/
theorem exceeded_delta_rejected :
    ¬ ∀ (host : Host) (fs : FileSystem) (w : Witness) (run : DerivedReplayRun)
      (a : WitnessAssertion) (actor token : String) (event : Fields) (d : Int),
      BalanceDelta w a actor token → event ∈ run.trace.assertionEvents →
        assertionMatches a event = true → getField? "observed" event = some (.int d) →
          flowOf run.trace.transfers actor token = d →
            deriveHarness host fs run w ≠ .error
              ⟨.valueError, "token transfer flow does not support the declared balance delta"⟩ := by
  intro h
  refine h host (tree fun _ => exceeded).fileSystem _ exceededRun _ _ _ exceededEvent 2
    exceeded_delta ?_ exceeded_facts.2.1 rfl exceeded_facts.2.2.1 ?_
  · rw [exceeded_facts.1]
    exact List.mem_singleton.mpr rfl
  · exact (deriveHarness_declaring 0 _).trans exceeded_facts.2.2.2

/-- The flow of the run is refused, since it is not the expected amount. -/
theorem exceeded_flow_accepted_iff :
    (checkFlow exceededRun.trace.transfers (balanceDelta .gte 1) = .ok () ↔
      (Json.int 2).pyEq (balanceDelta .gte 1).expected.json = true) ∧
      ((Json.int 2).pyEq (balanceDelta .gte 1).expected.json = false →
        ∀ host fs, ¬ returns (deriveHarness host fs exceededRun (declaring (balanceDelta .gte 1)))) :=
  flow_accepted_iff exceeded_delta exceeded_facts.2.1 rfl exceeded_facts.2.2.1

end Exceeded

section Attack

variable {host : Host} {fs : FileSystem} {w : Witness} {run : DerivedReplayRun}

/-- Every declared balance delta is the flow of the transfers made in the witness phase. -/
def AttackFlows (w : Witness) (transfers : List TraceTransfer) : Prop :=
  ∀ a actor token, BalanceDelta w a actor token →
    a.expected.json.toInt =
      .ok (flowOf (transfers.filter (·.phase = .witness)) actor token)

/-- The transfers of the setup leave the balances alone that are declared. -/
def SetupNeutral (w : Witness) (transfers : List TraceTransfer) : Prop :=
  ∀ a actor token, BalanceDelta w a actor token →
    flowOf (transfers.filter (·.phase = .setup)) actor token = 0

/-- The reconciled flows are those of the attack exactly when the setup moves no token to or
from the actors on balance. -/
theorem attack_flows_iff {e : HarnessEvidence} (h : deriveHarness host fs run w = .ok e) :
    AttackFlows w run.trace.transfers ↔ SetupNeutral w run.trace.transfers := by
  refine forall₄_congr fun a actor token hDelta => ?_
  have hChecked := (harnessDerived_of_deriveHarness h).flows a hDelta.required
  rw [checkFlow_eq_ok hDelta, flowOf_phases] at hChecked
  rw [hChecked, Except.ok.injEq]
  omega

end Attack

section Funded

open Sample

/-- A run in which the setup sends the wrapper the token that it is expected to gain. -/
def funded : Recorded := deltaRun .setup 1 1 ⟨by decide +kernel, by decide +kernel⟩

def fundedRun : DerivedReplayRun := derived (fun _ => funded) 0

/-- Nothing flows to the wrapper in the witness phase, and the harness is derived all the same. -/
theorem funded_flow :
    flowOf (fundedRun.trace.transfers.filter (·.phase = .witness)) wrapper token = 0 ∧
      (harnessOf fundedRun (declaring (balanceDelta .eq 1))).isOk = true := by
  decide +kernel

/-- The run whose setup sends the token is accepted by V07. -/
theorem funded_derived : returns (deriveHarness host (tree fun _ => funded).fileSystem fundedRun
    (declaring (balanceDelta .eq 1))) := by
  rw [fundedRun, deriveHarness_declaring]
  have hOk := funded_flow.2
  cases hRun : harnessOf fundedRun (declaring (balanceDelta .eq 1)) with
  | ok e => exact ⟨e, hRun⟩
  | error e => rw [hRun] at hOk; cases hOk

/-- The transfers of the setup supply a declared delta. -/
theorem setup_supplies_delta :
    ¬ ∀ (host : Host) (fs : FileSystem) (run : DerivedReplayRun) (w : Witness)
      (e : HarnessEvidence), deriveHarness host fs run w = .ok e →
        AttackFlows w run.trace.transfers := by
  intro h
  obtain ⟨e, he⟩ := funded_derived
  have hFlow := h _ _ _ _ e he (balanceDelta .eq 1) wrapper token
    ⟨List.mem_singleton.mpr rfl, rfl, rfl, rfl⟩
  rw [funded_flow.1] at hFlow
  cases hFlow

/-- The flows of the attack and those of the setup, at the funded run. -/
theorem funded_attack_flows_iff : ∃ e, deriveHarness host (tree fun _ => funded).fileSystem fundedRun
    (declaring (balanceDelta .eq 1)) = .ok e ∧
    (AttackFlows (declaring (balanceDelta .eq 1)) fundedRun.trace.transfers ↔
      SetupNeutral (declaring (balanceDelta .eq 1)) fundedRun.trace.transfers) := by
  obtain ⟨e, he⟩ := funded_derived
  exact ⟨e, he, attack_flows_iff he⟩

end Funded
end L0vi0x.Verifier
