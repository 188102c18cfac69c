import L0vi0x.Verifier.ReplayAgreement

/-! Where the evidence of a passing verification was logged. The events are read
without the phase of their frames, so a setup frame can supply them. -/
namespace L0vi0x.Verifier

open L0vi0x.Python L0vi0x.Core L0vi0x.Chain

variable {host : Host} {fs : FileSystem} {ctx : VerificationContext}

/-- The event counts of derived harness evidence are those of the traces. -/
theorem deriveHarness_counts {run : DerivedReplayRun} {w : Witness} {h : HarnessEvidence}
    (hDerive : deriveHarness host fs run w = .ok h) :
    h.assertionEventCount = run.trace.assertionEvents.length ∧
      h.economicEventCount =
        ((allLogs run.trace.frames).filter (isEvent "EconomicSnapshot")).length ∧
      h.controlEventCount =
        ((allLogs run.controlTrace.frames).filter (isEvent "ControlObserved")).length := by
  simp only [deriveHarness, bind_eq_ok] at hDerive
  obtain ⟨origin, _, creation, _, _, _, harness, _, _, _, wrapper, _, hCoverage⟩ := hDerive
  simp only [harnessCoverage, bind_eq_ok, pure_eq_ok] at hCoverage
  obtain ⟨snapshots, hSnapshots, _, _, _, _, controlEvents, hControl, _, _, _, _, rfl⟩ := hCoverage
  rw [scanLogs_eq_ok] at hSnapshots hControl
  exact ⟨rfl, congrArg List.length hSnapshots.2, congrArg List.length hControl.2⟩

/-- A harness that passes shows one assertion and one snapshot. -/
theorem checkHarness_counts {h : HarnessEvidence} {address : String} {e : EconomicEvidence}
    (hPasses : (checkHarness h address e).blocks = false) :
    h.assertionEventCount = 1 ∧ h.economicEventCount = 1 ∧ h.controlEventCount = 1 := by
  have hAll := (CheckResult.unless_passes hPasses).1
  simp only [harnessFailures, List.forall_mem_cons, decide_eq_false_iff_not, not_not] at hAll
  exact ⟨hAll.2.2.2.2.2.2.1, hAll.2.2.2.2.2.2.2.1, hAll.2.2.2.2.2.2.2.2.1⟩

/-- V06 passes only when every required assertion is matched by one event, and there
are no other events. -/
theorem checkAssertion_passes {w : Witness} {events : List Fields} {c : Option ControlEvidence}
    (hPasses : (checkAssertion w events c).blocks = false) :
    events.length = w.required.length ∧
      ∀ a ∈ w.required, (events.filter (assertionMatches a)).length = 1 := by
  unfold checkAssertion at hPasses
  by_cases hLength : events.length = w.required.length
  · refine ⟨hLength, fun a ha => ?_⟩
    rw [if_neg (fun hNe => hNe hLength)] at hPasses
    cases hFind : w.required.find? fun a => (events.filter (assertionMatches a)).length ≠ 1 with
    | some b =>
        rw [hFind] at hPasses
        cases hPasses
    | none => simpa using List.find?_eq_none.mp hFind a ha
  · rw [if_pos hLength] at hPasses
    simp at hPasses

/-- The events that V06 matches and the snapshot that V07 and V09 use were logged
by frames of the witness phase. -/
def LoggedByWitness (w : Witness) (t : TraceSummary) : Prop :=
  (∀ a ∈ w.required, ∀ f ∈ t.frames, ∀ e ∈ f.assertions, assertionMatches a e = true →
    f.phase = .witness) ∧
  ∀ f ∈ t.frames, ∀ log ∈ f.logs, isEvent "EconomicSnapshot" log = true → f.phase = .witness

/-- No setup frame logs a standing assertion event or an economic snapshot. -/
def SetupSilent (t : TraceSummary) : Prop :=
  ∀ f ∈ t.frames, f.phase = .setup →
    f.assertions = [] ∧ ∀ log ∈ f.logs, isEvent "EconomicSnapshot" log = false

theorem Phase.eq_witness_of_ne {p : Phase} (h : p ≠ .setup) : p = .witness := by
  cases p
  · exact absurd rfl h
  · rfl

/-- Where the setup is silent, what is logged is logged by the witness. -/
theorem SetupSilent.loggedByWitness {w : Witness} {t : TraceSummary} (h : SetupSilent t) :
    LoggedByWitness w t := by
  constructor
  · intro a _ f hf e he _
    refine Phase.eq_witness_of_ne fun hSetup => ?_
    rw [(h f hf hSetup).1] at he
    cases he
  · intro f hf log hLog hEvent
    refine Phase.eq_witness_of_ne fun hSetup => ?_
    rw [(h f hf hSetup).2 log hLog] at hEvent
    cases hEvent

/-- When the only event matches the only required assertion, an event of a setup
frame is that event. -/
theorem LoggedByWitness.setupSilent {w : Witness} {t : TraceSummary}
    (hEvents : t.assertionEvents = t.frames.flatMap TraceFrame.assertions)
    (hOne : t.assertionEvents.length = 1)
    (hRequired : t.assertionEvents.length = w.required.length)
    (hMatched : ∀ a ∈ w.required, (t.assertionEvents.filter (assertionMatches a)).length = 1)
    (h : LoggedByWitness w t) : SetupSilent t := by
  obtain ⟨event, hEvent⟩ := List.length_eq_one_iff.mp hOne
  obtain ⟨a, ha⟩ := List.length_eq_one_iff.mp (hRequired.symm.trans hOne)
  have hMatches : assertionMatches a event = true := by
    have hCount := hMatched a (by simp [ha])
    rw [hEvent] at hCount
    by_contra hNot
    simp [hNot] at hCount
  intro f hf hSetup
  constructor
  · refine List.eq_nil_iff_forall_not_mem.mpr fun e he => ?_
    have hMem : e ∈ t.assertionEvents := by
      rw [hEvents]
      exact List.mem_flatMap.mpr ⟨f, hf, he⟩
    rw [hEvent, List.mem_singleton] at hMem
    subst hMem
    have hWitness := h.1 a (by simp [ha]) f hf e he hMatches
    rw [hSetup] at hWitness
    cases hWitness
  · intro log hLog
    by_contra hIs
    have hWitness := h.2 f hf log hLog (by simpa using hIs)
    rw [hSetup] at hWitness
    cases hWitness

/-- On a passing verification the evidence was logged in the witness phase exactly
when no setup frame of the first run logs any. -/
theorem evidence_logged_by_witness_iff (h : ReturnsPassed (verify host fs ctx)) :
    ∃ run rest, derivedRuns host fs ctx = .ok (run :: rest) ∧
      (LoggedByWitness ctx.witness run.trace ↔ SetupSilent run.trace) := by
  obtain ⟨replay, run, rest, e, hAccepted⟩ := verify_passes_iff.mp h
  refine ⟨run, rest, hAccepted.derived, ?_, SetupSilent.loggedByWitness⟩
  obtain ⟨_, _, _, hLoad⟩ := loadRun_of_derivedRuns hAccepted.derived (List.mem_cons_self ..)
  obtain ⟨payload, _, hParse⟩ := retainedTrace_of_loadRun hLoad
  have hTrace := traceOf_parseRecords hParse
  have hAssertion := checkAssertion_passes hAccepted.run.assertion
  have hCount := deriveHarness_counts hAccepted.run.harness
  have hOne := checkHarness_counts hAccepted.run.origin
  exact LoggedByWitness.setupSilent hTrace.assertionEvents (hCount.1.symm.trans hOne.1)
    hAssertion.1 hAssertion.2

section Staged

open Sample

/-- A run whose evidence is logged while it is set up. -/
def staged : AcceptedRecord where
  toRecorded := recorded [createFrame, callFrame .setup] 0 ⟨by decide +kernel, by decide +kernel⟩
  accepted := by decide +kernel

theorem staged_not_loggedByWitness : ¬ LoggedByWitness witness (summary staged.trace) := by
  rw [LoggedByWitness]
  decide

/-- Evidence that setup frames logged passes. -/
theorem setup_evidence_passes :
    ¬ ∀ (host : Host) (fs : FileSystem) (ctx : VerificationContext),
      ReturnsPassed (verify host fs ctx) → ∀ run rest,
        derivedRuns host fs ctx = .ok (run :: rest) → LoggedByWitness ctx.witness run.trace := by
  intro h
  exact staged_not_loggedByWitness (h _ _ _ staged.passes _ _ staged.derivedRuns_eq)

theorem staged_logged_iff :
    ∃ run rest, derivedRuns Sample.host staged.files staged.context = .ok (run :: rest) ∧
      (LoggedByWitness staged.context.witness run.trace ↔ SetupSilent run.trace) :=
  evidence_logged_by_witness_iff staged.passes

end Staged
end L0vi0x.Verifier
