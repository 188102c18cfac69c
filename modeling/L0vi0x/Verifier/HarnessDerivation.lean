import L0vi0x.Verifier.Derived

/-! What the steps of `derive_harness` have checked when it returns. -/
namespace L0vi0x.Verifier

open L0vi0x.Python L0vi0x.Core L0vi0x.Chain

variable {host : Host} {fs : FileSystem} {w : Witness}

/-- The first assertion event comes from the declared harness, wrapper and depth. -/
structure OriginOf (w : Witness) (events : List Fields) (o : AssertionOrigin) : Prop where
  first : ∃ event rest, events = event :: rest ∧
    loweredField (.obj event) "emitter" (.str "") = o.harness ∧
    loweredField (.obj event) "caller" (.str "") = o.wrapper ∧
    ((Json.obj event).getD "depth" (.int (-1))).toInt = .ok o.depth
  count : events.length = w.required.length
  harness : o.harness = lower w.harnessAddress
  wrapper : hasText w.wrapperAddress = true → o.wrapper = lower (w.wrapperAddress.getD "")
  depth : o.depth = w.expectedWrapperDepth

theorem originOf_assertionOrigin {events : List Fields} {o : AssertionOrigin}
    (h : assertionOrigin events w = .ok o) : OriginOf w events o := by
  unfold assertionOrigin at h
  cases events with
  | nil => simp at h
  | cons event rest =>
      simp only [bind_eq_ok, pure_eq_ok, raiseIf_eq_ok, decide_eq_false_iff_not, not_not,
        not_and] at h
      obtain ⟨_, hCount, _, _, _, hHarness, _, hWrapper, depth, hDepth, _, hDeclared, rfl⟩ := h
      exact ⟨⟨event, rest, rfl, rfl, rfl, hDepth⟩, hCount, hHarness, hWrapper, hDeclared⟩

/-- The creation of the harness by the pinned deployer, at the address that its init
code gives. -/
structure CreationOf (host : Host) (w : Witness) (harness : String) (create : TraceFrame)
    (initCode : Bytes) : Prop where
  caller : ∃ s, create.caller = .str s ∧ hasText w.harnessCreate2Deployer = true ∧
    lower s = lower (w.harnessCreate2Deployer.getD "") ∧ create.caller.truthy = true
  data : create.data.truthy = true ∧ hexData create.data = .ok initCode
  address : ∃ actual, create2Address host (lower (w.harnessCreate2Deployer.getD ""))
    w.harnessCreate2Salt initCode = .ok actual ∧ lower actual = lower harness ∧
      lower actual = harness

theorem creationOf_checkCreation {create : TraceFrame} {harness : String} {r : String × String}
    (h : checkCreation host create w harness = .ok r) :
    ∃ initCode, CreationOf host w harness create initCode := by
  simp only [checkCreation, bind_eq_ok, pure_eq_ok, raiseIf_eq_ok, Bool.or_eq_false_iff,
    Bool.not_eq_eq_eq_not, Bool.not_false, bne_eq_false_iff_eq, decide_eq_false_iff_not,
    not_not] at h
  obtain ⟨_, ⟨hCaller, hData⟩, deployer, hDeployer, _, ⟨hDeclared, hSame⟩, initCode, hCode, _, _,
    actual, hActual, _, hHarness, _⟩ := h
  refine ⟨initCode, ?_, ⟨hData, hCode⟩, ?_⟩
  · unfold lowerMethod at hDeployer
    split at hDeployer
    · rename_i s hText
      rw [pure_eq_ok] at hDeployer
      exact ⟨s, hText, hDeclared, hDeployer.trans hSame, hCaller⟩
    · exact absurd hDeployer (by simp)
  · simp only [assertHarnessAddress, bind_eq_ok, pure_eq_ok, raiseIf_eq_ok,
      decide_eq_false_iff_not, not_not] at hActual
    obtain ⟨address, hAddress, _, hLower, rfl⟩ := hActual
    exact ⟨address, hSame ▸ hAddress, hLower, hHarness⟩

theorem harnessCreation_eq_ok {frames : List TraceFrame} {harness : String}
    {creation : String × String} (h : harnessCreation host frames w harness = .ok creation) :
    ∃ create, harnessCreates frames harness = [create] ∧
      checkCreation host create w harness = .ok creation := by
  unfold harnessCreation at h
  split at h
  · rename_i create hOne
    exact ⟨create, hOne, h⟩
  · simp at h

/-- The steps of `derive_harness` on a run that it accepts. -/
structure HarnessDerived (host : Host) (fs : FileSystem) (run : DerivedReplayRun)
    (w : Witness) : Prop where
  origin : ∃ o, OriginOf w run.trace.assertionEvents o ∧
    o.wrapper = lower (w.wrapperAddress.getD "")
  creation : ∃ create initCode,
    harnessCreates run.trace.frames (lower w.harnessAddress) = [create] ∧
      CreationOf host w (lower w.harnessAddress) create initCode
  flows : ∀ a ∈ w.required, checkFlow run.trace.transfers a = .ok ()

theorem harnessDerived_of_deriveHarness {run : DerivedReplayRun} {e : HarnessEvidence}
    (h : deriveHarness host fs run w = .ok e) : HarnessDerived host fs run w := by
  simp only [deriveHarness, bind_eq_ok, raiseIf_eq_ok, Bool.or_eq_false_iff,
    Bool.not_eq_eq_eq_not, Bool.not_false] at h
  obtain ⟨origin, hOrigin, creation, hCreation, _, _, _, _, _, hWrapper, _, _, hCoverage⟩ := h
  have hOf := originOf_assertionOrigin hOrigin
  obtain ⟨create, hCreates, hDeploys⟩ := harnessCreation_eq_ok hCreation
  obtain ⟨initCode, hCreation⟩ := creationOf_checkCreation hDeploys
  simp only [harnessCoverage, bind_eq_ok, pure_eq_ok] at hCoverage
  obtain ⟨_, _, _, _, _, _, _, _, _, _, _, hFlows, _⟩ := hCoverage
  rw [hOf.harness] at hCreates hCreation
  exact ⟨⟨origin, hOf, hOf.wrapper hWrapper.1.1.1⟩, ⟨create, initCode, hCreates, hCreation⟩,
    forM_eq_ok.mp hFlows⟩

end L0vi0x.Verifier
