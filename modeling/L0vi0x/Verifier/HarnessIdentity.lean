import L0vi0x.Verifier.HarnessDerivation
import L0vi0x.Verifier.EvidenceOrigin

/-! The identity of the harness as the trace alone shows it, next to what V07 derives. -/
namespace L0vi0x.Verifier

open L0vi0x.Python L0vi0x.Core L0vi0x.Chain

section Identity

structure HarnessObservation where
  harnessAddress : String
  deployer : String
  wrapper : String
  assertionEventCount : Nat
  deriving DecidableEq

def textMethod (name : String) (j : Json) : Py String :=
  match j with
  | .str s => pure s
  | j => raise .attributeError ("'" ++ j.typeName ++ "' object has no attribute '" ++ name ++ "'")

/-- `bytes.fromhex(data[2:])` and `create2_address(caller, salt, init_code)`. -/
def recomputeAddress (host : Host) (caller : Json) (data salt : String) : Py (Bytes × String) := do
  let initCode ← bytesOfHex (dropText data 2)
  let deployer ← textMethod "startswith" caller
  let recomputed ← create2Address host deployer salt initCode
  pure (initCode, recomputed)

def harnessDeployments (frames : List TraceFrame) (harness : String) : List TraceFrame :=
  frames.filter fun f =>
    f.kind = "create2" && f.phase = .setup && lower (f.toAddress.getD "") = harness

/-- The last word of the init code, which must hold an address. -/
def wrapperArgument (initCode : Bytes) : Py String := do
  raiseIf (initCode.length < 32 || ((initCode.drop (initCode.length - 32)).take 12).any (· ≠ 0))
    .harnessIdentityError "harness init code does not end in a wrapper address argument"
  pure ("0x" ++ hexOfBytes (initCode.drop (initCode.length - 20)))

def checkEventOrigin (w : Witness) (harness wrapper : String) (event : Fields) : Py Unit := do
  let e := Json.obj event
  let depth := e.getD "depth" .null
  raiseIf (loweredField e "emitter" (.str "") ≠ harness) .harnessIdentityError
    "AssertionChecked was not emitted by the fixed harness"
  raiseIf (!depth.pyEq (.int w.expectedWrapperDepth)) .harnessIdentityError
    ("AssertionChecked depth " ++ depth.text ++ " != declared wrapper depth " ++
      decimal w.expectedWrapperDepth)
  raiseIf (loweredField e "caller" (.str "") ≠ wrapper) .harnessIdentityError
    "AssertionChecked caller is not the harness' recorded wrapper"

/-- The init code and the wrapper of the one frame that deploys the harness. -/
def checkDeployment (host : Host) (frame : TraceFrame) (w : Witness) (harness : String) :
    Py String := do
  raiseIf (!frame.caller.truthy || !frame.data.truthy) .harnessIdentityError
    "harness CREATE2 frame lacks deployer or init code"
  let data ← textMethod "startswith" frame.data
  raiseIf (!startsWith data "0x") .harnessIdentityError
    "harness CREATE2 frame lacks deployer or init code"
  let (initCode, recomputed) ← except
    (recomputeAddress host frame.caller data w.harnessCreate2Salt) ErrorKind.isValueError
    fun e => raise .harnessIdentityError
      ("cannot recompute harness CREATE2 address: " ++ e.message)
  raiseIf (lower recomputed ≠ harness) .harnessIdentityError
    ("declared harness address " ++ harness ++ " does not match CREATE2 derivation " ++ recomputed)
  wrapperArgument initCode

/-- What the trace shows once one frame deploys the harness. -/
def observeDeployment (host : Host) (t : TraceSummary) (w : Witness) (harness : String)
    (frame : TraceFrame) : Py HarnessObservation := do
  let wrapper ← checkDeployment host frame w harness
  t.assertionEvents.forM (checkEventOrigin w harness wrapper)
  let deployer ← lowerMethod frame.caller
  pure ⟨harness, deployer, wrapper, t.assertionEvents.length⟩

def verifyHarnessIdentity (host : Host) (t : TraceSummary) (w : Witness) : Py HarnessObservation :=
  let harness := lower w.harnessAddress
  match harnessDeployments t.frames harness with
  | [frame] => observeDeployment host t w harness frame
  | many => raise .harnessIdentityError ("expected exactly one setup CREATE2 of the declared " ++
      "harness " ++ harness ++ ", saw " ++ decimal many.length)

end Identity

section Letters

/-- Only `0`, and `x` in either case, are lowered to the characters of the prefix. -/
theorem toLower_eq_iff (c : Char) :
    (c.toLower = '0' ↔ c = '0') ∧ (c.toLower = 'x' ↔ c = 'x' ∨ c = 'X') := by
  by_cases hUpper : c.val ≥ 'A'.val ∧ c.val ≤ 'Z'.val
  · have hLetters : ∀ n < 26, ((Char.ofNat (65 + n)).toLower = '0' ↔ Char.ofNat (65 + n) = '0') ∧
        ((Char.ofNat (65 + n)).toLower = 'x' ↔
          Char.ofNat (65 + n) = 'x' ∨ Char.ofNat (65 + n) = 'X') := by
      decide
    have hLow : 65 ≤ c.toNat := UInt32.le_iff_toNat_le.mp hUpper.1
    have hHigh : c.toNat ≤ 90 := UInt32.le_iff_toNat_le.mp hUpper.2
    have hChar : Char.ofNat (65 + (c.toNat - 65)) = c := by
      rw [Nat.add_sub_cancel' hLow, Char.ofNat_toNat]
    exact hChar ▸ hLetters (c.toNat - 65) (by omega)
  · have hSame : c.toLower = c := dif_neg hUpper
    have hNot : c ≠ 'X' := by
      rintro rfl
      exact hUpper (by decide)
    rw [hSame]
    exact ⟨Iff.rfl, by simp [hNot]⟩

theorem lower_append (s t : String) : lower (s ++ t) = lower s ++ lower t := by
  simp [lower]

theorem startsWith_lower (s : String) :
    startsWith (lower s) "0x" = (startsWith s "0x" || startsWith s "0X") := by
  have hText : ∀ cs : List Char, ['0', 'x'].isPrefixOf (cs.map Char.toLower) =
      (['0', 'x'].isPrefixOf cs || ['0', 'X'].isPrefixOf cs) := by
    intro cs
    match cs with
    | [] => rfl
    | [c] => simp [List.isPrefixOf]
    | c :: d :: rest =>
        rw [Bool.eq_iff_iff]
        simp only [List.map_cons, List.isPrefixOf_cons_cons, List.isPrefixOf_nil_left, Bool.and_true,
          Bool.and_eq_true, beq_iff_eq, Bool.or_eq_true, eq_comm (a := '0'), eq_comm (a := 'x'),
          eq_comm (a := 'X'), (toLower_eq_iff c).1, (toLower_eq_iff d).2]
        tauto
  simpa [startsWith, lower] using hText s.toList

/-- Lower case changes no address, unless it makes the prefix one that is skipped. -/
theorem hexAddress_lower {s : String} (h : startsWith s "0X" = false) :
    hexAddress (lower s) = hexAddress s := by
  have hPrefix : startsWith (lower s) "0x" = startsWith s "0x" := by
    rw [startsWith_lower, h, Bool.or_false]
  have hText : unprefixed (lower s) = lower (unprefixed s) := by
    unfold unprefixed
    rw [hPrefix]
    split
    · simp [dropText, lower]
    · rfl
  have hBytes : ∀ t, bytesOfHex (lower t) = bytesOfHex t := by
    intro t
    simp [bytesOfHex, bytesOfHex?, lower, bytesOfHexChars?_map_toLower]
  simp only [hexAddress, hText, hBytes]
  simp [lower]

theorem not_returns_hexAddress {s : String} (h : startsWith s "0X" = true)
    (hLower : returns (hexAddress (lower s))) : ¬ returns (hexAddress s) := by
  obtain ⟨t, rfl⟩ : ∃ t, s = "0X" ++ t := ⟨_, startsWith_iff.mp h⟩
  have hText : unprefixed (lower ("0X" ++ t)) = lower t := by
    rw [lower_append, show lower "0X" = "0x" from rfl, unprefixed, if_pos (startsWith_append ..)]
    exact dropText_append ..
  have hRaw : unprefixed ("0X" ++ t) = "0X" ++ t := by
    rw [unprefixed, if_neg]
    simp [startsWith]
  simp only [hexAddress, returns, bind_eq_ok, raiseIf_eq_ok, decide_eq_false_iff_not, not_not,
    hText] at hLower
  obtain ⟨_, _, hLength, _⟩ := hLower
  simp only [hexAddress, returns, bind_eq_ok, raiseIf_eq_ok, decide_eq_false_iff_not, not_not, hRaw]
  rintro ⟨_, _, hLong, _⟩
  simp [lower] at hLength hLong
  omega

end Letters

section Agreement

variable {host : Host} {fs : FileSystem} {w : Witness} {create : TraceFrame}

/-- The wrapper is the last word of the init code, where that holds an address. -/
theorem wrapperArgument_eq_ok {initCode : Bytes} {wrapper : String} :
    wrapperArgument initCode = .ok wrapper ↔ ∃ front address,
      initCode = front ++ List.replicate 12 0 ++ address ∧ address.length = 20 ∧
        wrapper = "0x" ++ hexOfBytes address := by
  simp only [wrapperArgument, bind_eq_ok, raiseIf_eq_ok, pure_eq_ok, Bool.or_eq_false_iff,
    decide_eq_false_iff_not, not_lt]
  constructor
  · rintro ⟨_, ⟨hLength, hZero⟩, rfl⟩
    have hWord : (initCode.drop (initCode.length - 32)).take 12 = List.replicate 12 0 := by
      refine List.eq_replicate_iff.mpr ⟨by simp; omega, fun b hb => ?_⟩
      simpa using List.any_eq_false.mp hZero b hb
    have hTail : (initCode.drop (initCode.length - 32)).drop 12 =
        initCode.drop (initCode.length - 20) := by
      rw [List.drop_drop]
      congr 1
      omega
    refine ⟨initCode.take (initCode.length - 32), initCode.drop (initCode.length - 20), ?_,
      by simp; omega, rfl⟩
    rw [List.append_assoc, ← hWord, ← hTail, List.take_append_drop, List.take_append_drop]
  · rintro ⟨front, address, rfl, hLength, rfl⟩
    have hStart : (front ++ List.replicate 12 0 ++ address).length - 32 = front.length := by
      simp [hLength]
    have hEnd : (front ++ List.replicate 12 0 ++ address).length - 20 =
        (front ++ List.replicate 12 (0 : UInt8)).length := by
      simp [hLength]
    refine ⟨(), ⟨by simp [hLength], ?_⟩, ?_⟩
    · rw [hStart, List.append_assoc, List.drop_left, List.take_left' (by simp)]
      simp
    · rw [hEnd, List.drop_left]

/-- An event is accepted with the emitter, the depth and the caller that are declared. -/
theorem checkEventOrigin_eq_ok {harness wrapper : String} {event : Fields} {u : Unit} :
    checkEventOrigin w harness wrapper event = .ok u ↔
      loweredField (.obj event) "emitter" (.str "") = harness ∧
        ((Json.obj event).getD "depth" .null).pyEq (.int w.expectedWrapperDepth) = true ∧
          loweredField (.obj event) "caller" (.str "") = wrapper := by
  simp [checkEventOrigin, bind_eq_ok]

/-- The address is recomputed from the deployer as the frame spells it. -/
theorem recomputeAddress_eq_ok {deployer data salt actual : String} {initCode : Bytes}
    {r : Bytes × String} (hCode : bytesOfHex (dropText data 2) = .ok initCode)
    (hActual : create2Address host (lower deployer) salt initCode = .ok actual) :
    recomputeAddress host (.str deployer) data salt = .ok r ↔
      startsWith deployer "0X" = false ∧ r = (initCode, actual) := by
  simp only [recomputeAddress, textMethod, hCode, bind_eq_ok, pure_eq_ok, Except.ok.injEq,
    exists_eq_left']
  cases hPrefix : startsWith deployer "0X" with
  | false =>
      have hSame : create2Address host deployer salt initCode = .ok actual := by
        rw [← hActual]
        simp only [create2Address, hexAddress_lower hPrefix]
      simp [hSame, eq_comm]
  | true =>
      have hAddress : returns (hexAddress (lower deployer)) := by
        simp only [create2Address, bind_eq_ok] at hActual
        obtain ⟨raw, hRaw, _⟩ := hActual
        exact ⟨raw, hRaw⟩
      constructor
      · rintro ⟨recomputed, hRecomputed, _⟩
        simp only [create2Address, bind_eq_ok] at hRecomputed
        obtain ⟨raw, hRaw, _⟩ := hRecomputed
        exact absurd ⟨raw, hRaw⟩ (not_returns_hexAddress hPrefix hAddress)
      · rintro ⟨hFalse, _⟩
        cases hFalse

/-- On a creation that V07 accepts, the trace alone shows a wrapper when the prefixes are
spelled as they are skipped, and the init code ends in an address. -/
theorem checkDeployment_eq_ok {harness wrapper : String} {initCode : Bytes}
    (h : CreationOf host w harness create initCode) :
    checkDeployment host create w harness = .ok wrapper ↔
      (∃ digits, create.data = .str ("0x" ++ digits)) ∧
        (∀ s, create.caller = .str s → startsWith s "0X" = false) ∧
          wrapperArgument initCode = .ok wrapper := by
  obtain ⟨deployer, hCaller, _, hDeployer, hCallerTruthy⟩ := h.caller
  obtain ⟨actual, hActual, _, hHarness⟩ := h.address
  obtain ⟨hDataTruthy, hHex⟩ := h.data
  obtain ⟨data, hData⟩ : ∃ data, create.data = .str data := by
    unfold hexData at hHex
    split at hHex
    · exact ⟨_, by assumption⟩
    · exact absurd hHex (by simp)
  have hCode : bytesOfHex (dropText data 2) = .ok initCode := by rwa [hData] at hHex
  have hDigits : (∃ digits, data = "0x" ++ digits) ↔ startsWith data "0x" = true := by
    constructor
    · rintro ⟨digits, rfl⟩
      exact startsWith_append ..
    · intro hStart
      exact ⟨_, startsWith_iff.mp hStart⟩
  rw [hCaller] at hCallerTruthy
  rw [hData] at hDataTruthy
  rw [← hDeployer] at hActual
  have hCaught : ∀ r, except (recomputeAddress host (.str deployer) data w.harnessCreate2Salt)
      ErrorKind.isValueError (fun e => raise .harnessIdentityError
        ("cannot recompute harness CREATE2 address: " ++ e.message)) = .ok r ↔
      startsWith deployer "0X" = false ∧ r = (initCode, actual) := by
    intro r
    simp [except_eq_ok, recomputeAddress_eq_ok hCode hActual]
  simp only [checkDeployment, hCaller, hData, textMethod, bind_eq_ok, raiseIf_eq_ok, pure_eq_ok,
    exists_eq_left', hCaught, hCallerTruthy, hDataTruthy, Json.str.injEq, forall_eq', hDigits]
  constructor
  · rintro ⟨_, _, _, hStart, _, ⟨hPrefix, rfl⟩, _, _, hWrapper⟩
    exact ⟨by simpa using hStart, hPrefix, hWrapper⟩
  · rintro ⟨hStart, hPrefix, hWrapper⟩
    exact ⟨(), rfl, (), by simp [hStart], _, ⟨hPrefix, rfl⟩, (), by simp [hHarness], hWrapper⟩

/-- What the trace alone must show of the creation of the harness besides what V07 checks:
the prefixes as they are skipped, and the declared wrapper as the last word of the init code. -/
structure ShowsWrapper (w : Witness) (create : TraceFrame) : Prop where
  kind : create.kind = "create2"
  caller : ∀ s, create.caller = .str s → startsWith s "0X" = false
  initCode : ∃ digits front address, create.data = .str ("0x" ++ digits) ∧
    bytesOfHex digits = .ok (front ++ List.replicate 12 0 ++ address) ∧ address.length = 20 ∧
      lower (w.wrapperAddress.getD "") = "0x" ++ hexOfBytes address

/-- What the trace shows of the wrapper, in terms of the fields of the creation. -/
theorem showsWrapper_iff {harness : String} {initCode : Bytes}
    (h : CreationOf host w harness create initCode) :
    ShowsWrapper w create ↔ create.kind = "create2" ∧
      (∃ digits, create.data = .str ("0x" ++ digits)) ∧
        (∀ s, create.caller = .str s → startsWith s "0X" = false) ∧
          wrapperArgument initCode = .ok (lower (w.wrapperAddress.getD "")) := by
  have hCode : ∀ digits, create.data = .str ("0x" ++ digits) → bytesOfHex digits = .ok initCode := by
    intro digits hData
    have hHex := h.data.2
    rw [hData] at hHex
    rwa [← dropText_append "0x" digits]
  rw [wrapperArgument_eq_ok]
  constructor
  · rintro ⟨hKind, hCaller, digits, front, address, hData, hBytes, hLength, hWrapper⟩
    rw [hCode digits hData, Except.ok.injEq] at hBytes
    exact ⟨hKind, ⟨digits, hData⟩, hCaller, front, address, hBytes, hLength, hWrapper⟩
  · rintro ⟨hKind, ⟨digits, hData⟩, hCaller, front, address, hBytes, hLength, hWrapper⟩
    exact ⟨hKind, hCaller, digits, front, address, hData, hBytes ▸ hCode digits hData, hLength,
      hWrapper⟩

/-- The deployment is observed when it shows the wrapper and its event the origin. -/
theorem returns_observeDeployment {t : TraceSummary} {harness : String} {initCode : Bytes}
    {event : Fields} (h : CreationOf host w harness create initCode)
    (hEvents : t.assertionEvents = [event])
    (hEmitter : loweredField (.obj event) "emitter" (.str "") = harness) :
    returns (observeDeployment host t w harness create) ↔
      ((∃ digits, create.data = .str ("0x" ++ digits)) ∧
        (∀ s, create.caller = .str s → startsWith s "0X" = false) ∧
          wrapperArgument initCode = .ok (loweredField (.obj event) "caller" (.str ""))) ∧
        ((Json.obj event).getD "depth" .null).pyEq (.int w.expectedWrapperDepth) = true := by
  obtain ⟨deployer, hCaller, _⟩ := h.caller
  have hLower : lowerMethod create.caller = .ok (lower deployer) := by
    rw [hCaller]
    rfl
  simp only [observeDeployment, returns_bind, checkDeployment_eq_ok h, hEvents, forM_eq_ok,
    List.forall_mem_singleton, checkEventOrigin_eq_ok, hEmitter, true_and]
  constructor
  · rintro ⟨wrapper, hShown, _, ⟨hDepth, rfl⟩, _⟩
    exact ⟨hShown, hDepth⟩
  · rintro ⟨hShown, hDepth⟩
    exact ⟨_, hShown, (), ⟨hDepth, rfl⟩, _, hLower, returns_ok _⟩

theorem harnessDeployments_eq (frames : List TraceFrame) (harness : String) :
    harnessDeployments frames harness =
      (harnessCreates frames harness).filter fun f => f.kind = "create2" := by
  rw [harnessDeployments, harnessCreates, List.filter_filter]
  refine List.filter_congr fun f _ => ?_
  by_cases hKind : f.kind = "create2"
  · simp [hKind, show lower "create2" = "create2" from by decide]
  · simp [hKind]

/-- Every creation of the harness shows the wrapper, and every event has the depth as a number. -/
def IdentityShown (w : Witness) (t : TraceSummary) : Prop :=
  (∀ create ∈ harnessCreates t.frames (lower w.harnessAddress), ShowsWrapper w create) ∧
    ∀ event ∈ t.assertionEvents,
      ((Json.obj event).getD "depth" .null).pyEq (.int w.expectedWrapperDepth) = true

/-- A run that V07 accepts passes the check on the trace alone exactly when it shows the
declared wrapper in the init code, spelled as that check reads it. -/
theorem identity_checks_agree_iff {run : DerivedReplayRun} {e : HarnessEvidence}
    {economics : EconomicEvidence} (h : deriveHarness host fs run w = .ok e)
    (hPasses : (checkHarness e w.harnessAddress economics).blocks = false) :
    returns (verifyHarnessIdentity host run.trace w) ↔ IdentityShown w run.trace := by
  have hDerived := harnessDerived_of_deriveHarness h
  obtain ⟨origin, hOrigin, hWrapper⟩ := hDerived.origin
  obtain ⟨create, initCode, hCreates, hCreation⟩ := hDerived.creation
  obtain ⟨event, rest, hEvents, hEmitter, hCaller, _⟩ := hOrigin.first
  have hOnly : run.trace.assertionEvents = [event] := by
    have hCount := (deriveHarness_counts h).1.symm.trans (checkHarness_counts hPasses).1
    rw [hEvents, List.length_cons] at hCount
    rw [hEvents, List.length_eq_zero_iff.mp (show rest.length = 0 by omega)]
  have hObserve := returns_observeDeployment hCreation hOnly (hEmitter.trans hOrigin.harness)
  rw [hCaller, hWrapper] at hObserve
  simp only [IdentityShown, hCreates, hOnly, List.forall_mem_singleton, showsWrapper_iff hCreation,
    verifyHarnessIdentity, harnessDeployments_eq]
  by_cases hKind : create.kind = "create2"
  · rw [List.filter_cons_of_pos (by simpa using hKind)]
    simpa [hKind] using hObserve
  · rw [List.filter_cons_of_neg (by simpa using hKind)]
    simp [hKind, returns]

end Agreement

section Unwrapped

open Sample

/-- An accepted run, whose harness was created without a constructor argument. -/
def unwrapped : AcceptedRecord where
  toRecorded := recorded [createFrame, callFrame .witness] 0 calls_sound
  accepted := by decide +kernel

def unwrappedRun : DerivedReplayRun := derived (fun _ => unwrapped.toRecorded) 0

theorem unwrapped_accepted : ∃ e economics,
    deriveHarness host unwrapped.files unwrappedRun witness = .ok e ∧
      (checkHarness e witness.harnessAddress economics).blocks = false := by
  have hAccepts : acceptsFrom checkedEvent origin.val unwrappedRun = true := unwrapped.accepted
  obtain ⟨e, hAccepted⟩ := runAccepted unwrapped.trace [0, 1, 2] origin.property rfl hAccepts
  exact ⟨e.harness, e.economics, hAccepted.harness, hAccepted.origin⟩

/-- The run without a constructor argument is not identified from its trace. -/
theorem unwrapped_not_identified :
    (verifyHarnessIdentity host unwrappedRun.trace witness).isOk = false := by
  decide +kernel

/-- V07 does not look at the constructor argument that the check on the trace asks for. -/
theorem identity_checks_differ :
    ¬ ∀ (host : Host) (fs : FileSystem) (run : DerivedReplayRun) (w : Witness)
      (e : HarnessEvidence) (economics : EconomicEvidence), deriveHarness host fs run w = .ok e →
        (checkHarness e w.harnessAddress economics).blocks = false →
          returns (verifyHarnessIdentity host run.trace w) := by
  intro h
  obtain ⟨e, economics, hDerive, hPasses⟩ := unwrapped_accepted
  obtain ⟨observation, hObserved⟩ := h _ _ _ _ e economics hDerive hPasses
  have hRejected := unwrapped_not_identified
  rw [hObserved] at hRejected
  cases hRejected

/-- The agreement of the two checks, at the run without a constructor argument. -/
theorem unwrapped_agree_iff : ∃ e economics,
    deriveHarness host unwrapped.files unwrappedRun witness = .ok e ∧
      (checkHarness e witness.harnessAddress economics).blocks = false ∧
      (returns (verifyHarnessIdentity host unwrappedRun.trace witness) ↔
        IdentityShown witness unwrappedRun.trace) := by
  obtain ⟨e, economics, hDerive, hPasses⟩ := unwrapped_accepted
  exact ⟨e, economics, hDerive, hPasses, identity_checks_agree_iff hDerive hPasses⟩

end Unwrapped
end L0vi0x.Verifier
