import L0vi0x.Chain.TracePolicy
import L0vi0x.Chain.TraceRecords

/-! What a trace that passes the cheatcode policy may still contain: calls under a spelling
that no rule names, and calls whose record names another cheatcode than their calldata. -/
namespace L0vi0x.Chain

open L0vi0x.Python L0vi0x.Core

section Rules

variable {witnessClass : WitnessClass} {byPhase : Json} {forkBlock : Option Int}
  {call : CheatcodeCall}

/-- A fork that is selected as the rules ask. -/
structure ForkSelected (witnessClass : WitnessClass) (forkBlock : Option Int)
    (call : CheatcodeCall) : Prop where
  witnessClass : witnessClass = .deployedFork
  phase : call.phase = .setup
  args : ∃ block pinned, call.args = [.str "l0vi0x_gate", block] ∧ forkBlock = some pinned ∧
    firstInt block = .ok (some pinned)

/-- The rule for `createSelectFork` accepts the forks that are selected as it asks. -/
theorem enforceSelectFork_eq_ok {u : Unit}
    (h : enforceSelectFork witnessClass forkBlock call = .ok u) :
    ForkSelected witnessClass forkBlock call := by
  unfold enforceSelectFork at h
  simp only [bind_eq_ok, raiseIf_eq_ok, decide_eq_false_iff_not, not_or, not_and, not_not] at h
  obtain ⟨_, ⟨hClass, hPhase⟩, _, _, _, hAlias, _, hLength, h⟩ := h
  cases hFork : forkBlock with
  | none => simp [hFork] at h
  | some pinned =>
      simp only [hFork, bind_eq_ok, raiseIf_eq_ok, decide_eq_false_iff_not, not_not] at h
      obtain ⟨requested, hRequested, rfl⟩ := h
      obtain ⟨first, block, hArgs⟩ := List.length_eq_two.mp hLength
      rw [hArgs] at hAlias hRequested
      simp only [List.head?_cons, Option.some.injEq] at hAlias
      exact ⟨hClass, hPhase, block, pinned, by rw [hArgs, hAlias], rfl, hRequested⟩

structure CallAllowed (witnessClass : WitnessClass) (byPhase : Json) (forkBlock : Option Int)
    (call : CheatcodeCall) : Prop where
  category : ∃ allowed, allowedCategories byPhase call.phase = .ok allowed ∧
    .str call.category ∈ allowed
  select : call.name = "createSelectFork" → ForkSelected witnessClass forkBlock call

theorem enforceCall_eq_ok {u : Unit} (h : enforceCall witnessClass byPhase forkBlock call = .ok u) :
    CallAllowed witnessClass byPhase forkBlock call := by
  unfold enforceCall at h
  simp only [bind_eq_ok, raiseIf_eq_ok, decide_eq_false_iff_not, not_or, not_not] at h
  obtain ⟨allowed, hAllowed, _, ⟨_, hCategory⟩, _, _, _, _, h⟩ := h
  refine ⟨⟨allowed, hAllowed, hCategory⟩, fun hName => ?_⟩
  simp only [if_pos hName, bind_eq_ok] at h
  obtain ⟨_, hSelect, _⟩ := h
  exact enforceSelectFork_eq_ok hSelect

/-- Every call of an accepted summary is accepted. -/
theorem calls_of_enforced {t : TraceSummary} {policy : Json} {u : Unit}
    (h : enforceCheatcodePolicy t witnessClass policy forkBlock = .ok u) :
    ∃ byPhase, policyByPhase witnessClass policy = .ok byPhase ∧
      ∀ c ∈ t.cheatcodes, enforceCall witnessClass byPhase forkBlock c = .ok () := by
  simp only [enforceCheatcodePolicy, bind_eq_ok] at h
  obtain ⟨byPhase, hPolicy, hCalls⟩ := h
  exact ⟨byPhase, hPolicy, forM_eq_ok.mp hCalls⟩

end Rules

section ForkPinning

variable {host : Host} {catalog : List (String × String)}

/-- A policy under which no fork may be controlled outside the setup phase. -/
def ForkInSetupOnly (policy : Json) : Prop :=
  ∀ byPhase allowed, policyByPhase .deployedFork policy = .ok byPhase →
    allowedCategories byPhase .witness = .ok allowed → .str "fork_control" ∉ allowed

/-- Every call that controls a fork is made in the setup phase, for the gate's alias and
the pinned block. -/
def ForkPinned (t : TraceSummary) (block : Int) : Prop :=
  ∀ c ∈ t.cheatcodes, c.category = "fork_control" →
    c.phase = .setup ∧ c.args = [.str "l0vi0x_gate", .int block]

/-- The records that control a fork are spelled as the rule for `createSelectFork` spells
them and give their block as an integer, or have the pinned arguments without that rule. -/
def ForkRecordsRuled (host : Host) (catalog : List (String × String)) (payload : TracePayload)
    (block : Int) : Prop :=
  ∀ r ∈ payload.cheatcodeRecords, categoryOf catalog (cheatcodeName host r.2 r.1) = "fork_control" →
    if cheatcodeName host r.2 r.1 = "createSelectFork" then
      ∃ given, (cheatcodeArgs r.1)[1]? = some (.int given)
    else cheatcodeArgs r.1 = [.str "l0vi0x_gate", .int block]

/-- An integer is its own block number. -/
theorem firstInt_int (n : Int) : firstInt (.int n) = .ok (some n) := rfl

/-- The forks of an accepted trace are pinned exactly when every record that controls one
is spelled as the rule spells it and gives its block as an integer. -/
theorem fork_pinned_iff {payload : TracePayload} {policy : Json} {block : Int} {t : TraceSummary}
    (hParse : parseTrace host payload catalog = .ok t) (hPolicy : ForkInSetupOnly policy)
    (hEnforced : enforceCheatcodePolicy t .deployedFork policy (some block) = .ok ()) :
    ForkPinned t block ↔ ForkRecordsRuled host catalog payload block := by
  obtain ⟨byPhase, hByPhase, hCalls⟩ := calls_of_enforced hEnforced
  have hRecords := (callsOf_parseTrace hParse).cheatcodes
  unfold ForkPinned ForkRecordsRuled
  rw [hRecords] at hCalls ⊢
  rw [List.forall_mem_map] at hCalls ⊢
  refine forall₂_congr fun r hr => imp_congr_right fun hFork => ?_
  have hAllowed := enforceCall_eq_ok (hCalls r hr)
  change categoryOf catalog (cheatcodeName host r.2 r.1) = "fork_control" at hFork
  have hSetup : r.2.phase = .setup := by
    obtain ⟨allowed, hList, hMem⟩ := hAllowed.category
    cases hPhase : r.2.phase with
    | setup => rfl
    | witness =>
        simp only [cheatcodeCall, hPhase, hFork] at hList hMem
        exact absurd hMem (hPolicy byPhase allowed hByPhase hList)
  change r.2.phase = .setup ∧ cheatcodeArgs r.1 = _ ↔ _
  by_cases hName : cheatcodeName host r.2 r.1 = "createSelectFork"
  · obtain ⟨given, pinned, hArgs, hPinned, hGiven⟩ := (hAllowed.select hName).args
    have hGivenArgs : cheatcodeArgs r.1 = [.str "l0vi0x_gate", given] := hArgs
    rw [Option.some.injEq] at hPinned
    subst hPinned
    simp only [if_pos hName, hGivenArgs, hSetup, true_and]
    constructor
    · intro hEq
      exact ⟨block, congrArg (·[1]?) hEq⟩
    · rintro ⟨n, hInt⟩
      simp only [List.getElem?_cons_succ, List.getElem?_cons_zero, Option.some.injEq] at hInt
      rw [hInt, firstInt_int, Except.ok.injEq, Option.some.injEq] at hGiven
      rw [hInt, hGiven]
  · simp only [if_neg hName, hSetup, true_and]

/-- A catalog and a policy under which forks are selected while a deployed fork is set up. -/
def forkCatalog : List (String × String) := [("createSelectFork", "fork_control")]

def forkPolicy : Json :=
  .obj [("deployed_fork", .obj [("setup", .obj [("allow_categories",
    .arr [.str "fork_control"])])])]

/-- The sample policy allows forks in the setup phase only. -/
theorem forkPolicy_setupOnly : ForkInSetupOnly forkPolicy := by
  intro byPhase allowed hPolicy hAllowed
  have hDocument : policyByPhase .deployedFork forkPolicy = .ok (.obj [("setup",
      .obj [("allow_categories", .arr [.str "fork_control"])])]) := by decide
  rw [hDocument, Except.ok.injEq] at hPolicy
  subst hPolicy
  have hNone : allowedCategories (.obj [("setup", .obj [("allow_categories",
      .arr [.str "fork_control"])])]) .witness = .ok [] := by decide
  rw [hNone, Except.ok.injEq] at hAllowed
  simp [← hAllowed]

/-- A setup call that selects a fork under a name in capitals, at an endpoint of its own. -/
def capitalFork : TracePayload := .parsed (.arr [.obj [("to", .str cheatcodeAddress),
  ("phase", .str "setup"), ("cheatcode", .str "CREATESELECTFORK"),
  ("args", .arr [.str "http://x"])]])

def capitalForkCall : CheatcodeCall :=
  ⟨"CREATESELECTFORK", "fork_control", 0, .setup, [.str "http://x"], none⟩

/-- The fork under a name in capitals is accepted at an endpoint of its own. -/
theorem capitalFork_accepted : ∃ t, parseTrace (.digesting hexOfBytes) capitalFork forkCatalog =
      .ok t ∧ t.cheatcodes = [capitalForkCall] ∧
    enforceCheatcodePolicy t .deployedFork forkPolicy (some 1) = .ok () := by
  have hParse : (match parseTrace (.digesting hexOfBytes) capitalFork forkCatalog with
      | .ok t => decide (t.cheatcodes = [capitalForkCall] ∧
          enforceCheatcodePolicy t .deployedFork forkPolicy (some 1) = .ok ())
      | .error _ => false) = true := by decide +kernel
  cases h : parseTrace (.digesting hexOfBytes) capitalFork forkCatalog with
  | error e => simp [h] at hParse
  | ok t => exact ⟨t, rfl, by simpa [h] using hParse⟩

/-- The policy accepts it, though its category is that of selecting forks. -/
theorem capital_fork_unpinned : ∃ t,
    parseTrace (.digesting hexOfBytes) capitalFork forkCatalog = .ok t ∧
      enforceCheatcodePolicy t .deployedFork forkPolicy (some 1) = .ok () ∧ ¬ ForkPinned t 1 := by
  obtain ⟨t, hParse, hCalls, hEnforced⟩ := capitalFork_accepted
  refine ⟨t, hParse, hEnforced, fun hPinned => ?_⟩
  have hArgs := (hPinned capitalForkCall (by simp [hCalls]) rfl).2
  simp [capitalForkCall] at hArgs

/-- When forks are pinned, at the fork under a name in capitals. -/
theorem capitalFork_pinned_iff : ∃ t,
    parseTrace (.digesting hexOfBytes) capitalFork forkCatalog = .ok t ∧
      (ForkPinned t 1 ↔ ForkRecordsRuled (.digesting hexOfBytes) forkCatalog capitalFork 1) := by
  obtain ⟨t, hParse, _, hEnforced⟩ := capitalFork_accepted
  exact ⟨t, hParse, fork_pinned_iff hParse forkPolicy_setupOnly hEnforced⟩

end ForkPinning

section Naming

variable {host : Host} {catalog : List (String × String)}

def CheatcodeCall.renamed (catalog : List (String × String)) (c : CheatcodeCall) (name : String) :
    CheatcodeCall :=
  { c with name := name, category := categoryOf catalog name }

/-- Every frame to the cheatcode address is recorded, and has the table's name for its
selector when there is one. -/
def NamedByTable (host : Host) (t : TraceSummary) : Prop :=
  List.Forall₂ (fun f c => c.selector = f.selector ∧
      ∀ s entry, f.selector = some s → selectorTable host s = some entry → c.name = entry.name)
    (t.frames.filter fun f => f.toAddress = some cheatcodeAddress) t.cheatcodes

/-- No policy that accepts the trace denies a call under the name of its selector. -/
def NoDeniedSelector (host : Host) (catalog : List (String × String)) (t : TraceSummary) : Prop :=
  ∀ witnessClass policy forkBlock byPhase,
    enforceCheatcodePolicy t witnessClass policy forkBlock = .ok () →
    policyByPhase witnessClass policy = .ok byPhase →
    ∀ c ∈ t.cheatcodes, ∀ s entry, c.selector = some s → selectorTable host s = some entry →
      enforceCall witnessClass byPhase forkBlock (c.renamed catalog entry.name) = .ok ()

/-- No record names another cheatcode than its selector does. -/
def FieldAgrees (host : Host) (payload : TracePayload) : Prop :=
  ∀ r ∈ payload.cheatcodeRecords, ∀ s entry, r.2.selector = some s →
    selectorTable host s = some entry →
    let given := (Json.obj r.1).getD "cheatcode" .null
    given.truthy = true → given.text = entry.name

theorem selector_of_table {s : String} {entry : Signature}
    (h : selectorTable host s = some entry) : s ≠ "" := by
  have hSelector : selectorOf host entry = s := by simpa using List.find?_some h
  rintro rfl
  simp [selectorOf] at hSelector

theorem lower_of_lowerText? {j : Json} {s : String} (h : lowerText? j = some s) : lower s = s := by
  cases j with
  | null => cases h
  | _ => exact (Option.some.inj h) ▸ lower_lower _

theorem lower_selector {r : Fields × TraceFrame} {s : String} (hFrame : readFrame r.1 = .ok r.2)
    (h : r.2.selector = some s) : lower s = s := by
  simp only [readFrame, bind_eq_ok, pure_eq_ok] at hFrame
  obtain ⟨_, _, _, _, _, _, _, _, _, _, hEq⟩ := hFrame
  rw [← hEq] at h
  exact lower_of_lowerText? h

theorem readFrame_of_cheatcodeRecords {payload : TracePayload} {r : Fields × TraceFrame}
    (h : r ∈ payload.cheatcodeRecords) : readFrame r.1 = .ok r.2 := by
  obtain ⟨record, _, hRecord⟩ := List.mem_filterMap.mp h
  unfold cheatcodeRecord? at hRecord
  split at hRecord
  · split at hRecord
    · split at hRecord
      · cases hRecord
        assumption
      · cases hRecord
    · cases hRecord
  · cases hRecord

/-- A record has the table's name exactly when it does not name another cheatcode. -/
theorem cheatcodeName_table_iff {r : Fields × TraceFrame} {s : String} {entry : Signature}
    (hFrame : readFrame r.1 = .ok r.2) (hSelector : r.2.selector = some s)
    (hEntry : selectorTable host s = some entry) :
    cheatcodeName host r.2 r.1 = entry.name ↔
      (((Json.obj r.1).getD "cheatcode" .null).truthy = true →
        ((Json.obj r.1).getD "cheatcode" .null).text = entry.name) := by
  have hTable : nameForSelector host r.2.selector = entry.name := by
    rw [hSelector, nameForSelector, if_neg (selector_of_table hEntry),
      lower_selector hFrame hSelector, hEntry]
  unfold cheatcodeName
  by_cases hGiven : ((Json.obj r.1).getD "cheatcode" .null).truthy = true
  · simp only [hGiven, ↓reduceIte, true_imp_iff]
  · rw [if_neg hGiven, hTable]
    exact ⟨fun _ hTruthy => absurd hTruthy hGiven, fun _ => rfl⟩

/-- The calls are named by the table exactly when no record names another cheatcode. -/
theorem named_iff {payload : TracePayload} {t : TraceSummary}
    (h : parseTrace host payload catalog = .ok t) :
    NamedByTable host t ↔ FieldAgrees host payload := by
  have hCalls := callsOf_parseTrace h
  unfold NamedByTable FieldAgrees
  rw [hCalls.frames, hCalls.cheatcodes, List.forall₂_map_left_iff, List.forall₂_map_right_iff,
    List.forall₂_same]
  refine forall₂_congr fun r hr => ?_
  have hFrame := readFrame_of_cheatcodeRecords hr
  constructor
  · rintro ⟨_, hName⟩ s entry hSelector hEntry
    exact (cheatcodeName_table_iff hFrame hSelector hEntry).mp (hName s entry hSelector hEntry)
  · intro hAgrees
    exact ⟨rfl, fun s entry hSelector hEntry =>
      (cheatcodeName_table_iff hFrame hSelector hEntry).mpr (hAgrees s entry hSelector hEntry)⟩

/-- A call that has the table's name is denied under it whenever it is denied at all. -/
theorem noDeniedSelector_of_named {payload : TracePayload} {t : TraceSummary}
    (h : parseTrace host payload catalog = .ok t) (hNamed : NamedByTable host t) :
    NoDeniedSelector host catalog t := by
  intro witnessClass policy forkBlock byPhase hEnforced hPolicy c hc s entry hSelector hEntry
  obtain ⟨byPhase', hPolicy', hCalls⟩ := calls_of_enforced hEnforced
  rw [hPolicy, Except.ok.injEq] at hPolicy'
  subst hPolicy'
  obtain ⟨f, _, hSame, hName⟩ := forall₂_exists_left hNamed hc
  have hEq : c.name = entry.name := hName s entry (hSame ▸ hSelector) hEntry
  have hCategory : c.category = categoryOf catalog c.name := by
    rw [(callsOf_parseTrace h).cheatcodes] at hc
    obtain ⟨r, _, rfl⟩ := List.mem_map.mp hc
    rfl
  have hRenamed : c.renamed catalog entry.name = c := by
    rw [CheatcodeCall.renamed, ← hEq, ← hCategory]
  rw [hRenamed]
  exact hCalls c hc

/-- The calldata decides which cheatcodes an accepted trace contains, exactly when no
record names another cheatcode than its selector does. -/
theorem calldata_decides_iff {payload : TracePayload} {t : TraceSummary}
    (h : parseTrace host payload catalog = .ok t) :
    NamedByTable host t ∧ NoDeniedSelector host catalog t ↔ FieldAgrees host payload := by
  rw [← named_iff h]
  exact ⟨fun hBoth => hBoth.1, fun hNamed => ⟨hNamed, noDeniedSelector_of_named h hNamed⟩⟩

def ffiHost : Host :=
  { Host.digesting hexOfBytes with
    keccak := fun raw => if raw = encodeUtf8 "ffi(string[])" then [137, 22, 4, 103] else [] }

def labelCatalog : List (String × String) := [("label", "diagnostics"), ("ffi", "external_io")]

def labelledFfi : TracePayload := .parsed (.arr [.obj [("to", .str cheatcodeAddress),
  ("selector", .str "0x89160467"), ("cheatcode", .str "label")]])

/-- The record that says `label` is accepted under that name. -/
theorem labelledFfi_parsed : ∃ t, parseTrace ffiHost labelledFfi labelCatalog = .ok t ∧
    t.cheatcodes = [⟨"label", "diagnostics", 0, .witness, [], some "0x89160467"⟩] := by
  have hParse : (match parseTrace ffiHost labelledFfi labelCatalog with
      | .ok t => decide (t.cheatcodes =
          [⟨"label", "diagnostics", 0, .witness, [], some "0x89160467"⟩])
      | .error _ => false) = true := by decide
  cases h : parseTrace ffiHost labelledFfi labelCatalog with
  | error e => simp [h] at hParse
  | ok t => exact ⟨t, rfl, by simpa [h] using hParse⟩

theorem ffi_selector : (selectorTable ffiHost "0x89160467").map (·.name) = some "ffi" := by
  decide

/-- The call is recorded under the name that its record gives. -/
theorem labelled_ffi_hidden : ∃ t, parseTrace ffiHost labelledFfi labelCatalog = .ok t ∧
    ¬ (NamedByTable ffiHost t ∧ NoDeniedSelector ffiHost labelCatalog t) := by
  obtain ⟨t, hParse, hCalls⟩ := labelledFfi_parsed
  refine ⟨t, hParse, fun h => ?_⟩
  obtain ⟨entry, hEntry, hName⟩ := Option.map_eq_some_iff.mp ffi_selector
  have hMem : (⟨"label", "diagnostics", 0, .witness, [], some "0x89160467"⟩ : CheatcodeCall) ∈
      t.cheatcodes := by simp [hCalls]
  obtain ⟨f, _, hSame, hNamed⟩ := forall₂_exists_left h.1 hMem
  have hLabel : "label" = entry.name := hNamed _ entry hSame.symm hEntry
  rw [hName] at hLabel
  exact absurd hLabel (by decide)

/-- When the selector decides, at the record that says `label`. -/
theorem labelledFfi_decided_iff : ∃ t, parseTrace ffiHost labelledFfi labelCatalog = .ok t ∧
    (NamedByTable ffiHost t ∧ NoDeniedSelector ffiHost labelCatalog t ↔
      FieldAgrees ffiHost labelledFfi) := by
  obtain ⟨t, hParse, _⟩ := labelledFfi_parsed
  exact ⟨t, hParse, calldata_decides_iff hParse⟩

end Naming
end L0vi0x.Chain
