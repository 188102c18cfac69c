import L0vi0x.Chain.ForgeEnvelope
import L0vi0x.Chain.TraceCoverage

/-! From the nodes of the arenas to the frames of the summary. The frame of a node is
written into the envelope, normalized, flattened and read again: what each of these
passes makes of it is said here once. -/
namespace L0vi0x.Chain

open L0vi0x.Python L0vi0x.Core

section Heads

variable {host : Host} {phase : Phase}

/-- What is read as hexadecimal text is a text, in lower case. -/
theorem hexText_eq_ok {value : Json} {label text : String} (h : hexText value label = .ok text) :
    ∃ s, value = .str s ∧ text = lower s := by
  unfold hexText at h
  split at h
  · rename_i s
    split at h
    · split at h
      · rw [pure_eq_ok] at h
        exact ⟨s, rfl, h.symm⟩
      · simp [formatError] at h
    · simp [formatError] at h
  · simp [formatError] at h

/-- An address is a text of 42 characters, read in lower case. -/
theorem addressText_eq_ok {value : Json} {label text : String}
    (h : addressText value label = .ok text) :
    ∃ s, value = .str s ∧ text = lower s ∧ text.length = 42 := by
  simp only [addressText, bind_eq_ok] at h
  obtain ⟨given, hHex, h⟩ := h
  obtain ⟨s, hValue, hText⟩ := hexText_eq_ok hHex
  split at h
  · rename_i hLength
    rw [pure_eq_ok] at h
    subst h
    exact ⟨s, hValue, hText, hLength⟩
  · simp [formatError] at h

/-- A natural number is an integer that is not negative. -/
theorem naturalInt_eq_ok {value : Json} {label : String} {i : Int}
    (h : naturalInt value label = .ok i) : value = .int i ∧ 0 ≤ i := by
  unfold naturalInt at h
  split at h
  · split at h
    · simp [formatError] at h
    · rename_i hNat
      rw [pure_eq_ok] at h
      subst h
      exact ⟨rfl, by omega⟩
  · simp [formatError] at h

/-- No cheatcode has an empty name. -/
theorem decodeCheatcode_name {data : String} {decoded : DecodedCheatcode}
    (h : decodeCheatcode host data = .ok decoded) : decoded.name ≠ "" := by
  have hNames : ∀ s ∈ allSignatures, s.name ≠ "" := by decide
  unfold decodeCheatcode at h
  simp only [bind_eq_ok] at h
  obtain ⟨_, _, h⟩ := h
  split at h
  · simp at h
  · split at h
    · rw [pure_eq_ok] at h
      subst h
      decide
    · split at h
      · rw [pure_eq_ok] at h
        subst h
        simp
      · rename_i entry hEntry
        simp only [bind_eq_ok, pure_eq_ok] at h
        obtain ⟨args, _, rfl⟩ := h
        exact hNames entry (List.mem_of_find?_eq_some hEntry)

/-- A decoder whose refusals are format errors returns what it decodes. -/
theorem decoding_eq_ok {α : Type} {context : String} {body : Py α} {a : α} :
    decoding context body = .ok a ↔ body = .ok a := by
  simp [decoding, except_eq_ok, formatError]

/-- The cheatcode of a frame is the one that its calldata decodes to. -/
theorem frameCheatcode_eq_ok {data : String} {c : FrameCheatcode}
    (h : frameCheatcode host data = .ok c) :
    ∃ decoded, decodeCheatcode host data = .ok decoded ∧ c.name = decoded.name ∧
      c.args = decoded.args.getD [] := by
  simp only [frameCheatcode, bind_eq_ok, decoding_eq_ok] at h
  obtain ⟨decoded, hDecoded, h⟩ := h
  refine ⟨decoded, hDecoded, ?_⟩
  split at h
  · split at h
    · simp [formatError] at h
    · rw [pure_eq_ok] at h
      subst h
      exact ⟨rfl, rfl⟩
  · rw [pure_eq_ok] at h
    subst h
    exact ⟨rfl, rfl⟩

def ArenaNode.trace (node : ArenaNode) : Json := node.get "trace"

def ArenaNode.traceText (node : ArenaNode) (key default : String) : String :=
  lower (node.trace.getD key (.str default)).text

def ArenaNode.kind (node : ArenaNode) : String := node.traceText "kind" ""

def ArenaNode.address (node : ArenaNode) : String := node.traceText "address" ""

def ArenaNode.caller (node : ArenaNode) : String := node.traceText "caller" ""

def ArenaNode.data (node : ArenaNode) : String := node.traceText "data" "0x"

/-- The first ten characters of the calldata of a call. -/
def ArenaNode.selector (node : ArenaNode) : Option String :=
  if isCallKind node.kind && 10 ≤ node.data.length then some (takeText node.data 10) else none

/-- The frame that `open_node` makes holds what the trace of the node holds. -/
structure OpenedFrom (host : Host) (phase : Phase) (node : ArenaNode) (head : FrameHead) :
    Prop where
  depth : node.trace.getD "depth" .null = .int head.depth
  depthNonneg : 0 ≤ head.depth
  kind : head.kind = node.kind
  toAddress : head.toAddress = node.address
  addressLength : head.toAddress.length = 42
  caller : head.caller = node.caller
  callerLength : head.caller.length = 42
  phase : head.phase = phase
  data : head.data = node.data
  selector : head.selector = node.selector
  gasUsed : node.trace.getD "gas_used" (.int 0) = .int head.gasUsed
  success : node.trace.getD "success" .null = .bool head.success
  cheatcode : headCheatcode host node.address node.kind node.data = .ok head.cheatcode

/-- A text field is read in lower case, whatever its default. -/
theorem lowerText_of_getD {trace : Json} {key given default : String}
    (h : trace.getD key .null = .str given) :
    lower (trace.getD key (.str default)).text = lower given := by
  unfold Json.getD at h ⊢
  cases hGet : trace.get? key with
  | none => simp [hGet] at h
  | some value =>
      rw [hGet, Option.getD_some] at h
      rw [Option.getD_some, h, Json.text_str]

/-- A frame is opened from what the trace of its node holds. -/
theorem openedFrom_of_openFrame {node : ArenaNode} {head : FrameHead}
    (h : openFrame host phase node = .ok head) : OpenedFrom host phase node head := by
  unfold openFrame at h
  split at h
  · rename_i fields hTrace
    have hTrace : node.trace = .obj fields := hTrace
    simp only [bind_eq_ok, pure_eq_ok] at h
    obtain ⟨_, _, target, hTarget, data, hData, success, hSuccess, depth, hDepth, caller, hCaller,
      gas, hGas, cheatcode, hCheatcode, rfl⟩ := h
    obtain ⟨address, hAddress, rfl, hLength⟩ := addressText_eq_ok hTarget
    obtain ⟨given, hGiven, rfl⟩ := hexText_eq_ok hData
    obtain ⟨sender, hSender, rfl, hSenderLength⟩ := addressText_eq_ok hCaller
    obtain ⟨hDepth, hNonneg⟩ := naturalInt_eq_ok hDepth
    rw [← hTrace] at *
    have hKind : lower (node.trace.getD "kind" (.str "")).text = node.kind := rfl
    have hTo : node.address = lower address := lowerText_of_getD hAddress
    have hFrom : node.caller = lower sender := lowerText_of_getD hSender
    have hCalldata : node.data = lower given := by
      simp [ArenaNode.data, ArenaNode.traceText, hGiven]
    refine ⟨hDepth, hNonneg, rfl, hTo.symm, hLength, hFrom.symm, hSenderLength, rfl,
      hCalldata.symm, ?_, (naturalInt_eq_ok hGas).1, ?_, ?_⟩
    · rw [ArenaNode.selector, hCalldata]
      rfl
    · unfold traceSuccess at hSuccess
      split at hSuccess
      · rename_i hFlag
        rw [pure_eq_ok] at hSuccess
        rw [hFlag, hSuccess]
      · simp [formatError] at hSuccess
    · rw [hTo, hCalldata]
      exact hCheatcode
  · simp [formatError] at h

end Heads

section Records

theorem visitField_eq_map (key : String) (fields : Fields) :
    visitField key fields = (getField? key fields).map visitItems := by
  induction fields with
  | nil => rfl
  | cons p rest ih =>
      obtain ⟨k, v⟩ := p
      by_cases hKey : k = key <;> simp [visitField, getField?, hKey, ih]

theorem normalizeField_eq_map (key : String) (fields : Fields) :
    normalizeField key fields = (getField? key fields).map normalizeValue := by
  induction fields with
  | nil => rfl
  | cons p rest ih =>
      obtain ⟨k, v⟩ := p
      by_cases hKey : k = key <;> simp [normalizeField, getField?, hKey, ih]

/-- The keys that a frame has only at times. -/
def optionalKeys : List String := ["cheatcode", "args", "absolute", "erc20_transfers"]

/-- Of the optional fields, all but the transfers are those of the cheatcode. -/
theorem lookup_optionalPairs {head : FrameHead} {logs : List ArenaLog} {key : String}
    (h : key ≠ "erc20_transfers") :
    lookupLast key (optionalPairs head logs) =
      lookupLast key ((head.cheatcode.map FrameCheatcode.pairs).getD []) := by
  unfold optionalPairs
  rw [lookupLast_append]
  cases logs.filterMap ArenaLog.transfer with
  | nil => rw [lookupLast_nil, Option.none_or]
  | cons first rest => rw [lookupLast_cons, lookupLast_nil, if_neg (Ne.symm h)]; rfl

theorem lookup_optionalPairs_other {head : FrameHead} {logs : List ArenaLog} {key : String}
    (h : key ∉ optionalKeys) : lookupLast key (optionalPairs head logs) = none := by
  simp only [optionalKeys, List.mem_cons, List.not_mem_nil, or_false, not_or] at h
  rw [lookup_optionalPairs h.2.2.2]
  cases head.cheatcode with
  | none => rfl
  | some c =>
      refine lookupLast_of_not_mem ?_
      cases hAbsolute : c.absolute <;> simp [FrameCheatcode.pairs, hAbsolute, h]

variable {head : FrameHead} {logs : List ArenaLog} {children : List Json}

/-- The fields that every frame of the envelope has. -/
def fixedPairs (head : FrameHead) (logs : List ArenaLog) (children : List Json) :
    List (String × Json) :=
  [("depth", .int head.depth), ("kind", .str head.kind), ("to", .str head.toAddress),
    ("caller", .str head.caller), ("phase", .str head.phase.text), ("data", .str head.data),
    ("selector", textOrNull head.selector), ("gas_used", .int head.gasUsed),
    ("success", .bool head.success), ("logs", .arr (logs.map ArenaLog.json)),
    ("children", .arr children)]

/-- A field of an emitted frame is an optional one, or a fixed one. -/
theorem frameJson_get? (key : String) :
    (frameJson head logs children).get? key = (lookupLast key (optionalPairs head logs)).or
      (lookupLast key (fixedPairs head logs children)) := by
  rw [frameJson, Json.get?, getField?_dictOf, lookupLast_append, fixedPairs]

/-- A fixed field of an emitted frame is found as it was put there. -/
theorem frameJson_fixed {key : String} (h : key ∉ optionalKeys) :
    (frameJson head logs children).get? key =
      lookupLast key (fixedPairs head logs children) := by
  rw [frameJson_get?, lookup_optionalPairs_other h, Option.none_or]

/-- The fields of a cheatcode that the parser reads. -/
theorem frameJson_cheatcode :
    (frameJson head logs children).get? "cheatcode" = head.cheatcode.map (Json.str ·.name) ∧
      (frameJson head logs children).get? "args" = head.cheatcode.map (Json.arr ·.args) := by
  rw [frameJson_get?, frameJson_get?, lookup_optionalPairs (by decide),
    lookup_optionalPairs (by decide)]
  cases hCheatcode : head.cheatcode with
  | none => simp [fixedPairs, lookupLast_cons]
  | some c =>
      cases hAbsolute : c.absolute <;>
        simp [FrameCheatcode.pairs, hAbsolute, lookupLast_cons]

theorem lookup_keptField (item : Json) (key kept : String) :
    lookupLast key (keptField item kept) = if kept = key then item.get? kept else none := by
  unfold keptField
  cases hValue : item.get? kept <;> by_cases hKey : kept = key <;>
    simp [lookupLast_cons, hKey]

/-- The fields that every normalized frame has. -/
def normalFixed (item : Json) (depth : Int) : List (String × Json) :=
  [("depth", .int depth),
    ("kind", .str (item.getD "kind" (item.getD "type" (.str "call"))).text),
    ("to", pyOr (item.getD "to" .null) (item.getD "address" .null)),
    ("selector", pyOr (item.getD "selector" .null) (item.getD "function" .null)),
    ("phase", .str (item.getD "phase" (.str "witness")).text),
    ("caller", pyOr (item.getD "caller" .null) (item.getD "from" .null)),
    ("data", item.getD "data" .null), ("gas_used", item.getD "gas_used" (item.getD "gas" .null)),
    ("logs", item.getD "logs" (.arr []))]

theorem lookup_normalPairs (item : Json) (depth : Int) (key : String) :
    lookupLast key (normalPairs item depth) =
      (lookupLast key (keptField item "erc20_transfers")).or
        ((lookupLast key (keptField item "erc20_transfer")).or
          ((lookupLast key (if (item.get? "cheatcode").isSome then
            keptField item "cheatcode" ++ keptField item "args" ++ keptField item "absolute"
            else [])).or (lookupLast key (normalFixed item depth)))) := by
  rw [normalPairs, lookupLast_append, lookupLast_append, lookupLast_append, normalFixed]

theorem lookup_normalPairs_fixed (item : Json) (depth : Int) {key : String}
    (h : key ∉ "erc20_transfer" :: optionalKeys) :
    lookupLast key (normalPairs item depth) = lookupLast key (normalFixed item depth) := by
  simp only [optionalKeys, List.mem_cons, List.not_mem_nil, or_false, not_or] at h
  have hKept : lookupLast key (if (item.get? "cheatcode").isSome then
      keptField item "cheatcode" ++ keptField item "args" ++ keptField item "absolute" else []) =
      none := by
    split
    · simp [lookupLast_append, lookup_keptField, Ne.symm h.2.1, Ne.symm h.2.2.1,
        Ne.symm h.2.2.2.1]
    · rfl
  rw [lookup_normalPairs, hKept]
  simp [lookup_keptField, Ne.symm h.1, Ne.symm h.2.2.2.2]

/-- A cheatcode is kept with its arguments. -/
theorem lookup_normalPairs_cheatcode (item : Json) (depth : Int)
    (h : item.get? "cheatcode" = none → item.get? "args" = none) :
    lookupLast "cheatcode" (normalPairs item depth) = item.get? "cheatcode" ∧
      lookupLast "args" (normalPairs item depth) = item.get? "args" := by
  rw [lookup_normalPairs, lookup_normalPairs]
  cases hCheatcode : item.get? "cheatcode" with
  | none => simp [lookup_keptField, normalFixed, lookupLast_cons, h hCheatcode]
  | some c =>
      simp [lookup_keptField, normalFixed, lookupLast_cons, lookupLast_append, hCheatcode]

/-- The record that the parser reads of a frame. -/
def frameRecord (head : FrameHead) (logs : List ArenaLog) (children normal : List Json) : Fields :=
  eraseField "calls" (eraseField "children" (dictOf (
    normalPairs (frameJson head logs children) head.depth ++ [("children", .arr normal)])))

/-- Apart from its children, a record has the fields of the normalized frame. -/
theorem frameRecord_get? {normal : List Json} {key : String} (hChildren : key ≠ "children")
    (hCalls : key ≠ "calls") :
    getField? key (frameRecord head logs children normal) =
      lookupLast key (normalPairs (frameJson head logs children) head.depth) := by
  rw [frameRecord, getField?_eraseField hCalls, getField?_eraseField hChildren, getField?_dictOf,
    lookupLast_append, lookupLast_cons, if_neg (Ne.symm hChildren)]
  simp

/-- What the parser reads of a frame: everything but its success. -/
structure ReadsAs (record : Fields) (head : FrameHead) (logs : List ArenaLog) : Prop where
  depth : getField? "depth" record = some (.int head.depth)
  kind : getField? "kind" record = some (.str head.kind)
  toAddress : getField? "to" record = some (.str head.toAddress)
  selector : getField? "selector" record = some (textOrNull head.selector)
  phase : getField? "phase" record = some (.str head.phase.text)
  caller : getField? "caller" record = some (.str head.caller)
  data : getField? "data" record = some (.str head.data)
  gasUsed : getField? "gas_used" record = some (.int head.gasUsed)
  success : getField? "success" record = none
  logs : getField? "logs" record = some (.arr (logs.map ArenaLog.json))
  cheatcode : getField? "cheatcode" record = head.cheatcode.map (Json.str ·.name)
  args : getField? "args" record = head.cheatcode.map (Json.arr ·.args)

theorem pyOr_text {s : String} (h : s ≠ "") (other : Json) : pyOr (.str s) other = .str s := by
  simp [pyOr, Json.truthy, h]

/-- The parser reads of a record what the adapter has put in its frame. -/
theorem readsAs_frameRecord {normal : List Json} (hTo : head.toAddress ≠ "")
    (hCaller : head.caller ≠ "") (hSelector : head.selector ≠ some "") :
    ReadsAs (frameRecord head logs children normal) head logs := by
  have hFixed : ∀ {key : String} (default : Json), key ∉ optionalKeys →
      (frameJson head logs children).getD key default =
        (lookupLast key (fixedPairs head logs children)).getD default := by
    intro key default h
    rw [Json.getD, frameJson_fixed h]
  have hRead : ∀ {key : String}, key ∉ "children" :: "calls" :: "erc20_transfer" :: optionalKeys →
      getField? key (frameRecord head logs children normal) =
        lookupLast key (normalFixed (frameJson head logs children) head.depth) := by
    intro key h
    simp only [List.mem_cons, not_or] at h
    rw [frameRecord_get? h.1 h.2.1, lookup_normalPairs_fixed]
    simpa using h.2.2
  obtain ⟨hName, hArgs⟩ := @frameJson_cheatcode head logs children
  have hCheatcode := lookup_normalPairs_cheatcode (frameJson head logs children) head.depth (by
    rw [hName, hArgs]
    simp)
  refine ⟨?_, ?_, ?_, ?_, ?_, ?_, ?_, ?_, ?_, ?_, ?_, ?_⟩
  · rw [hRead (by decide)]
    simp [normalFixed, lookupLast_cons]
  · rw [hRead (by decide)]
    simp [normalFixed, lookupLast_cons, hFixed _ (show "kind" ∉ optionalKeys by decide), fixedPairs]
  · rw [hRead (by decide)]
    simp [normalFixed, lookupLast_cons, hFixed _ (show "to" ∉ optionalKeys by decide), fixedPairs,
      pyOr_text hTo]
  · rw [hRead (by decide)]
    have hOther : (frameJson head logs children).getD "function" .null = .null := by
      rw [hFixed _ (by decide)]
      simp [fixedPairs, lookupLast_cons]
    have hOwn : (frameJson head logs children).getD "selector" .null = textOrNull head.selector := by
      rw [hFixed _ (by decide)]
      simp [fixedPairs, lookupLast_cons]
    simp only [normalFixed, lookupLast_cons, hOther, hOwn]
    cases hCase : head.selector with
    | none => simp [textOrNull, pyOr, Json.truthy]
    | some s =>
        have hText : s ≠ "" := fun hEmpty => hSelector (by rw [hCase, hEmpty])
        simp [textOrNull, pyOr_text hText]
  · rw [hRead (by decide)]
    simp [normalFixed, lookupLast_cons, hFixed _ (show "phase" ∉ optionalKeys by decide),
      fixedPairs]
  · rw [hRead (by decide)]
    simp [normalFixed, lookupLast_cons, hFixed _ (show "caller" ∉ optionalKeys by decide),
      fixedPairs, pyOr_text hCaller]
  · rw [hRead (by decide)]
    simp [normalFixed, lookupLast_cons, hFixed _ (show "data" ∉ optionalKeys by decide), fixedPairs]
  · rw [hRead (by decide)]
    simp [normalFixed, lookupLast_cons, hFixed _ (show "gas_used" ∉ optionalKeys by decide),
      fixedPairs]
  · rw [hRead (by decide)]
    simp [normalFixed, lookupLast_cons]
  · rw [hRead (by decide)]
    simp [normalFixed, lookupLast_cons, hFixed _ (show "logs" ∉ optionalKeys by decide), fixedPairs]
  · rw [frameRecord_get? (by decide) (by decide), hCheatcode.1, hName]
  · rw [frameRecord_get? (by decide) (by decide), hCheatcode.2, hArgs]

theorem Phase.parse_text (phase : Phase) : Phase.parse phase.text = .ok phase := by
  cases phase <;> rfl

/-- The frame that the parser reads has the fields of the adapter's, but succeeds. -/
theorem readFrame_of_readsAs {record : Fields} (h : ReadsAs record head logs)
    (hDepth : 0 ≤ head.depth) :
    readFrame record = .ok ⟨head.depth, head.kind, some (lower head.toAddress),
      head.selector.map lower, head.phase, .str head.caller, .str head.data, some head.gasUsed,
      true, logs.map ArenaLog.json⟩ := by
  have hNot : ¬ head.depth < 0 := by omega
  have hTo : lowerText? (.str head.toAddress) = some (lower head.toAddress) := rfl
  have hSelector : lowerText? (textOrNull head.selector) = head.selector.map lower := by
    cases head.selector <;> rfl
  simp [readFrame, Json.getD, Json.get?, h.depth, h.kind, h.toAddress, h.selector, h.phase,
    h.caller, h.data, h.gasUsed, h.success, h.logs, Json.toInt, except, hNot, raiseIf,
    Phase.parse_text, firstInt, readSuccess, listedLogs, hTo, hSelector, bind,
    Except.bind, pure, Except.pure, Functor.map, Except.map]

namespace ArenaFrame

mutual
def normal : ArenaFrame → Json
  | .mk head logs children =>
      normalJson (frameJson head logs (jsonAll children)) head.depth (some (normalAll children))

def normalAll : List ArenaFrame → List Json
  | [] => []
  | f :: rest => f.normal :: normalAll rest
end

/-- The record of a frame that the parser reads. -/
def record : ArenaFrame → Fields
  | .mk head logs children => frameRecord head logs (jsonAll children) (normalAll children)

end ArenaFrame

theorem ArenaFrame.json_isObj (f : ArenaFrame) : f.json.isObj = true := by
  cases f
  rfl

/-- An object is normalized from its depth and its children, or its calls without any. -/
theorem normalizeFrame_obj {item : Json} (h : item.isObj = true) :
    normalizeFrame item = (do
      let depth ← (item.getD "depth" (.int 0)).toInt
      let children ← ((item.get? "children").map normalizeValue).getD
        (((item.get? "calls").map normalizeValue).getD (pure none))
      pure (normalJson item depth children)) := by
  cases item with
  | obj fields =>
      rw [normalizeFrame, normalizeField_eq_map, normalizeField_eq_map]
      rfl
  | _ => cases h

/-- The frames that the adapter has made are normalized without refusal. -/
theorem normalizeItems_jsonAll (frames : List ArenaFrame) :
    normalizeItems (ArenaFrame.jsonAll frames) = .ok (ArenaFrame.normalAll frames) := by
  refine @ArenaFrame.rec_1 (fun f => normalizeFrame f.json = .ok f.normal)
    (fun fs => normalizeItems (ArenaFrame.jsonAll fs) = .ok (ArenaFrame.normalAll fs))
    ?_ ?_ ?_ frames
  · intro head logs children ih
    have hChildren : (frameJson head logs (ArenaFrame.jsonAll children)).get? "children" =
        some (.arr (ArenaFrame.jsonAll children)) := by
      rw [frameJson_fixed (by decide)]
      simp [fixedPairs, lookupLast_cons]
    have hDepth : (frameJson head logs (ArenaFrame.jsonAll children)).getD "depth" (.int 0) =
        .int head.depth := by
      rw [Json.getD, frameJson_fixed (by decide)]
      simp [fixedPairs, lookupLast_cons]
    rw [ArenaFrame.json, normalizeFrame_obj rfl, hChildren, hDepth, Option.map_some,
      Option.getD_some, normalizeValue, ih, ArenaFrame.normal]
    rfl
  · rfl
  · intro f rest hf ih
    rw [ArenaFrame.jsonAll, normalizeItems, hf, ih, f.json_isObj]
    rfl

/-- The parser flattens the normalized frames into their records, depth first. -/
theorem flattenRecords_normalAll (frames : List ArenaFrame) :
    flattenRecords (ArenaFrame.normalAll frames) =
      (ArenaFrame.preorderAll frames).map fun f => .obj f.record := by
  refine @ArenaFrame.rec_1 (fun f => visit f.normal = f.preorder.map fun g => Json.obj g.record)
    (fun fs => flattenRecords (ArenaFrame.normalAll fs) =
      (ArenaFrame.preorderAll fs).map fun f => Json.obj f.record) ?_ ?_ ?_ frames
  · intro head logs children ih
    rw [ArenaFrame.normal, normalJson, visit, visitField_eq_map, getField?_dictOf,
      lookupLast_append]
    simp only [Option.map_some, Option.toList_some, lookupLast_cons, lookupLast_nil, ↓reduceIte,
      Option.none_or, Option.some_or, Option.getD_some, visitItems, ih, ArenaFrame.preorder,
      List.map_cons]
    rfl
  · rfl
  · intro f rest hf ih
    rw [ArenaFrame.normalAll, flattenRecords, hf, ih, ArenaFrame.preorderAll, List.map_append]

end Records

section Summary

variable {host : Host} {catalog : List (String × String)}

/-- What the arenas record: one arena after the other, each visited depth first, with
the phase of the arena. -/
inductive ExecutionOrder : List (Phase × List Fields) → List (Phase × Visit) → Prop
  | nil : ExecutionOrder [] []
  | cons {phase : Phase} {nodes : List Fields} {rest : List (Phase × List Fields)}
      {arena : List ArenaNode} {root : ArenaNode} {inner : Execution}
      {more : List (Phase × Visit)} (indexed : indexNodes nodes = .ok arena)
      (executes : Executes arena root inner) (others : ExecutionOrder rest more) :
      ExecutionOrder ((phase, nodes) :: rest)
        ((⟨[], root, inner⟩ :: inner.visits [root]).map (phase, ·) ++ more)

/-- What the selected test of a Forge payload executed, in order. -/
def Executed (payload : Json) (testFile testName : String) (executed : List (Phase × Visit)) :
    Prop :=
  ∃ fields key result arenas, payload = .obj fields ∧
    passingUnitTest fields testFile testName = .ok (key, result) ∧
    selectArenas ((getField? "traces" result).getD .null) = .ok arenas ∧
    ExecutionOrder (inArenaOrder arenas) executed

/-- The converted frames are those of the nodes that the arenas visited, in their order. -/
theorem convertArenas_executed {arenas : List (Phase × List Fields)}
    {before after : List DerivedLog} {frames : List ArenaFrame}
    (h : convertArenas host arenas before = .ok (frames, after)) :
    ∃ executed, ExecutionOrder arenas executed ∧
      List.Forall₂ (fun x f => FrameOf host x.1 x.2 f) executed
        (ArenaFrame.preorderAll frames) := by
  induction arenas generalizing before after frames with
  | nil =>
      rw [convertArenas, pure_eq_ok, Prod.mk.injEq] at h
      rw [← h.1]
      exact ⟨[], .nil, .nil⟩
  | cons arena rest ih =>
      obtain ⟨phase, nodes⟩ := arena
      simp only [convertArenas, bind_eq_ok, pure_eq_ok, Prod.mk.injEq] at h
      obtain ⟨⟨frame, derived⟩, hFrame, ⟨others, _⟩, hOthers, rfl, _⟩ := h
      obtain ⟨executed, hOrder, hFrames⟩ := ih hOthers
      have hWithin : convertArenaWithin (arenaFuel nodes) host phase nodes before =
          some (.ok (frame, derived)) := by
        rw [← hFrame, convertArena, Option.some_get]
      obtain ⟨arena, root, inner, made, hConverted⟩ := converted_of_convertArena hWithin
      have hExact := hConverted.exact
      refine ⟨_, .cons hExact.indexed hExact.executes hOrder, ?_⟩
      have hHere : List.Forall₂ (fun (x : Phase × Visit) f => FrameOf host x.1 x.2 f)
          ((⟨[], root, inner⟩ :: inner.visits [root]).map (phase, ·)) frame.preorder :=
        List.forall₂_map_left_iff.mpr hExact.frames
      rw [ArenaFrame.preorderAll]
      exact List.rel_append hHere hFrames

/-- The summary of a payload is that of the records of its frames. -/
structure SummaryOf (host : Host) (catalog : List (String × String))
    (executed : List (Phase × Visit)) (frames : List ArenaFrame) (t : TraceSummary) : Prop where
  each : List.Forall₂ (fun x f => FrameOf host x.1 x.2 f) executed frames
  loop : ∃ timestamp block final, (frames.map fun f => Json.obj f.record).foldlM
      (parseRecord host catalog) (.initial timestamp block) = .ok final ∧
    ∃ sha, t = (ParsedPayload.mk timestamp block final).summary sha

/-- What the adapter went through when it returned an envelope. -/
theorem adaptForgeTestJson_eq_ok {payload : Json} {testFile testName : String}
    {timestamp block envelope : Json}
    (h : adaptForgeTestJson host payload testFile testName timestamp block = .ok envelope) :
    ∃ fields key result arenas frames derived, payload = .obj fields ∧
      passingUnitTest fields testFile testName = .ok (key, result) ∧
      selectArenas ((getField? "traces" result).getD .null) = .ok arenas ∧
      convertArenas host (inArenaOrder arenas) [] = .ok (frames, derived) ∧
      ∃ body, envelope = .obj [("l0vi0x_structured_trace", .obj body)] ∧
        getField? "frames" body = some (.arr (ArenaFrame.jsonAll frames)) := by
  cases payload with
  | obj fields =>
      simp only [adaptForgeTestJson, bind_eq_ok, pure_eq_ok] at h
      obtain ⟨_, _, _, _, ⟨key, result⟩, hTest, arenas, hArenas, ⟨frames, derived⟩, hFrames, _, _,
        rfl⟩ := h
      refine ⟨fields, key, result, arenas, frames, derived, rfl, hTest, hArenas, hFrames, _, rfl, ?_⟩
      simp [getField?_dictOf, lookupLast_cons]
  | _ => simp [adaptForgeTestJson, formatError] at h

/-- The frames of an envelope are extracted with their records. -/
theorem extractStructuredTrace_eq_ok {body : Fields} {schema : Option String} {trace : Json}
    {frames : List ArenaFrame}
    (hFrames : getField? "frames" body = some (.arr (ArenaFrame.jsonAll frames)))
    (h : extractStructuredTrace (.obj [("l0vi0x_structured_trace", .obj body)]) schema =
      .ok trace) :
    trace.get? "trace" = some (.arr (ArenaFrame.normalAll frames)) := by
  have hEnvelope : (Json.obj [("l0vi0x_structured_trace", .obj body)]).get?
      "l0vi0x_structured_trace" = some (.obj body) := by simp [Json.get?, getField?]
  simp only [extractStructuredTrace, hEnvelope, hFrames, bind_eq_ok] at h
  obtain ⟨_, _, _, _, h⟩ := h
  cases frames with
  | nil => simp [ArenaFrame.jsonAll, formatError] at h
  | cons f rest =>
      have hNormal := normalizeItems_jsonAll (f :: rest)
      simp only [ArenaFrame.jsonAll, bind_eq_ok, pure_eq_ok] at h hNormal
      obtain ⟨_, _, items, hItems, start, hStart, number, hNumber, rfl⟩ := h
      rw [hNormal] at hItems
      cases hItems
      have hClock : ∀ {key : String} {clock : List (String × Json)},
          envelopeClock body key = .ok clock → key ≠ "trace" → lookupLast "trace" clock = none := by
        intro key clock hClock hKey
        unfold envelopeClock at hClock
        split at hClock
        · rw [pure_eq_ok] at hClock
          subst hClock
          rfl
        · split at hClock
          · simp [formatError] at hClock
          · rw [pure_eq_ok] at hClock
            subst hClock
            simp [lookupLast_cons, hKey]
        · simp [formatError] at hClock
      rw [Json.get?, getField?_dictOf, lookupLast_append, lookupLast_append,
        hClock hStart (by decide), hClock hNumber (by decide)]
      simp [lookupLast_cons]

/-- The summary that is parsed of an envelope is that of its frames. -/
theorem summaryOf_extracted {executed : List (Phase × Visit)} {frames : List ArenaFrame}
    {body : Fields} {schema : Option String} {trace : Json} {t : TraceSummary}
    (hEach : List.Forall₂ (fun x f => FrameOf host x.1 x.2 f) executed
      (ArenaFrame.preorderAll frames))
    (hBody : getField? "frames" body = some (.arr (ArenaFrame.jsonAll frames)))
    (hExtract : extractStructuredTrace (.obj [("l0vi0x_structured_trace", .obj body)]) schema =
      .ok trace)
    (hParse : parseTrace host (.parsed trace) catalog = .ok t) :
    SummaryOf host catalog executed (ArenaFrame.preorderAll frames) t := by
  have hTrace := extractStructuredTrace_eq_ok hBody hExtract
  simp only [parseTrace, parseRecords, runRecords, bind_eq_ok, pure_eq_ok] at hParse
  obtain ⟨_, ⟨records, hRecords, start, _, number, _, final, hLoop, rfl⟩, rfl⟩ := hParse
  rw [traceRecords, hTrace, Option.getD_some, pure_eq_ok] at hRecords
  rw [← hRecords, flattenRecords_normalAll] at hLoop
  exact ⟨hEach, start, number, final, hLoop, _, rfl⟩

/-- The summary of a payload is that of its executed nodes, through all three passes. -/
theorem summaryOf_forgeSummary {payload : Json} {testFile testName : String}
    {timestamp block : Json} {schema : Option String} {t : TraceSummary}
    (h : forgeSummary host catalog payload testFile testName timestamp block schema = .ok t) :
    ∃ executed frames, Executed payload testFile testName executed ∧
      SummaryOf host catalog executed frames t := by
  simp only [forgeSummary, bind_eq_ok] at h
  obtain ⟨envelope, hAdapt, trace, hExtract, hParse⟩ := h
  obtain ⟨fields, key, result, arenas, frames, derived, rfl, hTest, hArenas, hFrames, body, rfl,
    hBody⟩ := adaptForgeTestJson_eq_ok hAdapt
  obtain ⟨executed, hOrder, hEach⟩ := convertArenas_executed hFrames
  exact ⟨executed, ArenaFrame.preorderAll frames,
    ⟨fields, key, result, arenas, rfl, hTest, hArenas, hOrder⟩,
    summaryOf_extracted hEach hBody hExtract hParse⟩

/-- The frame that the parser reads of an adapter's frame. -/
def ArenaFrame.parsed (f : ArenaFrame) : TraceFrame :=
  ⟨f.head.depth, f.head.kind, some f.head.toAddress, f.head.selector, f.head.phase,
    .str f.head.caller, .str f.head.data, some f.head.gasUsed, true, f.logs.map ArenaLog.json⟩

/-- The beginning of a text in lower case is in lower case. -/
theorem lower_takeText (s : String) (n : Nat) :
    lower (takeText (lower s) n) = takeText (lower s) n := by
  simp only [lower, takeText, String.toList_ofList, ← List.map_take, List.map_map, toLower_comp]

/-- A selector that was opened is not empty, and in lower case. -/
theorem OpenedFrom.selector_lower {phase : Phase} {node : ArenaNode} {head : FrameHead}
    (h : OpenedFrom host phase node head) {s : String} (hSelector : head.selector = some s) :
    s ≠ "" ∧ lower s = s := by
  rw [h.selector, ArenaNode.selector] at hSelector
  split at hSelector
  · rename_i hCall
    rw [Bool.and_eq_true, decide_eq_true_eq] at hCall
    rw [← Option.some.inj hSelector]
    refine ⟨fun hEmpty => ?_, lower_takeText _ _⟩
    have hLength : (takeText node.data 10).length = 10 := by
      rw [takeText, String.length_ofList, List.length_take, String.length_toList]
      omega
    rw [hEmpty] at hLength
    simp at hLength
  · cases hSelector

/-- The record of a frame reads as the frame that the node was opened to. -/
theorem frame_readsAs {phase : Phase} {v : Visit} {f : ArenaFrame}
    (h : FrameOf host phase v f) : ReadsAs f.record f.head f.logs := by
  have hOpened := openedFrom_of_openFrame h.head
  obtain ⟨head, logs, children⟩ := f
  refine readsAs_frameRecord (fun hEmpty => ?_) (fun hEmpty => ?_) fun hEmpty => ?_
  · have hLength := hOpened.addressLength
    simp [ArenaFrame.head, hEmpty] at hLength
  · have hLength := hOpened.callerLength
    simp [ArenaFrame.head, hEmpty] at hLength
  · exact (hOpened.selector_lower hEmpty).1 rfl

theorem readFrame_record {phase : Phase} {v : Visit} {f : ArenaFrame}
    (h : FrameOf host phase v f) : readFrame f.record = .ok f.parsed := by
  have hOpened := openedFrom_of_openFrame h.head
  have hAddress : lower f.head.toAddress = f.head.toAddress := by
    rw [hOpened.toAddress, ArenaNode.address, ArenaNode.traceText, lower_lower]
  have hSelector : f.head.selector.map lower = f.head.selector := by
    cases hCase : f.head.selector with
    | none => rfl
    | some s => rw [Option.map_some, (hOpened.selector_lower hCase).2]
  rw [readFrame_of_readsAs (frame_readsAs h) hOpened.depthNonneg, hAddress, hSelector,
    ArenaFrame.parsed]

theorem SummaryOf.reads {executed : List (Phase × Visit)} {frames : List ArenaFrame}
    {t : TraceSummary} (h : SummaryOf host catalog executed frames t) {f : ArenaFrame}
    (hMem : f ∈ frames) : ReadsAs f.record f.head f.logs ∧ readFrame f.record = .ok f.parsed := by
  obtain ⟨x, _, hFrame⟩ := forall₂_exists_left h.each hMem
  exact ⟨frame_readsAs hFrame, readFrame_record hFrame⟩

/-- The frames of the summary are those of the arenas, but all succeed. -/
theorem SummaryOf.frames {executed : List (Phase × Visit)} {frames : List ArenaFrame}
    {t : TraceSummary} (h : SummaryOf host catalog executed frames t) :
    t.frames = frames.map ArenaFrame.parsed := by
  have hReads : ∀ f ∈ frames, readFrame f.record = .ok f.parsed := fun f hf => (h.reads hf).2
  obtain ⟨timestamp, block, final, hLoop, sha, rfl⟩ := h.loop
  have hRead := (parsed_of_loop hLoop).frames
  show final.frames = _
  clear h hLoop
  generalize final.frames = parsed at hRead
  induction frames generalizing parsed with
  | nil =>
      cases hRead
      rfl
  | cons f rest ih =>
      rw [List.forall_mem_cons] at hReads
      obtain _ | ⟨⟨item, hItem, hParsed⟩, hTail⟩ := hRead
      cases hItem
      rw [hReads.1, Except.ok.injEq] at hParsed
      rw [List.map_cons, ← ih hReads.2 _ hTail, hParsed]

end Summary

end L0vi0x.Chain
