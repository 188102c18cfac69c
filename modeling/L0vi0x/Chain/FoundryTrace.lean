import L0vi0x.Chain.Trace

/-! The adapter from the call-trace arenas of `forge test --json` to the canonical
trace envelope. An arena is walked with an explicit stack of opened nodes, each
with the entries of its ordering that are still to be taken. -/
namespace L0vi0x.Chain

open L0vi0x.Python L0vi0x.Core

def formatError {α : Type} (message : String) : Py α := raise .foundryTraceFormatError message

/-- Turn a decoder's refusal into a format error. -/
def decoding {α : Type} (context : String) (body : Py α) : Py α :=
  except body (· = .cheatcodeDecodeError) fun e => formatError (context ++ ": " ++ e.message)

section Values

def hexText (value : Json) (label : String) : Py String :=
  match value with
  | .str s =>
      if startsWith s "0x" then
        match bytesOfHex? (dropText s 2) with
        | some _ => pure (lower s)
        | none => formatError (label ++ " is not valid hex")
      else formatError (label ++ " is not 0x-prefixed hex")
  | _ => formatError (label ++ " is not 0x-prefixed hex")

def addressText (value : Json) (label : String) : Py String := do
  let text ← hexText value label
  if text.length = 42 then pure text else formatError (label ++ " is not a 20-byte address")

/-- `_int(value, label)`. -/
def naturalInt (value : Json) (label : String) : Py Int :=
  match value with
  | .int i => if i < 0 then formatError (label ++ " is not a non-negative integer") else pure i
  | _ => formatError (label ++ " is not a non-negative integer")

/-- `bytes.fromhex(text[2:])` of a text that `_hex` has accepted. -/
def hexBody (text : String) : Py Bytes := bytesOfHex (dropText text 2)

/-- `int(text, 16)` of a text that starts with `0x` and holds no underscore. -/
def intOfHex (text : String) : Py Int :=
  match (dropText (strip text) 2).toList.mapM hexValue? with
  | some (d :: ds) => pure ((d :: ds).foldl (fun n d => 16 * n + d) 0 : Nat)
  | _ => raise .valueError
      ("invalid literal for int() with base 16: " ++ String.ofList (Json.reprText text))

end Values

section Logs

def assertionSignature : Signature :=
  ⟨"AssertionChecked", [.fixedBytes 32, .text, .text, .int 256, .int 256, .bool]⟩

def controlSignature : Signature := ⟨"ControlObserved", [.fixedBytes 32, .bool]⟩

def contextSignature : Signature := ⟨"AssertionContext", [.fixedBytes 32, .address, .address]⟩

def econSignature : Signature :=
  ⟨"EconomicSnapshot", [.fixedBytes 32, .address, .address, .uint 256, .uint 256, .uint 256,
    .uint 256, .uint 256, .int 256]⟩

def transferSignature : Signature := ⟨"Transfer", [.address, .address, .uint 256]⟩

def topic0 (host : Host) (event : Signature) : String :=
  "0x" ++ hexOfBytes (host.keccak (encodeUtf8 event.text))

def bytes32Label (word : String) : Py String := do
  let raw ← hexBody word
  let stripped := (raw.reverse.dropWhile (· = 0)).reverse
  if !stripped.isEmpty && stripped.all (fun b => 32 ≤ b.toNat && b.toNat ≤ 126) then
    pure (String.ofList (stripped.map fun b => Char.ofNat b.toNat))
  else pure word

/-- The decoded arguments of an event with one indexed word. -/
def decodeIndexed (event : Signature) (indexed : String) (topics : List String) (data : String) :
    Py (Json × List Json) := do
  match topics with
  | [_, word] =>
      raiseIf (word.length ≠ 66) .foundryTraceFormatError (event.name ++ indexed)
      let args ← decoding ("malformed " ++ event.name ++ " event")
        (do decodeAbiArguments event.types.tail (← hexBody data))
      let label ← bytes32Label word
      pure (.str label, args)
  | _ => formatError (event.name ++ indexed)

def namedArguments (names : List String) (decoded : Json × List Json) : List (String × Json) :=
  ("id", decoded.1) :: names.zip decoded.2

def decodeAssertion (topics : List String) (data : String) : Py (List (String × Json)) :=
  namedArguments ["kind", "target", "observed", "expected", "ok"] <$>
    decodeIndexed assertionSignature " must have exactly one indexed argument" topics data

def decodeContext (topics : List String) (data : String) : Py (List (String × Json)) :=
  namedArguments ["actor", "token"] <$>
    decodeIndexed contextSignature " must have one indexed bytes32 id" topics data

def decodeControl (topics : List String) (data : String) : Py (List (String × Json)) :=
  namedArguments ["state_changed"] <$>
    decodeIndexed controlSignature " must have one indexed bytes32 id" topics data

def decodeEconomic (topics : List String) (data : String) : Py (List (String × Json)) :=
  namedArguments ["actor", "token", "native_before", "native_after", "token_before",
      "token_after", "declared_capital", "protocol_assets_delta"] <$>
    decodeIndexed econSignature " must have one indexed bytes32 id" topics data

/-- A log of an arena as the envelope holds it: `details` are the event and its
arguments, `transfer` is the ERC-20 transfer that it stands for. -/
structure ArenaLog where
  address : String
  topics : List String
  data : String
  reverted : Bool
  details : List (String × Json)
  transfer : Option Fields
  deriving DecidableEq

/-- A log as Forge lists it at test level: the emitter, the topics and the data. -/
abbrev DerivedLog := String × List String × String

def ArenaLog.derived (log : ArenaLog) : DerivedLog := (log.address, log.topics, log.data)

def ArenaLog.json (log : ArenaLog) : Json := .obj <| dictOf <|
  [("address", .str log.address), ("topics", textItems log.topics), ("data", .str log.data),
    ("reverted", .bool log.reverted)] ++ log.details

def decodeTransfer (address : String) (topics : List String) (data : String) :
    Py (Option Fields) :=
  match topics with
  | [_, source, target] =>
      let padded (topic : String) : Bool :=
        (topic.toList.drop 2).take 24 = List.replicate 24 '0'
      if data.length ≠ 66 ∨ !padded source ∨ !padded target then pure none
      else do
        let amount ← intOfHex data
        pure (some (dictOf [("token", .str address), ("from", .str ("0x" ++ dropText source 26)),
          ("to", .str ("0x" ++ dropText target 26)), ("amount", .int amount)]))
  | _ => pure none

/-- The event of a log and its arguments, or the transfer that it stands for. -/
def decodeLog (host : Host) (address : String) (topics : List String) (data : String)
    (reverted : Bool) : Py (List (String × Json) × Option Fields) := do
  let event (name : String) (decoded : Py (List (String × Json))) :
      Py (List (String × Json) × Option Fields) := do
    pure (("event", .str name) :: (← decoded), none)
  if topics.head? = some (topic0 host assertionSignature) then
    event "AssertionChecked" (decodeAssertion topics data)
  else if topics.head? = some (topic0 host controlSignature) then
    event "ControlObserved" (decodeControl topics data)
  else if topics.head? = some (topic0 host contextSignature) then
    event "AssertionContext" (decodeContext topics data)
  else if topics.head? = some (topic0 host econSignature) then
    event "EconomicSnapshot" (decodeEconomic topics data)
  else if !reverted && topics.head? = some (topic0 host transferSignature) then do
    pure ([], ← decodeTransfer address topics data)
  else pure ([], none)

/-- The topics of a raw log, at most four texts. -/
def rawTopics (value : Json) : Py (List String) :=
  match value with
  | .arr items => match items.mapM (fun t => match t with | .str s => some s | _ => none) with
      | some topics =>
          if topics.length > 4 then formatError "log topics are malformed" else pure topics
      | none => formatError "log topics are malformed"
  | _ => formatError "log topics are malformed"

def convertLog (host : Host) (entry : Json) (reverted : Bool) : Py ArenaLog := do
  match entry.get? "raw_log" with
  | some (.obj raw) =>
      let raw := Json.obj raw
      let given ← rawTopics (raw.getD "topics" .null)
      let address ← addressText (entry.getD "address" .null) "log emitter"
      let topics ← given.mapM fun t => hexText (.str t) "log topic"
      let data ← hexText (raw.getD "data" (.str "0x")) "log data"
      let (details, transfer) ← decodeLog host address topics data reverted
      pure ⟨address, topics, data, reverted, details, transfer⟩
  | _ => formatError "arena log has no raw_log"

end Logs

section Nodes

/-- A node of an arena that `by_idx` holds. -/
structure ArenaNode where
  idx : Int
  fields : Fields
  deriving DecidableEq

namespace ArenaNode

def get (node : ArenaNode) (key : String) : Json := (Json.obj node.fields).getD key .null

/-- The list under `key`, or no items. -/
def listed (node : ArenaNode) (key : String) : List Json :=
  match node.get key with
  | .arr items => items
  | _ => []

def isRoot (node : ArenaNode) : Bool := node.get "parent" = .null

end ArenaNode

def sizeOrZero (value : Json) : Py Nat :=
  if !value.truthy then pure 0
  else match value with
    | .arr items => pure items.length
    | .obj fields => pure fields.length
    | .str s => pure s.length
    | j => raise .typeError ("object of type '" ++ j.typeName ++ "' has no len()")

/-- The index `by_idx` of the nodes of an arena. -/
def indexNodes (nodes : List Fields) : Py (List ArenaNode) :=
  nodes.foldlM (fun arena fields =>
    match getField? "idx" fields with
    | some (.int idx) =>
        if arena.any (·.idx = idx) then formatError "arena node index is missing or duplicated"
        else pure (arena ++ [⟨idx, fields⟩])
    | _ => formatError "arena node index is missing or duplicated") []

/-- `by_idx.get(reference)`, which compares numbers as `==` does. -/
def lookupNode (arena : List ArenaNode) (reference : Json) : Py (Option ArenaNode) :=
  match reference with
  | .arr _ => raise .typeError "unhashable type: 'list'"
  | .obj _ => raise .typeError "unhashable type: 'dict'"
  | j => pure (arena.find? fun node => j.pyEq (.int node.idx))

/-- What a call to the cheatcode address was decoded to. -/
structure FrameCheatcode where
  name : String
  args : List Json
  /-- The value that `warp` and `roll` set their clock to. -/
  absolute : Option Json
  deriving DecidableEq

/-- The fields of a frame but for its logs and children. -/
structure FrameHead where
  depth : Int
  kind : String
  toAddress : String
  caller : String
  phase : Phase
  data : String
  selector : Option String
  gasUsed : Int
  success : Bool
  cheatcode : Option FrameCheatcode
  deriving DecidableEq

def isCallKind (kind : String) : Bool :=
  ["call", "staticcall", "delegatecall", "callcode"].contains kind

/-- The decoded cheatcode of a call to the cheatcode address. -/
def frameCheatcode (host : Host) (data : String) : Py FrameCheatcode := do
  let decoded ← decoding "cannot decode cheatcode call" (decodeCheatcode host data)
  let args := decoded.args.getD []
  if decoded.name = "warp" ∨ decoded.name = "roll" then
    match args with
    | [] => formatError (decoded.name ++ " has no decoded value")
    | value :: _ => pure ⟨decoded.name, args, some value⟩
  else pure ⟨decoded.name, args, none⟩

/-- The success flag of a trace, which must be a boolean. -/
def traceSuccess (value : Json) : Py Bool :=
  match value with
  | .bool b => pure b
  | _ => formatError "frame success flag is missing"

/-- The cheatcode of a frame, when it is a call to the cheatcode address. -/
def headCheatcode (host : Host) (target kind data : String) : Py (Option FrameCheatcode) :=
  if target = cheatcodeAddress ∧ isCallKind kind = true then some <$> frameCheatcode host data
  else pure none

/-- The frame that `open_node(node, …)` makes. -/
def openFrame (host : Host) (phase : Phase) (node : ArenaNode) : Py FrameHead :=
  match node.get "trace" with
  | .obj fields => do
      let trace := Json.obj fields
      let kind := lower (trace.getD "kind" (.str "")).text
      raiseIf (kind = "") .foundryTraceFormatError "arena node has no call kind"
      let target ← addressText (trace.getD "address" .null) "frame address"
      let data ← hexText (trace.getD "data" (.str "0x")) "frame data"
      let success ← traceSuccess (trace.getD "success" .null)
      let depth ← naturalInt (trace.getD "depth" .null) "frame depth"
      let caller ← addressText (trace.getD "caller" .null) "frame caller"
      let gas ← naturalInt (trace.getD "gas_used" (.int 0)) "frame gas"
      let cheatcode ← headCheatcode host target kind data
      let selector := if isCallKind kind && 10 ≤ data.length then some (takeText data 10) else none
      pure ⟨depth, kind, target, caller, phase, data, selector, gas, success, cheatcode⟩
  | _ => formatError "arena node has no trace"

def ordering (node : ArenaNode) : Py (List Fields) :=
  match node.get "ordering" with
  | .arr items => match items.mapM (fun j => match j with | .obj fields => some fields | _ => none) with
      | some entries => pure entries
      | none => formatError "arena node lacks call/log ordering"
  | _ => formatError "arena node lacks call/log ordering"

end Nodes

section Walk

/-- A frame with its logs and the frames of the calls that it made. -/
inductive ArenaFrame
  | mk (head : FrameHead) (logs : List ArenaLog) (children : List ArenaFrame)

/-- An entry of the stack: an opened node, its frame so far, the entries of its
ordering still to come and the positions already taken. -/
structure OpenNode where
  node : ArenaNode
  head : FrameHead
  reverted : Bool
  steps : List Fields
  calls : List Nat
  positions : List Nat
  logs : List ArenaLog
  children : List ArenaFrame

def OpenNode.frame (o : OpenNode) : ArenaFrame := .mk o.head o.logs o.children

/-- The state of the loop: the stack, its top apart, the visited indices and the
logs converted so far. -/
structure WalkState where
  top : OpenNode
  below : List OpenNode
  visited : List Int
  derived : List DerivedLog

/-- The outcome of a walk: the root frame, the visited indices and the logs. -/
structure Walked where
  frame : ArenaFrame
  visited : List Int
  derived : List DerivedLog

/-- `open_node(node, parent_reverted)` and the entry that is pushed for the node. -/
def openNode (host : Host) (phase : Phase) (visited : List Int) (reverted : Bool)
    (node : ArenaNode) : Py OpenNode := do
  raiseIf (visited.contains node.idx) .foundryTraceFormatError "arena node is reachable twice"
  let head ← openFrame host phase node
  let steps ← ordering node
  pure ⟨node, head, reverted || !head.success, steps, [], [], [], []⟩

/-- The position that an ordering entry gives, an integer that is not negative. -/
def positionOf (value : Json) : Option Nat :=
  match value with
  | .bool b => some b.toNat
  | .int i => if 0 ≤ i then some i.toNat else none
  | _ => none

/-- The position that an ordering entry gives, when it is in range and not taken. -/
def freePosition (value : Json) (size : Nat) (taken : List Nat) : Option Nat :=
  (positionOf value).filter fun position => position < size && !taken.contains position

def requireConsumed (o : OpenNode) : Py Unit := do
  let children ← sizeOrZero (o.node.get "children")
  raiseIf (o.calls.length ≠ children) .foundryTraceFormatError
    "arena node has calls or logs missing from its ordering"
  let logs ← sizeOrZero (o.node.get "logs")
  raiseIf (o.positions.length ≠ logs) .foundryTraceFormatError
    "arena node has calls or logs missing from its ordering"

/-- The child that the position of an ordering entry stands for. -/
def childAt (arena : List ArenaNode) (node : ArenaNode) (position : Nat) : Py ArenaNode := do
  let found ← lookupNode arena ((node.listed "children")[position]?.getD .null)
  match found with
  | some child =>
      if (child.get "parent").pyEq (.int node.idx) then pure child
      else formatError "arena child does not point back to its parent"
  | none => formatError "arena child does not point back to its parent"

/-- What one pass of the loop leads to. -/
inductive Progress
  | running (s : WalkState)
  | finished (w : Walked)

variable (host : Host) (phase : Phase) (arena : List ArenaNode)

/-- The pass that takes a `Call` entry: the child is opened and pushed. -/
def takeCall (s : WalkState) (rest : List Fields) (value : Json) : Py WalkState :=
  match freePosition value (s.top.node.listed "children").length s.top.calls with
  | none => formatError "arena ordering references an invalid child"
  | some position => do
      let child ← childAt arena s.top.node position
      let opened ← openNode host phase s.visited s.top.reverted child
      let caller := { s.top with steps := rest, calls := s.top.calls ++ [position] }
      pure ⟨opened, caller :: s.below, s.visited ++ [child.idx], s.derived⟩

/-- The pass that takes a `Log` entry: the log is converted. -/
def takeLog (s : WalkState) (rest : List Fields) (value : Json) : Py WalkState :=
  match freePosition value (s.top.node.listed "logs").length s.top.positions with
  | none => formatError "arena ordering references an invalid log"
  | some position => do
      let log ← convertLog host ((s.top.node.listed "logs")[position]?.getD .null) s.top.reverted
      let top := { s.top with
        steps := rest
        positions := s.top.positions ++ [position]
        logs := s.top.logs ++ [log] }
      pure ⟨top, s.below, s.visited, s.derived ++ [log.derived]⟩

/-- The pass that finds a node done: its frame is put under that of its parent. -/
def popFrame (frame : ArenaFrame) (below : List OpenNode) (visited : List Int)
    (derived : List DerivedLog) : Progress :=
  match below with
  | [] => .finished ⟨frame, visited, derived⟩
  | parent :: rest =>
      .running ⟨{ parent with children := parent.children ++ [frame] }, rest, visited, derived⟩

/-- What an entry of an ordering asks for. -/
inductive ArenaStep
  | skip
  | call (value : Json)
  | log (value : Json)
  | unknown

def arenaStep (entry : Fields) : ArenaStep :=
  if (getField? "Step" entry).isSome then .skip
  else match getField? "Call" entry, getField? "Log" entry with
    | some value, _ => .call value
    | none, some value => .log value
    | none, none => .unknown

/-- One pass of the loop of `_convert_arena`. -/
def walkStep (s : WalkState) : Py Progress :=
  match s.top.steps with
  | [] => do
      requireConsumed s.top
      pure (popFrame s.top.frame s.below s.visited s.derived)
  | entry :: rest => match arenaStep entry with
      | .skip => pure (.running { s with top := { s.top with steps := rest } })
      | .call value => .running <$> takeCall host phase arena s rest value
      | .log value => .running <$> takeLog host s rest value
      | .unknown => formatError ("unknown arena ordering entry: " ++
          String.ofList (Json.arr (entry.map fun p => .str p.1)).repr)

/-- The loop, for at most `fuel` passes. -/
def walk : Nat → WalkState → Option (Py Walked)
  | 0, _ => none
  | fuel + 1, s => match walkStep host phase arena s with
      | .error e => some (.error e)
      | .ok (.finished w) => some (.ok w)
      | .ok (.running t) => walk fuel t

end Walk

end L0vi0x.Chain
