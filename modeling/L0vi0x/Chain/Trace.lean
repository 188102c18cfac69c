import L0vi0x.Chain.CheatcodeAbi

/-! The parser of structured traces. A payload is flattened into frame records;
one loop over them accumulates the frames, the cheatcode calls, the transfers,
the assertion events and the two clocks. -/
namespace L0vi0x.Chain

open L0vi0x.Python L0vi0x.Core

inductive Phase
  | setup
  | witness
  deriving DecidableEq, Repr

def Phase.text : Phase → String
  | .setup => "setup"
  | .witness => "witness"

/-- The phase of a frame record; other texts are refused. -/
def Phase.parse (s : String) : Py Phase :=
  if s = "setup" then pure .setup
  else if s = "witness" then pure .witness
  else raise .tracePolicyError ("unsupported trace phase: " ++ s)

structure TraceFrame where
  depth : Int
  kind : String
  toAddress : Option String
  selector : Option String
  phase : Phase
  caller : Json
  data : Json
  gasUsed : Option Int
  success : Bool
  logs : List Json
  deriving DecidableEq

structure CheatcodeCall where
  name : String
  category : String
  depth : Int
  phase : Phase
  args : List Json
  selector : Option String
  deriving DecidableEq

structure TraceTransfer where
  token : String
  fromAddress : String
  toAddress : String
  amount : Int
  depth : Int
  phase : Phase
  deriving DecidableEq

structure TraceSummary where
  frames : List TraceFrame
  cheatcodes : List CheatcodeCall
  transfers : List TraceTransfer
  assertionEvents : List Fields
  cumulativeWarpS : Int
  cumulativeRoll : Int
  initialTimestamp : Option Int
  finalTimestamp : Option Int
  initialBlock : Option Int
  finalBlock : Option Int
  gasUsed : Int
  rawSha256 : String

def TraceFrame.record (f : TraceFrame) : Json := .obj <| dictOf
  [("depth", .int f.depth), ("kind", .str f.kind), ("to", textOrNull f.toAddress),
    ("selector", textOrNull f.selector), ("phase", .str f.phase.text), ("caller", f.caller),
    ("data", f.data), ("gas_used", intOrNull f.gasUsed), ("success", .bool f.success),
    ("logs", .arr f.logs)]

def CheatcodeCall.record (c : CheatcodeCall) : Json := .obj <| dictOf
  [("name", .str c.name), ("category", .str c.category), ("depth", .int c.depth),
    ("phase", .str c.phase.text), ("args", .arr c.args), ("selector", textOrNull c.selector)]

def TraceTransfer.record (t : TraceTransfer) : Json := .obj <| dictOf
  [("token", .str t.token), ("from_address", .str t.fromAddress),
    ("to_address", .str t.toAddress), ("amount", .int t.amount), ("depth", .int t.depth),
    ("phase", .str t.phase.text)]

/-- The payload whose digest `observed_records_sha256` is. -/
def TraceSummary.observedRecords (t : TraceSummary) : Json := .obj <| dictOf
  [("frames", .arr (t.frames.map TraceFrame.record)),
    ("cheatcodes", .arr (t.cheatcodes.map CheatcodeCall.record)),
    ("transfers", .arr (t.transfers.map TraceTransfer.record)),
    ("assertion_events", .arr (t.assertionEvents.map Json.obj)),
    ("cumulative_warp_s", .int t.cumulativeWarpS), ("cumulative_roll", .int t.cumulativeRoll),
    ("gas_used", .int t.gasUsed)]

def TraceSummary.observedRecordsSha256 (host : Host) (t : TraceSummary) : String :=
  host.sha256Text t.observedRecords.dumps

mutual
/-- `visit(item)`: the record without its children, then those of the children. -/
def visit : Json → List Json
  | .obj fields =>
      .obj (eraseField "calls" (eraseField "children" fields)) ::
        ((visitField "children" fields).getD ((visitField "calls" fields).getD []))
  | j => [j]

def flattenRecords : List Json → List Json
  | [] => []
  | j :: rest => visit j ++ flattenRecords rest

def visitItems : Json → List Json
  | .arr items => flattenRecords items
  | _ => []

/-- The records below the field `key`, when there is one. -/
def visitField (key : String) : Fields → Option (List Json)
  | [] => none
  | (k, v) :: rest => if k = key then some (visitItems v) else visitField key rest
end

def firstInt (j : Json) : Py (Option Int) :=
  match j with
  | .null => pure none
  | j => except (some <$> j.toInt) (fun kind => kind.isValueError || kind = .typeError)
      fun _ => pure none

/-- `str(value).lower()` unless the value is `None`. -/
def lowerText? : Json → Option String
  | .null => none
  | j => some (lower j.text)

/-- Whether a log is a dictionary with this `event`. -/
def isEvent (event : String) (log : Json) : Bool := log.get? "event" = some (.str event)

/-- The success flag of a record, which must be a boolean. -/
def readSuccess : Json → Py Bool
  | .bool b => pure b
  | _ => raise .tracePolicyError "trace frame success must be boolean"

def listedLogs : Json → List Json
  | .arr logs => logs
  | _ => []

def readFrame (item : Fields) : Py TraceFrame := do
  let record := Json.obj item
  let depth ← except (record.getD "depth" (.int 0)).toInt
    (fun kind => kind.isValueError || kind = .typeError)
    fun _ => raise .tracePolicyError "trace frame depth is invalid"
  raiseIf (depth < 0) .tracePolicyError "trace frame depth must be non-negative"
  let phase ← Phase.parse (record.getD "phase" (.str "witness")).text
  let gas ← firstInt (record.getD "gas_used" .null)
  let success ← readSuccess (record.getD "success" (.bool true))
  pure {
    depth := depth
    kind := (record.getD "kind" (.str "call")).text
    toAddress := lowerText? (record.getD "to" .null)
    selector := lowerText? (record.getD "selector" .null)
    phase := phase
    caller := record.getD "caller" .null
    data := record.getD "data" .null
    gasUsed := gas
    success := success
    logs := listedLogs (record.getD "logs" (.arr [])) }

/-- The state of the loop over the records. -/
structure ParseState where
  frames : List TraceFrame
  cheatcodes : List CheatcodeCall
  transfers : List TraceTransfer
  assertions : List Fields
  prevTimestamp : Option Int
  prevBlock : Option Int
  warpSum : Int
  rollSum : Int
  gasUsed : Int
  deriving DecidableEq

def transferFromMapping (transfer : Json) (depth : Int) (phase : Phase) : Py TraceTransfer :=
  except (do
    let token ← transfer.item "token"
    let fromAddress ← transfer.item "from"
    let toAddress ← transfer.item "to"
    let amount ← (← transfer.item "amount").toInt
    pure ⟨lower token.text, lower fromAddress.text, lower toAddress.text, amount, depth, phase⟩)
    (fun kind => kind.isValueError || kind = .typeError || kind = .keyError)
    fun _ => raise .tracePolicyError "malformed ERC-20 transfer record"

/-- The transfer under `erc20_transfer`, when there is one. -/
def singleTransfer (transfer : Json) (depth : Int) (phase : Phase) : Py (List TraceTransfer) :=
  if transfer.truthy then (fun t => [t]) <$> transferFromMapping transfer depth phase else pure []

/-- The transfers of one record: the single one, then those of the list. -/
def transfersOf (item : Fields) (depth : Int) (phase : Phase) : Py (List TraceTransfer) := do
  let record := Json.obj item
  let single := record.getD "erc20_transfer" .null
  let first ← singleTransfer single depth phase
  let listed ← (record.getD "erc20_transfers" (.arr [])).iter
  let more ← (listed.filter Json.isObj).mapM fun t => transferFromMapping t depth phase
  pure (first ++ more)

/-- `catalog.get(name.lower(), "") or "UNCLASSIFIED"`. -/
def categoryOf (catalog : List (String × String)) (name : String) : String :=
  let category := (lookupLast (lower name) (catalog.map fun p => (lower p.1, p.2))).getD ""
  if category = "" then "UNCLASSIFIED" else category

/-- Move one clock forward to an absolute value. -/
def advanceClock (name : String) (initial backward : String) (value : Option Int)
    (prev : Option Int) : Py (Int × Int) :=
  match value, prev with
  | none, _ => raise .tracePolicyError (name ++ " missing absolute value")
  | some _, none => raise .tracePolicyError initial
  | some new, some old =>
      if new < old then raise .tracePolicyError backward else pure (new, new - old)

/-- The name of a call to the cheatcode address. -/
def cheatcodeName (host : Host) (frame : TraceFrame) (item : Fields) : String :=
  let given := (Json.obj item).getD "cheatcode" .null
  if given.truthy then given.text else nameForSelector host frame.selector

def cheatcodeArgs (item : Fields) : List Json :=
  match (Json.obj item).getD "args" (.arr []) with
  | .arr args => args
  | _ => []

/-- The value that a clock is set to: the `absolute` field or the first argument. -/
def absoluteValue (item : Fields) : Json :=
  (Json.obj item).getD "absolute" ((cheatcodeArgs item).head?.getD .null)

/-- Record a cheatcode call, when the frame is one, and account for the clocks. -/
def recordCheatcode (host : Host) (catalog : List (String × String)) (item : Fields)
    (frame : TraceFrame) (state : ParseState) : Py ParseState :=
  if frame.toAddress ≠ some cheatcodeAddress then pure state
  else
    let name := cheatcodeName host frame item
    let call : CheatcodeCall := ⟨name, categoryOf catalog name, frame.depth, frame.phase,
      cheatcodeArgs item, frame.selector⟩
    let state := { state with cheatcodes := state.cheatcodes ++ [call] }
    if lower name = "warp" then do
      let value ← firstInt (absoluteValue item)
      let (now, step) ← advanceClock name "initial timestamp is required before warp accounting"
        "backward warp is forbidden" value state.prevTimestamp
      pure { state with prevTimestamp := some now, warpSum := state.warpSum + step }
    else if lower name = "roll" then do
      let value ← firstInt (absoluteValue item)
      let (now, step) ← advanceClock name "initial block is required before roll accounting"
        "backward roll is forbidden" value state.prevBlock
      pure { state with prevBlock := some now, rollSum := state.rollSum + step }
    else pure state

/-- The `AssertionContext` logs by their id. -/
def contextsOf (logs : List Json) : List (String × Json) :=
  (logs.filter (isEvent "AssertionContext")).map fun log => ((log.getD "id" .null).text, log)

/-- An `AssertionChecked` log with the frame's depth, caller and address. -/
def enrich (frame : TraceFrame) (contexts : List (String × Json)) (log : Fields) : Fields :=
  let value := Json.obj log
  let base := setField "emitter" (value.getD "emitter" (textOrNull frame.toAddress))
    (setField "caller" (value.getD "caller" frame.caller)
      (setField "depth" (.int frame.depth) log))
  match lookupLast (value.getD "id" .null).text contexts with
  | some context =>
      setField "token" (context.getD "token" .null)
        (setField "actor" (context.getD "actor" .null) base)
  | none => base

/-- Whether a log stands: a dictionary, not marked reverted, in a frame that
succeeded. -/
def stands (frame : TraceFrame) (log : Json) : Bool :=
  log.isObj && !(log.getD "reverted" .null).truthy && frame.success

/-- The assertion events among the logs of one frame. -/
def assertionsOf (frame : TraceFrame) (logs : List Json) : List Fields :=
  logs.filterMap fun log => match log with
    | .obj fields =>
        if stands frame log && isEvent "AssertionChecked" log then
          some (enrich frame (contextsOf logs) fields)
        else none
    | _ => none

def parseRecord (host : Host) (catalog : List (String × String)) (state : ParseState)
    (record : Json) : Py ParseState :=
  match record with
  | .obj item => do
      let frame ← readFrame item
      let gas := match frame.gasUsed with
        | some gas => if frame.phase = Phase.witness ∧ frame.depth = 0 then gas else 0
        | none => 0
      let state := { state with
        frames := state.frames ++ [frame]
        gasUsed := state.gasUsed + gas }
      let state ← recordCheatcode host catalog item frame state
      let transfers ← transfersOf item frame.depth frame.phase
      let logs ← ((Json.obj item).getD "logs" (.arr [])).iter
      pure { state with
        transfers := state.transfers ++ transfers
        assertions := state.assertions ++ assertionsOf frame logs }
  | _ => raise .tracePolicyError "trace frame must be an object"

def ParseState.initial (timestamp block : Option Int) : ParseState :=
  ⟨[], [], [], [], timestamp, block, 0, 0, 0⟩

/-- The list of frame records of a parsed payload. -/
def traceRecords (payload : Json) : Py (List Json) :=
  match (payload.get? "trace").getD payload with
  | .arr records => pure records
  | _ => raise .tracePolicyError "structured trace must contain a list of frames"

/-- An initial clock value of the payload, when it is an object. -/
def initialClock (payload : Json) (key : String) : Py (Option Int) :=
  if payload.isObj then firstInt (payload.getD key .null) else pure none

/-- Where the two clocks started, and the state after the last record. -/
structure ParsedPayload where
  timestamp : Option Int
  block : Option Int
  final : ParseState
  deriving DecidableEq

/-- The loop of `parse_trace` over the records of a parsed payload. -/
def runRecords (host : Host) (catalog : List (String × String)) (payload : Json) :
    Py ParsedPayload := do
  let records ← traceRecords payload
  let timestamp ← initialClock payload "initial_timestamp"
  let block ← initialClock payload "initial_block"
  let final ← (flattenRecords records).foldlM (parseRecord host catalog)
    (ParseState.initial timestamp block)
  pure ⟨timestamp, block, final⟩

/-- The summary of a payload whose bytes have the given digest. -/
def ParsedPayload.summary (p : ParsedPayload) (rawSha256 : String) : TraceSummary where
  frames := p.final.frames
  cheatcodes := p.final.cheatcodes
  transfers := p.final.transfers
  assertionEvents := p.final.assertions
  cumulativeWarpS := p.final.warpSum
  cumulativeRoll := p.final.rollSum
  initialTimestamp := p.timestamp
  finalTimestamp := p.final.prevTimestamp
  initialBlock := p.block
  finalBlock := p.final.prevBlock
  gasUsed := p.final.gasUsed
  rawSha256 := rawSha256

/-- `parse_trace` of a parsed payload whose bytes are `raw`. -/
def parseRecords (host : Host) (catalog : List (String × String)) (payload : Json)
    (raw : Bytes) : Py TraceSummary := do
  let parsed ← runRecords host catalog payload
  pure (parsed.summary (host.sha256 raw))

/-- What `parse_trace` takes: undecoded bytes, a text or a parsed value. -/
inductive TracePayload
  | bytes (raw : Bytes)
  | text (s : String)
  | parsed (j : Json)

def parseTrace (host : Host) (payload : TracePayload) (catalog : List (String × String)) :
    Py TraceSummary :=
  match payload with
  | .bytes raw => match decodeUtf8? raw with
      | none => raise .tracePolicyError "trace is not valid UTF-8 JSON"
      | some s => do
          let j ← except (Json.loads s) (· = .jsonDecodeError)
            fun _ => raise .tracePolicyError "trace is not valid UTF-8 JSON"
          parseRecords host catalog j raw
  | .text s => do
      let j ← except (Json.loads s) (· = .jsonDecodeError)
        fun _ => raise .tracePolicyError "trace is not valid JSON"
      parseRecords host catalog j (encodeUtf8 s)
  | .parsed j => parseRecords host catalog j (encodeUtf8 j.dumps)

end L0vi0x.Chain
