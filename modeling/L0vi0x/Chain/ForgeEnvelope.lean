import L0vi0x.Chain.ArenaExecution

/-! The canonical trace envelope: what `adapt_forge_test_json` puts into it and what
`extract_structured_trace` reads out of it again. -/
namespace L0vi0x.Chain

open L0vi0x.Python L0vi0x.Core

def canonicalTraceSchema : String := "l0vi0x.foundry.trace.v1"

section Frames

def FrameCheatcode.pairs (c : FrameCheatcode) : List (String × Json) :=
  [("cheatcode", .str c.name), ("args", .arr c.args)] ++
    (c.absolute.map fun value => ("absolute", value)).toList

/-- The fields that a frame has only at times: its cheatcode and its transfers. -/
def optionalPairs (head : FrameHead) (logs : List ArenaLog) : List (String × Json) :=
  (head.cheatcode.map FrameCheatcode.pairs).getD [] ++
    match logs.filterMap ArenaLog.transfer with
    | [] => []
    | transfers => [("erc20_transfers", .arr (transfers.map Json.obj))]

def frameJson (head : FrameHead) (logs : List ArenaLog) (children : List Json) : Json :=
  .obj <| dictOf <|
    [("depth", .int head.depth), ("kind", .str head.kind), ("to", .str head.toAddress),
      ("caller", .str head.caller), ("phase", .str head.phase.text), ("data", .str head.data),
      ("selector", textOrNull head.selector), ("gas_used", .int head.gasUsed),
      ("success", .bool head.success), ("logs", .arr (logs.map ArenaLog.json)),
      ("children", .arr children)] ++ optionalPairs head logs

namespace ArenaFrame

mutual
def json : ArenaFrame → Json
  | .mk head logs children => frameJson head logs (jsonAll children)

def jsonAll : List ArenaFrame → List Json
  | [] => []
  | f :: rest => f.json :: jsonAll rest
end

end ArenaFrame
end Frames

section Selection

def normpath (path : String) : String :=
  let cs := path.toList
  let slashes :=
    if cs.head? = some '/' then
      if cs.take 2 = ['/', '/'] ∧ cs.take 3 ≠ ['/', '/', '/'] then 2 else 1
    else 0
  let parts := (splitSlash cs []).foldl (fun parts part =>
    if part = "" ∨ part = "." then parts
    else if part ≠ ".." ∨ (slashes = 0 ∧ parts = []) ∨ parts.getLast? = some ".." then
      parts ++ [part]
    else parts.dropLast) []
  let text := String.ofList (List.replicate slashes '/') ++ joinText "/" parts
  if text = "" then "." else text

/-- `posixpath.normpath(path.replace("\\", "/"))`. -/
def normalizedPath (path : String) : String :=
  normpath (String.ofList (path.toList.map fun c => if c = '\\' then '/' else c))

/-- `text.rpartition(c)[0]`. -/
def beforeLast (c : Char) (s : String) : String :=
  String.ofList ((s.toList.reverse.dropWhile (· ≠ c)).drop 1).reverse

/-- `_select_suite(payload, test_file)`, with the suite under the key. -/
def selectSuite (payload : Fields) (testFile : String) : Py (String × Fields) :=
  let wanted := normalizedPath testFile
  let found := payload.filterMap fun p => match p.2 with
    | .obj suite => if normalizedPath (beforeLast ':' p.1) = wanted then some (p.1, suite) else none
    | _ => none
  match found with
  | [p] => pure p
  | found => formatError ("expected exactly one suite for " ++ testFile ++ ", found " ++
      String.ofList (intText found.length))

/-- The result of the only test of a suite, when it has the expected name. -/
def namedResult (testName name : String) (result : Json) : Option Fields :=
  match result with
  | .obj result => if name = testName ++ "()" then some result else none
  | _ => none

def selectTest (suite : Fields) (testName : String) : Py Fields :=
  match getField? "test_results" suite with
  | some (.obj [(name, result)]) => match namedResult testName name result with
      | some result => pure result
      | none => formatError ("unexpected test in Forge output: " ++
          String.ofList (Json.reprText name) ++ "; expected " ++ testName ++ "()")
  | _ => formatError "Forge output must contain exactly one test result"

inductive ArenaKind
  | deployment
  | setup
  | execution
  deriving DecidableEq, Repr

def ArenaKind.text : ArenaKind → String
  | .deployment => "Deployment"
  | .setup => "Setup"
  | .execution => "Execution"

/-- `_PHASES`. -/
def ArenaKind.phase : ArenaKind → Phase
  | .deployment | .setup => .setup
  | .execution => .witness

def arenaOrder : List ArenaKind := [.deployment, .setup, .execution]

/-- The nodes of an arena, when they are a list of objects that is not empty. -/
def arenaNodes (value : Json) : Option (List Fields) :=
  match value with
  | .arr [] => none
  | .arr items => items.mapM fun j => match j with | .obj fields => some fields | _ => none
  | _ => none

/-- One pass of the loop over the trace entries. -/
def selectArena (arenas : List (ArenaKind × List Fields)) (entry : Json) :
    Py (List (ArenaKind × List Fields)) :=
  match entry with
  | .arr [.str name, .obj body] => match arenaOrder.find? (·.text = name) with
      | none => formatError ("unknown trace arena kind: " ++ String.ofList (Json.reprText name))
      | some kind =>
          if arenas.any (·.1 = kind) then formatError ("duplicate " ++ name ++ " trace arena")
          else match arenaNodes ((getField? "arena" body).getD .null) with
            | some nodes => pure (arenas ++ [(kind, nodes)])
            | none => formatError (name ++ " arena has no nodes")
  | _ => formatError "unexpected trace entry shape"

def selectArenas (traces : Json) : Py (List (ArenaKind × List Fields)) :=
  match traces with
  | .arr (entry :: rest) => do
      let arenas ← (entry :: rest).foldlM selectArena []
      raiseIf (!arenas.any (·.1 = .execution)) .foundryTraceFormatError
        "Forge output has no Execution trace"
      pure arenas
  | _ => formatError "Forge output contains no call traces (run with --json -vvv)"

/-- The arenas in the order in which they are converted, each with its phase. -/
def inArenaOrder (arenas : List (ArenaKind × List Fields)) : List (Phase × List Fields) :=
  arenaOrder.filterMap fun kind =>
    (arenas.find? (·.1 = kind)).map fun arena => (kind.phase, arena.2)

end Selection

section Adapter

/-- The frames of the arenas and all their logs. -/
def convertArenas (host : Host) : List (Phase × List Fields) → List DerivedLog →
    Py (List ArenaFrame × List DerivedLog)
  | [], before => pure ([], before)
  | (phase, nodes) :: rest, before => do
      let (frame, derived) ← convertArena host phase nodes before
      let (frames, after) ← convertArenas host rest derived
      pure (frame :: frames, after)

/-- An entry of the logs that Forge lists at test level. -/
def forgeLog (entry : Json) : Py DerivedLog :=
  except (do
    let address ← addressText (← entry.item "address") "forge log emitter"
    let topics ← (← (← entry.item "topics").iter).mapM fun t => hexText t "forge log topic"
    let data ← hexText (← entry.item "data") "forge log data"
    pure (address, topics, data))
    (fun kind => kind = .keyError || kind = .typeError)
    fun _ => formatError "Forge log entry is malformed"

def checkLogsAgainstForge (forgeLogs : Json) (derived : List DerivedLog) : Py Unit :=
  match forgeLogs with
  | .null => pure ()
  | .arr entries => do
      let normalized ← entries.mapM forgeLog
      raiseIf (normalized ≠ derived) .foundryTraceFormatError
        "Forge-reported logs do not exactly match call-trace arena logs"
  | _ => formatError "Forge log list is malformed"

def suppliedClock (label : String) (value : Json) : Py Int :=
  match value with
  | .int i =>
      if i < 0 then
        formatError (label ++ " must be a non-negative integer supplied by the host")
      else pure i
  | _ => formatError (label ++ " must be a non-negative integer supplied by the host")

/-- The result of the selected test, which must be a passing unit test. -/
def passingUnitTest (payload : Fields) (testFile testName : String) : Py (String × Fields) := do
  let (key, suite) ← selectSuite payload testFile
  let result ← selectTest suite testName
  let status := (getField? "status" result).getD .null
  raiseIf (status ≠ .str "Success") .foundryTraceFormatError
    ("test " ++ testName ++ " did not succeed: " ++ String.ofList status.repr)
  raiseIf ((((getField? "kind" result).getD .null).get? "Unit").isNone) .foundryTraceFormatError
    "only unit tests can be witnesses or controls"
  pure (key, result)

def adaptForgeTestJson (host : Host) (payload : Json) (testFile testName : String)
    (initialTimestamp initialBlock : Json) : Py Json :=
  match payload with
  | .obj payload => do
      let timestamp ← suppliedClock "initial_timestamp" initialTimestamp
      let block ← suppliedClock "initial_block" initialBlock
      let (key, result) ← passingUnitTest payload testFile testName
      let arenas ← selectArenas ((getField? "traces" result).getD .null)
      let (frames, derived) ← convertArenas host (inArenaOrder arenas) []
      checkLogsAgainstForge ((getField? "logs" result).getD .null) derived
      let source := dictOf [("tool", .str "forge"), ("suite", .str key),
        ("test", .str (testName ++ "()"))]
      let envelope := dictOf [("schema", .str canonicalTraceSchema), ("source", .obj source),
        ("initial_timestamp", .int timestamp), ("initial_block", .int block),
        ("frames", .arr (ArenaFrame.jsonAll frames))]
      pure (.obj [("l0vi0x_structured_trace", .obj envelope)])
  | _ => formatError "Forge JSON is not an object"

end Adapter

section Extraction

def pyOr (a b : Json) : Json := if a.truthy then a else b

/-- The fields of `key` that a frame keeps when it has it. -/
def keptField (item : Json) (key : String) : List (String × Json) :=
  ((item.get? key).map fun value => (key, value)).toList

/-- The fields of a normalized frame, but for its children. -/
def normalPairs (item : Json) (depth : Int) : List (String × Json) :=
  [("depth", .int depth),
    ("kind", .str (item.getD "kind" (item.getD "type" (.str "call"))).text),
    ("to", pyOr (item.getD "to" .null) (item.getD "address" .null)),
    ("selector", pyOr (item.getD "selector" .null) (item.getD "function" .null)),
    ("phase", .str (item.getD "phase" (.str "witness")).text),
    ("caller", pyOr (item.getD "caller" .null) (item.getD "from" .null)),
    ("data", item.getD "data" .null), ("gas_used", item.getD "gas_used" (item.getD "gas" .null)),
    ("logs", item.getD "logs" (.arr []))] ++
    (if (item.get? "cheatcode").isSome then
      keptField item "cheatcode" ++ keptField item "args" ++ keptField item "absolute" else []) ++
    keptField item "erc20_transfer" ++ keptField item "erc20_transfers"

/-- A normalized frame with its children, when it lists any. -/
def normalJson (item : Json) (depth : Int) (children : Option (List Json)) : Json :=
  .obj <| dictOf <| normalPairs item depth ++
    (children.map fun children => ("children", .arr children)).toList

mutual
def normalizeFrame : Json → Py Json
  | .obj fields => do
      let depth ← ((Json.obj fields).getD "depth" (.int 0)).toInt
      let children ← (normalizeField "children" fields).getD
        ((normalizeField "calls" fields).getD (pure none))
      pure (normalJson (.obj fields) depth children)
  | j => pure j

/-- The objects of a list of children, normalized. -/
def normalizeItems : List Json → Py (List Json)
  | [] => pure []
  | j :: rest => do
      let first ← normalizeFrame j
      let more ← normalizeItems rest
      pure (if j.isObj then first :: more else more)

def normalizeValue : Json → Py (Option (List Json))
  | .arr items => some <$> normalizeItems items
  | _ => pure none

/-- The children below the field `key`, when there is one. -/
def normalizeField (key : String) : Fields → Option (Py (Option (List Json)))
  | [] => none
  | (k, v) :: rest => if k = key then some (normalizeValue v) else normalizeField key rest
end

/-- A clock of the envelope, when it has one. -/
def envelopeClock (envelope : Fields) (key : String) : Py (List (String × Json)) :=
  match getField? key envelope with
  | none => pure []
  | some (.int i) =>
      if i < 0 then formatError (key ++ " must be a non-negative integer")
      else pure [(key, .int i)]
  | some _ => formatError (key ++ " must be a non-negative integer")

def extractStructuredTrace (payload : Json) (expectedSchema : Option String) : Py Json := do
  let expected := match expectedSchema with
    | none | some "" => canonicalTraceSchema
    | some schema => schema
  raiseIf (!payload.isObj) .foundryTraceFormatError "Forge JSON is not an object"
  match payload.get? "l0vi0x_structured_trace" with
  | some (.obj envelope) => do
      let schema := (getField? "schema" envelope).getD .null
      raiseIf (schema ≠ .str expected) .foundryTraceFormatError
        ("unexpected structured trace schema: " ++ String.ofList schema.repr ++ "; expected " ++
          String.ofList (Json.reprText expected))
      match getField? "frames" envelope with
      | some (.arr (first :: rest)) => do
          raiseIf (!(first :: rest).all Json.isObj) .foundryTraceFormatError
            "canonical structured-trace envelope has no valid frame list"
          let trace ← normalizeItems (first :: rest)
          let timestamp ← envelopeClock envelope "initial_timestamp"
          let block ← envelopeClock envelope "initial_block"
          pure (.obj (dictOf ([("trace", .arr trace), ("schema", .str expected)] ++ timestamp ++
            block)))
      | _ => formatError "canonical structured-trace envelope has no valid frame list"
  | _ =>
      formatError
        "verified Foundry adapter did not provide the canonical structured-trace envelope"

/-- The trace summary of a Forge payload: adapted, extracted and parsed. -/
def forgeSummary (host : Host) (catalog : List (String × String)) (payload : Json)
    (testFile testName : String) (initialTimestamp initialBlock : Json)
    (schema : Option String) : Py TraceSummary := do
  let envelope ← adaptForgeTestJson host payload testFile testName initialTimestamp initialBlock
  let trace ← extractStructuredTrace envelope schema
  parseTrace host (.parsed trace) catalog

end Extraction

end L0vi0x.Chain
