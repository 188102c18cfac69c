import L0vi0x.Python.Act
import L0vi0x.Python.JsonDepth
import L0vi0x.Python.Url
import L0vi0x.Core.Certificates

/-! The gate between the sandbox and the RPC endpoints: who may call which method, what
is written to the audit log, what is sent on and what is answered. -/
namespace L0vi0x.Docker

open L0vi0x.Python
open L0vi0x.Core.Certificates (compareDigest)

def writeOrAdminPrefixes : List String :=
  ["anvil_", "hardhat_", "evm_set", "evm_mine", "evm_increasetime", "evm_setnextblocktimestamp",
    "eth_sendrawtransaction", "eth_sendtransaction", "eth_sendunsignedtransaction", "eth_sign",
    "personal_", "debug_set", "debug_tracecall"]

def endpointConfig (policy : Fields) (endpoint : String) : Fields :=
  let legacy : Fields := match getField? endpoint policy with
    | some (.obj config) => config
    | _ => []
  match getField? "endpoints" policy with
  | some (.obj endpoints) => match getField? endpoint endpoints with
      | some (.obj config) => config
      | _ => legacy
  | _ => legacy

/-- `cfg.get("allow", cfg.get("allow_methods", []))`. -/
def allowEntry (config : Fields) : Json :=
  (getField? "allow" config).getD ((getField? "allow_methods" config).getD (.arr []))

def denyEntry (config : Fields) : Json := (getField? "deny_prefixes" config).getD (.arr [])

def isUpstreamSide (endpoint : String) : Bool := endpoint = "upstream" || endpoint = "cross_check"

section Redaction

variable (tables : UnicodeTables)

/-- The markers of a key whose value is hidden. -/
def sensitiveMarkers : List String :=
  ["key", "token", "secret", "password", "mnemonic", "credential", "private"]

def isSensitive (key : String) : Bool :=
  sensitiveMarkers.any (containsText (tables.lower key))

def truncationMark : String := "…<truncated>"

/-- `scheme://host:port`, where user, path, query and fragment are left out. -/
def originText (parts : SplitUrl) (port : Option Nat) : String :=
  parts.scheme ++ "://" ++ (parts.hostname tables ++ SplitUrl.portText port)

/-- What `redact_params` makes of a text. -/
def redactText (s : String) : Py String :=
  if 256 < s.toList.length then pure (takeText s 256 ++ truncationMark)
  else if containsText s "://" then do
    let parts ← urlsplit tables s
    if parts.scheme ≠ "" ∧ parts.netloc ≠ "" then do
      let port ← parts.port
      pure (originText tables parts port)
    else pure s
  else pure s

/-- `redact_params(params)` where the stack has room for it. -/
def redactParams : Json → Py Json :=
  Json.mapTexts (isSensitive tables) (.str "<redacted>") (redactText tables)

end Redaction

/-- What the stack of a handler has room for: the levels that `json.loads` goes down, the
nested calls of `redact_params`, and the levels that `json.dump` goes down in the parameters
of a record. `json.dumps` goes down like `json.loads`, so what was read can be written. -/
structure StackRoom where
  loads : Nat
  redact : Nat
  dump : Nat

/-- The state of the gate; it does not start without both tokens. -/
structure GateState where
  room : StackRoom
  policy : Fields
  agentToken : String
  upstreamToken : String
  anvilUrl : String
  upstreamUrl : String
  crossCheckUrl : String
  auditId : String
  agentToken_ne : agentToken ≠ ""
  upstreamToken_ne : upstreamToken ≠ ""

/-- What the gate does to the world, in order: a payload given to `urlopen`, a line of the
audit log, the beginning of a line at which `json.dump` raised, an answer in JSON and an
answer of `send_error`. -/
inductive GateEvent
  | forwarded (endpoint url body : String)
  | logged (line : String)
  | torn
  | answered (status : Int) (body : String)
  | refused (status : Nat)
  deriving DecidableEq

def emit (event : GateEvent) : Act (List GateEvent) Unit := fun events => (.ok (), events ++ [event])

/-- The network behind the gate, which may answer by all that happened: the status and the
body of the answer or the error of `urlopen`, and the latency that is measured. -/
structure Network where
  urlopen : List GateEvent → Py (Int × Bytes)
  latency : List GateEvent → Int

/-- A POST request. The body is what reading `Content-Length` bytes and decoding them
comes to. -/
structure Post where
  path : String
  authorization : Option String
  body : Py String

/-- The token that an `Authorization` header supplies. -/
def suppliedToken (authorization : Option String) : String :=
  let header := authorization.getD ""
  if startsWith header "Bearer " then dropText header 7
  else if startsWith header "Basic " then
    match (b64decode? (dropText header 6)).bind decodeUtf8? with
    | some user => if user.toList.contains ':' then String.ofList (afterFirst ':' user.toList) else ""
    | none => ""
  else header

namespace GateState

variable (tables : UnicodeTables) (g : GateState)

def expected? (endpoint : String) : Option String :=
  if endpoint = "agent" then some g.agentToken
  else if isUpstreamSide endpoint then some g.upstreamToken
  else none

/-- The tests of `authorize` that come after the token. -/
def authorizeMethod (endpoint method : String) : Py (Bool × Nat × String) := do
  let config := endpointConfig g.policy endpoint
  let allow ← (allowEntry config).toSet
  let denied ← (denyEntry config).iter
  let methodLower := tables.lower method
  if denied.any fun p => startsWith methodLower (tables.lower p.text) then
    pure (false, 403, "RPC method denied")
  else if isUpstreamSide endpoint && writeOrAdminPrefixes.any (startsWith methodLower) then
    pure (false, 403, "RPC method denied")
  else if Json.str method ∉ allow then pure (false, 403, "RPC method denied")
  else pure (true, 200, "ok")

def authorize (endpoint method : String) (authorization : Option String) :
    Py (Bool × Nat × String) :=
  match g.expected? endpoint with
  | none => pure (false, 404, "not found")
  | some expected =>
      let supplied := suppliedToken authorization
      if supplied = "" then pure (false, 401, "authentication failed")
      else do
        let same ← compareDigest supplied expected
        if same then g.authorizeMethod tables endpoint method
        else pure (false, 401, "authentication failed")

def auditLine (endpoint method : String) (code : Int) (allowed : Bool) (params : Json)
    (latency : Int) : String :=
  Json.dumpsSpaced (.obj (dictOf [("audit_id", .str g.auditId), ("endpoint", .str endpoint),
    ("method", .str method), ("status", .int code), ("allowed", .bool allowed),
    ("params", params), ("latency_ms", .int latency)]))

/-- `redact_params(params)` on the stack of the handler. -/
def redact (params : Json) : Py Json := do
  raiseIf (g.room.redact < Json.calls (isSensitive tables) params) .runtimeError
    "maximum recursion depth exceeded"
  redactParams tables params

/-- `json.dump` of a record with these parameters, and the end of the line. -/
def writeRecord (params : Json) (line : String) : Act (List GateEvent) Unit :=
  if g.room.dump < Json.levels (fun _ => false) params then do
    emit .torn
    Act.ofPy (raise .runtimeError "maximum recursion depth exceeded")
  else emit (.logged line)

def log (endpoint method : String) (code : Int) (allowed : Bool) (params : Json) (latency : Int) :
    Act (List GateEvent) Unit := do
  let redacted ← Act.ofPy (g.redact tables params)
  g.writeRecord redacted (g.auditLine endpoint method code allowed redacted latency)

def targetUrl (endpoint : String) : String :=
  if endpoint = "agent" then g.anvilUrl
  else if endpoint = "upstream" then g.upstreamUrl
  else if endpoint = "cross_check" then g.crossCheckUrl
  else ""

/-- An error of JSON-RPC as an answer to `payload`. -/
def errorAnswer (id : Json) (code : Int) (message : String) : Json :=
  .obj (dictOf [("jsonrpc", .str "2.0"), ("id", id),
    ("error", .obj (dictOf [("code", .int code), ("message", .str message)]))])

def requestId (payload : Fields) : Json := (getField? "id" payload).getD .null

/-- What the body of an answer reads as. -/
def readAnswer (answer : Py (Int × Bytes)) : Py (Int × Json) := do
  let (status, raw) ← answer
  match decodeUtf8? raw with
  | some s =>
      let output ← Json.loadsWithin g.room.loads s
      pure (status, output)
  | none => raise .unicodeDecodeError "'utf-8' codec can't decode the answer"

variable (net : Network)

/-- The part of `forward` inside its `try`. -/
def exchange (endpoint : String) (payload : Fields) : Act (List GateEvent) (Int × Json × Int) :=
  fun events =>
    let sent := events ++
      [.forwarded endpoint (g.targetUrl endpoint) (Json.dumpsSpaced (.obj payload))]
    match g.readAnswer (net.urlopen sent) with
    | .ok (status, output) => (.ok (status, output, net.latency sent), sent)
    | .error e =>
        (.ok (502, errorAnswer (requestId payload) (-32002) e.message, net.latency sent), sent)

def forward (endpoint : String) (payload : Fields) : Act (List GateEvent) (Int × Json × Int) :=
  if g.targetUrl endpoint = "" then
    pure (502, errorAnswer (requestId payload) (-32002) "endpoint URL unavailable", 0)
  else if (urlType? (g.targetUrl endpoint)).isNone then
    Act.ofPy (raise .valueError "unknown url type")
  else g.exchange net endpoint payload

end GateState

section Handler

variable (tables : UnicodeTables) (g : GateState) (net : Network)

def endpointForPath (path : String) : Py (Option String) := do
  let parts ← urlsplit tables path
  let route := if parts.path = "" then "/" else parts.path
  if route ∈ ["/", "/agent", "/agent/"] then pure (some "agent")
  else if route ∈ ["/upstream", "/upstream/"] then pure (some "upstream")
  else if route ∈ ["/cross_check", "/cross_check/"] then pure (some "cross_check")
  else pure none

def writeJson (status : Int) (payload : Json) : Act (List GateEvent) Unit :=
  emit (.answered status payload.dumpsSpaced)

def readPayload (body : Py String) : Py Fields := do
  let s ← body
  match ← Json.loadsWithin g.room.loads s with
  | .obj payload => pure payload
  | _ => raise .valueError "JSON-RPC payload must be an object"

/-- `str(payload.get("method", ""))`. -/
def methodText (payload : Fields) : String := ((getField? "method" payload).getD (.str "")).text

def requestParams (payload : Fields) : Json := (getField? "params" payload).getD .null

/-- `do_POST` from the authorization on. -/
def answer (endpoint : String) (payload : Fields) (authorization : Option String) :
    Act (List GateEvent) Unit := do
  let method := methodText payload
  let (allowed, status, reason) ← Act.ofPy (g.authorize tables endpoint method authorization)
  if allowed then do
    let (status, output, latency) ← g.forward net endpoint payload
    g.log tables endpoint method status (status < 400) (requestParams payload) latency
    writeJson status output
  else do
    g.log tables endpoint method status false (requestParams payload) 0
    writeJson status (GateState.errorAnswer (GateState.requestId payload)
      (if status = 403 then -32601 else -32001) reason)

def doPost (r : Post) : Act (List GateEvent) Unit := do
  match ← Act.ofPy (endpointForPath tables r.path) with
  | none => emit (.refused 404)
  | some endpoint =>
      match readPayload g r.body with
      | .ok payload => answer tables g net endpoint payload r.authorization
      | .error _ => writeJson 400 (GateState.errorAnswer .null (-32700) "invalid JSON")

end Handler
end L0vi0x.Docker
