import L0vi0x.Python.JsonText
import L0vi0x.Python.JsonTexts
import L0vi0x.Python.Url
import L0vi0x.Core.Certificates

/-! The policy decision and the redaction of the gate that the host library holds. -/
namespace L0vi0x.Chain

open L0vi0x.Python
open L0vi0x.Core.Certificates (compareDigest)

/-- `RpcGate`, as far as it decides. -/
structure RpcGate where
  policy : Fields
  agentToken : String
  upstreamToken : String

namespace RpcGate

def writeOrAdminPrefixes : List String :=
  ["anvil_", "hardhat_", "evm_set", "evm_mine", "evm_increasetime", "evm_setnextblocktimestamp",
    "eth_sendrawtransaction", "eth_sendtransaction", "eth_sendunsignedtransaction", "eth_sign",
    "personal_", "debug_set", "debug_tracecall"]

def endpointConfig (policy : Fields) (endpoint : String) : Fields :=
  let legacy : Fields := match getField? endpoint policy with
    | some (.obj config) => config
    | _ => []
  match getField? "endpoints" policy with
  | some (.obj endpoints) => match getField? endpoint endpoints with
      | some (.obj config) => config
      | _ => legacy
  | _ => legacy

structure GateDecision where
  allowed : Bool
  status : Nat
  errorCode : Option Int
  reason : Option String

section Decision

variable (tables : UnicodeTables) (gate : RpcGate)

/-- The part of `decision` that comes after the token. -/
def decideMethod (endpoint method : String) : Py GateDecision := do
  let config := endpointConfig gate.policy endpoint
  let allow ← ((getField? "allow" config).getD
    ((getField? "allow_methods" config).getD (.arr []))).toSet
  let prefixes ← ((getField? "deny_prefixes" config).getD (.arr [])).iter
  let methodLower := tables.lower method
  if (prefixes.map fun p => tables.lower p.text).any (startsWith methodLower) then
    pure ⟨false, 403, some (-32601), some "RPC method denied"⟩
  else if endpoint ∈ ["upstream", "cross_check"] ∧
      writeOrAdminPrefixes.any (startsWith methodLower) then
    pure ⟨false, 403, some (-32601), some "RPC method denied"⟩
  else if Json.str method ∉ allow then
    pure ⟨false, 403, some (-32601), some "RPC method denied"⟩
  else pure ⟨true, 200, none, none⟩

def decision (endpoint method : String) (token : Option String) : Py GateDecision :=
  if endpoint ∉ ["agent", "upstream", "cross_check"] then
    pure ⟨false, 404, some (-32601), some "unknown endpoint"⟩
  else
    let expected := if endpoint = "agent" then gate.agentToken else gate.upstreamToken
    let refused : Py GateDecision := pure ⟨false, 401, some (-32001), some "authentication failed"⟩
    if token.getD "" = "" then refused
    else do
      let same ← compareDigest (token.getD "") expected
      if same then gate.decideMethod tables endpoint method else refused

end Decision

section Redaction

variable (tables : UnicodeTables)

def isSecret (key : String) : Bool :=
  ["key", "token", "secret", "password", "mnemonic", "credential", "private"].any
    (containsText (tables.lower key))

/-- `uses_netloc` of the standard library. -/
def usesNetloc : List String :=
  ["", "ftp", "http", "gopher", "nntp", "telnet", "imap", "wais", "file", "mms", "https", "shttp",
    "snews", "prospero", "rtsp", "rtspu", "rsync", "svn", "svn+ssh", "sftp", "nfs", "git",
    "git+ssh", "ws", "wss", "itms-services"]

/-- `urlunsplit((scheme, netloc, "", "", ""))` with a scheme. -/
def urlunsplit (scheme netloc : String) : String :=
  if netloc ≠ "" ∨ scheme ∈ usesNetloc then scheme ++ "://" ++ netloc else scheme ++ ":"

/-- What `_redact_params` makes of a text. -/
def redactText (s : String) : Py String := do
  let parts ← urlsplit tables s
  if parts.scheme ≠ "" ∧ parts.netloc ≠ "" then do
    let port ← parts.port
    pure (urlunsplit parts.scheme (parts.hostname tables ++ SplitUrl.portText port))
  else pure s

def redactParams : Json → Py Json :=
  Json.mapTexts (isSecret tables) (.str "<redacted>") (redactText tables)

end Redaction
end RpcGate
end L0vi0x.Chain
