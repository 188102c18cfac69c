import L0vi0x.Core.Models

namespace L0vi0x.Core.Certificates

open L0vi0x.Python

def canonical (fields : Fields) : Bytes := encodeUtf8 (Json.obj fields).dumps

def isAscii (s : String) : Bool := s.toList.all fun c => c.toNat < 128

/-- `hmac.compare_digest`, which refuses texts that are not ASCII. -/
def compareDigest (a b : String) : Py Bool :=
  if isAscii a && isAscii b then pure (decide (a = b))
  else raise .typeError "comparing strings with non-ASCII characters is not supported"

/-- The bindings that `verify` is asked to compare, where `None` asks nothing. -/
structure Binding where
  witnessSha256 : String
  envHash : String
  observedRecordsSha256 : Option String
  tracePolicySha256 : Option String
  controlSha256 : Option String
  crossCheckSha256 : Option String

def differs (given : Option String) (held : Option String) : Bool :=
  given.isSome && held != given

def verify (host : Host) (cert : ReplayCertificate) (key : Bytes) (b : Binding) : Py Bool :=
  if cert.witnessSha256 != b.witnessSha256 || cert.envHash != b.envHash || cert.runs < 3 then
    pure false
  else if differs b.observedRecordsSha256 (some cert.observedRecordsSha256) then pure false
  else if differs b.tracePolicySha256 (some cert.tracePolicySha256) then pure false
  else if differs b.controlSha256 (some cert.controlSha256) then pure false
  else if differs b.crossCheckSha256 cert.crossCheckSha256 then pure false
  else compareDigest cert.mac (host.hmacSha256 key (canonical cert.fields))

end L0vi0x.Core.Certificates
