import L0vi0x.Core.Certificates

namespace L0vi0x.Core

open L0vi0x.Python

/-- The capability that the driver mints: its fields and their MAC. -/
structure DriverToken where
  driverId : String
  humanOverride : Bool
  mac : String
  deriving DecidableEq, Repr

/-- What the MAC of a token covers. -/
def DriverToken.payload (token : DriverToken) : Bytes :=
  encodeUtf8 (token.driverId ++ "|" ++ if token.humanOverride then "1" else "0")

/-- `token.is_valid()`, under the secret of the process. -/
def DriverToken.isValid (host : Host) (secret : Bytes) (token : DriverToken) : Py Bool :=
  Certificates.compareDigest token.mac (host.hmacSha256 secret token.payload)

/-- `not isinstance(token, DriverToken) or not token.is_valid()`, negated; any
other object is `none`. -/
def validToken (host : Host) (secret : Bytes) : Option DriverToken → Py Bool
  | none => pure false
  | some token => token.isValid host secret

end L0vi0x.Core
