import L0vi0x.Chain.Trace

/-! The digests that identify a witness, its environment and its harness. -/
namespace L0vi0x.Chain

open L0vi0x.Python L0vi0x.Core

def sha256File (host : Host) (fs : FileSystem) (p : Path) : Py String :=
  host.sha256 <$> fs.readBytes p

/-- `witness_hash(witness)`: the digest of every field but `env_hash`. -/
def witnessHash (host : Host) (w : Witness) : String :=
  host.sha256Text (Json.obj (eraseField "env_hash" w.dump)).dumps

/-- The position of the first occurrence of a text. -/
def findText (needle : List Char) : List Char → Option Nat
  | [] => if needle = [] then some 0 else none
  | c :: rest =>
      if needle.isPrefixOf (c :: rest) then some 0
      else (findText needle rest).map (· + 1)

def markedRegionSha256 (host : Host) (text marker : String) : Py String :=
  let cs := text.toList
  let opening := ("// BEGIN " ++ marker).toList
  match findText opening cs, findText ("// END " ++ marker).toList cs with
  | some first, some finish =>
      if finish ≤ first then raise .valueError ("missing or invalid marked region: " ++ marker)
      else
        let start := first + opening.length
        pure (host.sha256Text (String.ofList ((cs.take finish).drop start)))
  | _, _ => raise .valueError ("missing or invalid marked region: " ++ marker)

def unprefixed (s : String) : String := if startsWith s "0x" then dropText s 2 else s

def hexAddress (s : String) : Py Bytes := do
  let text := unprefixed s
  raiseIf (text.toList.length ≠ 40) .valueError "address must be 20 bytes"
  bytesOfHex text

def hexBytes (s : String) (size : Nat) : Py Bytes := do
  let raw ← bytesOfHex (unprefixed s)
  raiseIf (raw.length ≠ size) .valueError ("value must be " ++ decimalNat size ++ " bytes")
  pure raw
where
  decimalNat (n : Nat) : String := String.ofList (Nat.toDigits 10 n)

def create2Address (host : Host) (deployer salt : String) (initCode : Bytes) : Py String := do
  let deployerBytes ← hexAddress deployer
  let saltBytes ← hexBytes salt 32
  let digest := host.keccak (0xff :: deployerBytes ++ saltBytes ++ host.keccak initCode)
  pure ("0x" ++ hexOfBytes (digest.drop (digest.length - 20)))

def assertHarnessAddress (host : Host) (deployer salt : String) (initCode : Bytes)
    (expected : String) : Py String := do
  let actual ← create2Address host deployer salt initCode
  raiseIf (lower actual ≠ lower expected) .valueError
    ("harness address mismatch: " ++ actual ++ " != " ++ expected)
  pure actual

end L0vi0x.Chain
