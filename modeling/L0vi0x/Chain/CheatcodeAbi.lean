import L0vi0x.Core.Models

/-! The selectors of Foundry's cheatcodes and the decoder for their calldata.
Selectors are computed from the signatures, as the table in the program is. -/
namespace L0vi0x.Chain

open L0vi0x.Python

def cheatcodeAddress : String := "0x7109709ecfa91a80626ff3989d68f67f5b1dd12d"

inductive AbiType
  | address
  | bool
  | uint (bits : Nat)
  | int (bits : Nat)
  | fixedBytes (size : Nat)
  | text
  | bytes
  | array (element : AbiType)
  deriving DecidableEq, Repr

def AbiType.name : AbiType → String
  | .address => "address"
  | .bool => "bool"
  | .uint bits => "uint" ++ String.ofList (Nat.toDigits 10 bits)
  | .int bits => "int" ++ String.ofList (Nat.toDigits 10 bits)
  | .fixedBytes size => "bytes" ++ String.ofList (Nat.toDigits 10 size)
  | .text => "string"
  | .bytes => "bytes"
  | .array element => element.name ++ "[]"

/-- A function or event signature: its name and the types of its arguments. -/
structure Signature where
  name : String
  types : List AbiType

def Signature.text (s : Signature) : String :=
  s.name ++ "(" ++ joinText "," (s.types.map AbiType.name) ++ ")"

/-- The argument lists of `prank` and `startPrank`. -/
def prankForms : List (List AbiType) :=
  [[.address], [.address, .address], [.address, .bool], [.address, .address, .bool]]

/-- `_SIGNATURES`: the argument lists that each cheatcode name stands for. -/
def signatures : List (String × List (List AbiType)) :=
  [("warp", [[.uint 256]]), ("roll", [[.uint 256]]), ("deal", [[.address, .uint 256]]),
    ("prank", prankForms), ("startPrank", prankForms), ("stopPrank", [[]]),
    ("etch", [[.address, .bytes]]), ("store", [[.address, .fixedBytes 32, .fixedBytes 32]]),
    ("load", [[.address, .fixedBytes 32]]), ("label", [[.address, .text]]),
    ("expectRevert", [[], [.fixedBytes 4], [.bytes]]),
    ("expectEmit", [[], [.address], [.bool, .bool, .bool, .bool],
      [.bool, .bool, .bool, .bool, .address]]),
    ("assume", [[.bool]]), ("ffi", [[.array .text]]), ("readFile", [[.text]]),
    ("writeFile", [[.text, .text]]), ("setEnv", [[.text, .text]]),
    ("createSelectFork", [[.text], [.text, .uint 256], [.text, .fixedBytes 32]]),
    ("deployCode", [[.bytes], [.bytes, .uint 256], [.text], [.text, .uint 256]]),
    ("createFork", [[.text], [.text, .uint 256], [.text, .fixedBytes 32]]),
    ("selectFork", [[.uint 256]]), ("envString", [[.text], [.text, .text]]),
    ("skip", [[.uint 256], [.bool], [.bool, .text]]), ("rewind", [[.uint 256]]),
    ("chainId", [[.uint 256]]), ("coinbase", [[.address]]),
    ("prevrandao", [[.fixedBytes 32], [.uint 256]]), ("fee", [[.uint 256]]),
    ("txGasPrice", [[.uint 256]]), ("mockCall", [[.address, .bytes, .bytes]]),
    ("setNonce", [[.address, .uint 64]]), ("sign", [[.uint 256, .fixedBytes 32]]),
    ("makePersistent", [[.address]])]

def selectorOf (host : Host) (s : Signature) : String :=
  "0x" ++ hexOfBytes ((host.keccak (encodeUtf8 s.text)).take 4)

/-- Every signature of the table in order. -/
def allSignatures : List Signature :=
  signatures.flatMap fun (name, forms) => forms.map (Signature.mk name)

def selectorTable (host : Host) (selector : String) : Option Signature :=
  allSignatures.find? fun s => selectorOf host s = selector

def nameForSelector (host : Host) (selector : Option String) : String :=
  match selector with
  | none => "unknown"
  | some s =>
      if s = "" then "unknown"
      else match selectorTable host (lower s) with
        | some entry => entry.name
        | none => "unknown_" ++ lower s

/-- `int.from_bytes(word, "big")`. -/
def natOfBytes (word : Bytes) : Nat := word.foldl (fun n b => 256 * n + b.toNat) 0

/-- `int.from_bytes(word, "big", signed=True)`. -/
def intOfBytes (word : Bytes) : Int :=
  let n := natOfBytes word
  if 2 * n < 256 ^ word.length then n else (n : Int) - 256 ^ word.length

def wordAt (data : Bytes) (offset : Nat) : Py Bytes :=
  if offset + 32 > data.length then raise .cheatcodeDecodeError "calldata is truncated"
  else pure ((data.drop offset).take 32)

def decodeStatic (kind : AbiType) (word : Bytes) : Py Json :=
  match kind with
  | .address =>
      if (word.take 12).any (· ≠ 0) then
        raise .cheatcodeDecodeError "address argument has non-zero high bytes"
      else pure (.str ("0x" ++ hexOfBytes (word.drop 12)))
  | .bool =>
      let value := natOfBytes word
      if value = 0 then pure (.bool false)
      else if value = 1 then pure (.bool true)
      else raise .cheatcodeDecodeError "bool argument is not 0 or 1"
  | .uint bits =>
      let value := natOfBytes word
      if value / 2 ^ bits ≠ 0 then
        raise .cheatcodeDecodeError (kind.name ++ " argument overflows its width")
      else pure (.int value)
  | .int bits =>
      let value := intOfBytes word
      if -(2 ^ (bits - 1) : Int) ≤ value ∧ value < 2 ^ (bits - 1) then pure (.int value)
      else raise .cheatcodeDecodeError (kind.name ++ " argument overflows its width")
  | .fixedBytes size =>
      if ¬ (1 ≤ size ∧ size ≤ 32) ∨ (word.drop size).any (· ≠ 0) then
        raise .cheatcodeDecodeError (kind.name ++ " argument has non-zero padding")
      else pure (.str ("0x" ++ hexOfBytes (word.take size)))
  | _ => raise .cheatcodeDecodeError ("unsupported static type " ++ kind.name)

def decodeDynamic (kind : AbiType) (data head : Bytes) : Py Json := do
  let offset := natOfBytes head
  let length := natOfBytes (← wordAt data offset)
  let first := offset + 32
  if first + length > data.length then
    raise .cheatcodeDecodeError "dynamic argument is truncated"
  else
    let raw := (data.drop first).take length
    pure (.str (if kind = .text then decodeUtf8Replace raw else "0x" ++ hexOfBytes raw))

/-- One argument, whose head word is the `index`-th of the body. -/
def decodeArgument (kind : AbiType) (body : Bytes) (index : Nat) : Py Json := do
  let head ← wordAt body (32 * index)
  match kind with
  | .text | .bytes => decodeDynamic kind body head
  | .array _ => pure .null
  | _ => decodeStatic kind head

/-- `decode_abi_arguments(types, body)` from the `index`-th argument on. -/
def decodeFrom (body : Bytes) : Nat → List AbiType → Py (List Json)
  | _, [] => pure []
  | index, kind :: rest => do
      let first ← decodeArgument kind body index
      let more ← decodeFrom body (index + 1) rest
      pure (first :: more)

def decodeAbiArguments (types : List AbiType) (body : Bytes) : Py (List Json) :=
  decodeFrom body 0 types

structure DecodedCheatcode where
  name : String
  selector : String
  signature : Option String
  args : Option (List Json)

/-- Decode calldata sent to the cheatcode address. -/
def decodeCheatcode (host : Host) (calldata : String) : Py DecodedCheatcode := do
  let text := lower (if calldata = "" then "0x" else calldata)
  raiseIf (!startsWith text "0x") .cheatcodeDecodeError "calldata must be 0x-prefixed hex"
  match bytesOfHex? (dropText text 2) with
  | none => raise .cheatcodeDecodeError "calldata is not valid hex"
  | some raw =>
      if raw.length < 4 then pure ⟨"unknown", "0x", none, none⟩
      else
        let selector := "0x" ++ hexOfBytes (raw.take 4)
        match selectorTable host selector with
        | none => pure ⟨"unknown_" ++ selector, selector, none, none⟩
        | some entry =>
            let args ← decodeAbiArguments entry.types (raw.drop 4)
            pure ⟨entry.name, selector, some entry.text, some args⟩

end L0vi0x.Chain
