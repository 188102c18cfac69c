import L0vi0x.Python.Json

/-! JSON texts. `dumps` is `json.dumps(value, sort_keys=True,
separators=(",", ":"))` with its ASCII escapes, `loads` is `json.loads`; the
digests of the verifier are taken over texts that `dumps` wrote. -/
namespace L0vi0x.Python.Json

/-- `\uXXXX` for one UTF-16 code unit. -/
def escapeUnit (n : Nat) : List Char :=
  ['\\', 'u', hexDigit (n / 4096 % 16), hexDigit (n / 256 % 16), hexDigit (n / 16 % 16),
    hexDigit (n % 16)]

/-- One character inside a JSON text; above the basic plane as two surrogates. -/
def escapeChar (c : Char) : List Char :=
  if c = '"' then ['\\', '"']
  else if c = '\\' then ['\\', '\\']
  else if c = '\n' then ['\\', 'n']
  else if c = '\r' then ['\\', 'r']
  else if c = '\t' then ['\\', 't']
  else if c.toNat = 8 then ['\\', 'b']
  else if c.toNat = 12 then ['\\', 'f']
  else if 32 ≤ c.toNat ∧ c.toNat ≤ 126 then [c]
  else if c.toNat < 65536 then escapeUnit c.toNat
  else escapeUnit (55296 + (c.toNat - 65536) / 1024) ++ escapeUnit (56320 + (c.toNat - 65536) % 1024)

def emitText (s : String) : List Char := '"' :: (s.toList.flatMap escapeChar ++ ['"'])

def emitFloat : PyFloat → List Char
  | .nan => "NaN".toList
  | .inf false => "Infinity".toList
  | .inf true => "-Infinity".toList
  | .finite x => render x.negative x.magnitude

mutual
def emit : Json → List Char
  | .null => "null".toList
  | .bool b => if b then "true".toList else "false".toList
  | .int i => intText i
  | .float x => emitFloat x
  | .str s => emitText s
  | .arr items => '[' :: emitItems items
  | .obj fields => '{' :: emitFields fields

/-- The items of an array, up to its closing bracket. -/
def emitItems : List Json → List Char
  | [] => [']']
  | j :: rest => emit j ++ emitMoreItems rest

def emitMoreItems : List Json → List Char
  | [] => [']']
  | j :: rest => ',' :: emit j ++ emitMoreItems rest

/-- The fields of an object, up to its closing brace. -/
def emitFields : Fields → List Char
  | [] => ['}']
  | (k, v) :: rest => emitText k ++ ':' :: emit v ++ emitMoreFields rest

def emitMoreFields : Fields → List Char
  | [] => ['}']
  | (k, v) :: rest => ',' :: emitText k ++ ':' :: emit v ++ emitMoreFields rest
end

def dumps (j : Json) : String := String.ofList (emit j)

mutual
/-- The text of `json.dumps(value, sort_keys=True)`, with a space after each comma
and colon. -/
def emitSpaced : Json → List Char
  | .arr items => '[' :: emitSpacedItems items
  | .obj fields => '{' :: emitSpacedFields fields
  | .null => emit .null
  | .bool b => emit (.bool b)
  | .int i => emit (.int i)
  | .float x => emit (.float x)
  | .str s => emit (.str s)

def emitSpacedItems : List Json → List Char
  | [] => [']']
  | [j] => emitSpaced j ++ [']']
  | j :: rest => emitSpaced j ++ ',' :: ' ' :: emitSpacedItems rest

def emitSpacedFields : Fields → List Char
  | [] => ['}']
  | [(k, v)] => emitText k ++ ':' :: ' ' :: emitSpaced v ++ ['}']
  | (k, v) :: rest =>
      emitText k ++ ':' :: ' ' :: emitSpaced v ++ ',' :: ' ' :: emitSpacedFields rest
end

def dumpsSpaced (j : Json) : String := String.ofList (emitSpaced j)

def isJsonSpace (c : Char) : Bool := c == ' ' || c == '\n' || c == '\r' || c == '\t'

def skipSpace (cs : List Char) : List Char := cs.dropWhile isJsonSpace

def readUnit : List Char → Option (Nat × List Char)
  | a :: b :: c :: d :: rest => do
      let a ← hexValue? a
      let b ← hexValue? b
      let c ← hexValue? c
      let d ← hexValue? d
      some (4096 * a + 256 * b + 16 * c + d, rest)
  | _ => none

/-- A code point written as one `\u` escape or as a pair of surrogates. A lone
surrogate, which no Lean text can hold, is refused. -/
def readEscape (cs : List Char) : Option (Char × List Char) := do
  let (high, rest) ← readUnit cs
  if 55296 ≤ high ∧ high ≤ 56319 then
    match rest with
    | '\\' :: 'u' :: more =>
        let (low, tail) ← readUnit more
        if 56320 ≤ low ∧ low ≤ 57343 then
          some (Char.ofNat (65536 + (high - 55296) * 1024 + (low - 56320)), tail)
        else none
    | _ => none
  else if 56320 ≤ high ∧ high ≤ 57343 then none
  else some (Char.ofNat high, rest)

/-- One character of a JSON text; raw control characters are refused. -/
def readChar : List Char → Option (Char × List Char)
  | '\\' :: '"' :: rest => some ('"', rest)
  | '\\' :: '\\' :: rest => some ('\\', rest)
  | '\\' :: '/' :: rest => some ('/', rest)
  | '\\' :: 'b' :: rest => some (Char.ofNat 8, rest)
  | '\\' :: 'f' :: rest => some (Char.ofNat 12, rest)
  | '\\' :: 'n' :: rest => some ('\n', rest)
  | '\\' :: 'r' :: rest => some ('\r', rest)
  | '\\' :: 't' :: rest => some ('\t', rest)
  | '\\' :: 'u' :: rest => readEscape rest
  | '\\' :: _ => none
  | c :: rest => if c.toNat < 32 then none else some (c, rest)
  | [] => none

/-- The characters up to the closing quote. -/
def readText : Nat → List Char → Option (List Char × List Char)
  | 0, _ => none
  | _ + 1, '"' :: rest => some ([], rest)
  | fuel + 1, cs => do
      let (c, rest) ← readChar cs
      let (more, tail) ← readText fuel rest
      some (c :: more, tail)

/-- A float token; beyond the largest float it denotes infinity. -/
def readFloat (token : List Char) : Option PyFloat :=
  match readFinite token with
  | some (negative, magnitude) =>
      if h : readFinite (render negative magnitude) = some (negative, magnitude) ∧
          (render negative magnitude).all isNumberChar = true then
        some (.finite ⟨negative, magnitude, FiniteFloat.reads_of h, FiniteFloat.shape_of h⟩)
      else none
  | none =>
      let (negative, body) := splitSign token
      if body.all Char.isDigit then none
      else (readDecimal true body).map fun _ => .inf negative

/-- A number token: digits alone, without a leading zero, are an integer. -/
def readNumber (token : List Char) : Option Json :=
  let (negative, body) := splitSign token
  let n := Nat.ofDigitChars 10 body 0
  if body.all Char.isDigit then
    if Nat.toDigits 10 n = body then some (.int (if negative then -(n : Int) else n)) else none
  else (readFloat token).map .float

mutual
/-- One value; every nested call has less fuel, and the length of the text is
enough. -/
def readValue : Nat → List Char → Option (Json × List Char)
  | 0, _ => none
  | fuel + 1, cs =>
      match cs with
      | '"' :: rest => (readText (fuel + 1) rest).map fun (s, tail) => (.str (String.ofList s), tail)
      | '{' :: rest => match skipSpace rest with
          | '}' :: tail => some (.obj [], tail)
          | more => (readFields fuel more).map fun (fields, tail) => (.obj (dictOf fields), tail)
      | '[' :: rest => match skipSpace rest with
          | ']' :: tail => some (.arr [], tail)
          | more => (readItems fuel more).map fun (items, tail) => (.arr items, tail)
      | 'n' :: 'u' :: 'l' :: 'l' :: rest => some (.null, rest)
      | 't' :: 'r' :: 'u' :: 'e' :: rest => some (.bool true, rest)
      | 'f' :: 'a' :: 'l' :: 's' :: 'e' :: rest => some (.bool false, rest)
      | 'N' :: 'a' :: 'N' :: rest => some (.float .nan, rest)
      | 'I' :: 'n' :: 'f' :: 'i' :: 'n' :: 'i' :: 't' :: 'y' :: rest =>
          some (.float (.inf false), rest)
      | '-' :: 'I' :: 'n' :: 'f' :: 'i' :: 'n' :: 'i' :: 't' :: 'y' :: rest =>
          some (.float (.inf true), rest)
      | cs => (readNumber (cs.takeWhile isNumberChar)).map fun j =>
          (j, cs.dropWhile isNumberChar)

def readItems : Nat → List Char → Option (List Json × List Char)
  | 0, _ => none
  | fuel + 1, cs => do
      let (j, rest) ← readValue fuel cs
      match skipSpace rest with
      | ']' :: tail => some ([j], tail)
      | ',' :: more =>
          let (items, tail) ← readItems fuel (skipSpace more)
          some (j :: items, tail)
      | _ => none

def readFields : Nat → List Char → Option (Fields × List Char)
  | 0, _ => none
  | fuel + 1, cs => do
      match cs with
      | '"' :: more =>
          let (k, rest) ← readText (fuel + 1) more
          match skipSpace rest with
          | ':' :: more =>
              let (v, rest) ← readValue fuel (skipSpace more)
              match skipSpace rest with
              | '}' :: tail => some ([(String.ofList k, v)], tail)
              | ',' :: more =>
                  let (fields, tail) ← readFields fuel (skipSpace more)
                  some ((String.ofList k, v) :: fields, tail)
              | _ => none
          | _ => none
      | _ => none
end

def loads (s : String) : Py Json :=
  let cs := skipSpace s.toList
  match readValue (cs.length + 1) cs with
  | some (j, rest) =>
      if skipSpace rest = [] then pure j else raise .jsonDecodeError "Extra data"
  | none => raise .jsonDecodeError "Expecting value"

end L0vi0x.Python.Json
