import L0vi0x.Python.Text

/-! `urlsplit` and `b64decode(validate=True)`. What rests on Unicode tables is a
parameter: letter case, and the hosts that `urlsplit` looks up before it returns. -/
namespace L0vi0x.Python

/-- `str.lower`, and the texts between `//` and the path that `urlsplit` refuses after
its own tests: a wrong address between brackets, or a host that is equivalent to one
with a delimiter. -/
structure UnicodeTables where
  lower : String → String
  refusesHost : String → Bool

/-- The tables for texts that are ASCII and have no brackets. -/
def UnicodeTables.ascii : UnicodeTables := ⟨Python.lower, fun _ => false⟩

section Urls

/-- `text.partition(c)[2]`. -/
def afterFirst (c : Char) (cs : List Char) : List Char := (cs.dropWhile (· ≠ c)).tail

/-- `text.rpartition(c)[2]`. -/
def afterLast (c : Char) (cs : List Char) : List Char := (cs.reverse.takeWhile (· ≠ c)).reverse

structure SplitUrl where
  scheme : String
  netloc : String
  path : String
  query : String
  fragment : String
  deriving DecidableEq

def isSchemeChar (c : Char) : Bool := c.isAlphanum || c == '+' || c == '-' || c == '.'

/-- The scheme of a url and the rest behind its colon. -/
def splitScheme (cs : List Char) : List Char × List Char :=
  let front := cs.takeWhile (· ≠ ':')
  match front, cs.dropWhile (· ≠ ':') with
  | c :: _, _ :: rest =>
      if c.isAlpha && front.all isSchemeChar then (front.map Char.toLower, rest) else ([], cs)
  | _, _ => ([], cs)

/-- `url[:2] == "//"`, and the two parts around the end of the host. -/
def splitNetloc : List Char → List Char × List Char
  | '/' :: '/' :: rest =>
      let inside := fun c => c ≠ '/' && c ≠ '?' && c ≠ '#'
      (rest.takeWhile inside, rest.dropWhile inside)
  | cs => ([], cs)

/-- The characters that `urlsplit` works on. -/
def cleanUrl (s : String) : List Char :=
  (s.toList.dropWhile fun c => c.toNat ≤ 32).filter fun c => c ≠ '\t' && c ≠ '\r' && c ≠ '\n'

def urlsplit (tables : UnicodeTables) (url : String) : Py SplitUrl :=
  let (scheme, rest) := splitScheme (cleanUrl url)
  let (netloc, rest) := splitNetloc rest
  if netloc.contains '[' ≠ netloc.contains ']' then raise .valueError "Invalid IPv6 URL"
  else if tables.refusesHost (String.ofList netloc) then raise .valueError "Invalid URL host"
  else
    let before := rest.takeWhile (· ≠ '#')
    pure ⟨String.ofList scheme, String.ofList netloc, String.ofList (before.takeWhile (· ≠ '?')),
      String.ofList (afterFirst '?' before), String.ofList (afterFirst '#' rest)⟩

namespace SplitUrl

def hostInfo (parts : SplitUrl) : List Char × List Char :=
  let info := afterLast '@' parts.netloc.toList
  if info.contains '[' then
    let bracketed := afterFirst '[' info
    (bracketed.takeWhile (· ≠ ']'), afterFirst ':' (afterFirst ']' bracketed))
  else (info.takeWhile (· ≠ ':'), afterFirst ':' info)

/-- `parts.hostname or ""`; the zone of an address keeps its case. -/
def hostname (tables : UnicodeTables) (parts : SplitUrl) : String :=
  let host := parts.hostInfo.1
  tables.lower (String.ofList (host.takeWhile (· ≠ '%'))) ++ String.ofList (host.dropWhile (· ≠ '%'))

def port (parts : SplitUrl) : Py (Option Nat) :=
  let digits := parts.hostInfo.2
  if digits.isEmpty then pure none
  else if digits.all Char.isDigit then
    let n := Nat.ofDigitChars 10 digits 0
    if n ≤ 65535 then pure (some n) else raise .valueError "Port out of range 0-65535"
  else raise .valueError "Port could not be cast to integer value"

/-- `f":{port}"` where there is a port. -/
def portText : Option Nat → String
  | some n => ":" ++ toString n
  | none => ""

end SplitUrl

/-- The url type that `Request(url)` reads, which is there when a colon comes before any
slash and after something. -/
def urlType? (url : String) : Option String :=
  let cs := stripChars isSpace url.toList
  let cs := match cs, cs.getLast? with
    | '<' :: rest, some '>' => stripChars isSpace rest.dropLast
    | _, _ => cs
  let cs := match cs with
    | 'U' :: 'R' :: 'L' :: ':' :: rest => stripChars isSpace rest
    | _ => cs
  let cs := if cs.contains '#' then (cs.reverse.dropWhile (· ≠ '#')).tail.reverse else cs
  let front := cs.takeWhile fun c => c ≠ '/' && c ≠ ':'
  match front, cs.drop front.length with
  | c :: _, ':' :: _ => some (String.ofList ((c :: front.tail).map Char.toLower))
  | _, _ => none

end Urls

section Base64

def base64Value? (c : Char) : Option Nat :=
  if c.isUpper then some (c.toNat - 65)
  else if c.isLower then some (c.toNat - 71)
  else if c.isDigit then some (c.toNat + 4)
  else if c = '+' then some 62
  else if c = '/' then some 63
  else none

/-- What is left to do inside a group of four characters: how many were read, their
bits that are not written yet, and the padding seen. -/
structure Base64Group where
  seen : Nat := 0
  left : Nat := 0
  pads : Nat := 0
  padded : Bool := false

/-- The strict loop of `a2b_base64`. -/
def base64From : List Char → Base64Group → Option Bytes
  | [], group => if group.seen = 0 then some [] else none
  | '=' :: rest, group =>
      if 2 ≤ group.seen ∧ 4 ≤ group.seen + group.pads + 1 then
        if rest.isEmpty then some [] else none
      else base64From rest { group with
        padded := true, pads := if 2 ≤ group.seen then group.pads + 1 else group.pads }
  | c :: rest, group =>
      match base64Value? c, group.padded, group.seen with
      | some value, false, 0 => base64From rest ⟨1, value, 0, false⟩
      | some value, false, 1 =>
          (base64From rest ⟨2, value % 16, 0, false⟩).map fun more =>
            UInt8.ofNat (group.left * 4 + value / 16) :: more
      | some value, false, 2 =>
          (base64From rest ⟨3, value % 4, 0, false⟩).map fun more =>
            UInt8.ofNat (group.left * 16 + value / 4) :: more
      | some value, false, _ =>
          (base64From rest {}).map fun more => UInt8.ofNat (group.left * 64 + value) :: more
      | _, _, _ => none

/-- `base64.b64decode(text, validate=True)`. -/
def b64decode? (s : String) : Option Bytes :=
  if s.toList.head? = some '=' then none else base64From s.toList {}

def base64Char (n : Nat) : Char :=
  if n < 26 then Char.ofNat (65 + n)
  else if n < 52 then Char.ofNat (71 + n)
  else if n < 62 then Char.ofNat (n - 4)
  else if n = 62 then '+'
  else '/'

def base64Chars : Bytes → List Char
  | [] => []
  | [a] => [base64Char (a.toNat / 4), base64Char (a.toNat % 4 * 16), '=', '=']
  | [a, b] =>
      [base64Char (a.toNat / 4), base64Char (a.toNat % 4 * 16 + b.toNat / 16),
        base64Char (b.toNat % 16 * 4), '=']
  | a :: b :: c :: rest =>
      base64Char (a.toNat / 4) :: base64Char (a.toNat % 4 * 16 + b.toNat / 16) ::
        base64Char (b.toNat % 16 * 4 + c.toNat / 64) :: base64Char (c.toNat % 64) ::
        base64Chars rest

def b64encode (raw : Bytes) : String := String.ofList (base64Chars raw)

/-- A digit to the base 64 is read back. -/
theorem base64Value?_base64Char : ∀ n < 64, base64Value? (base64Char n) = some n := by decide

theorem base64Char_ne_pad : ∀ n < 64, base64Char n ≠ '=' := by decide

/-- One more character of a group. -/
theorem base64From_char {n : Nat} (h : n < 64) (rest : List Char) (seen left : Nat) :
    base64From (base64Char n :: rest) ⟨seen, left, 0, false⟩ = match seen with
      | 0 => base64From rest ⟨1, n, 0, false⟩
      | 1 => (base64From rest ⟨2, n % 16, 0, false⟩).map fun more =>
          UInt8.ofNat (left * 4 + n / 16) :: more
      | 2 => (base64From rest ⟨3, n % 4, 0, false⟩).map fun more =>
          UInt8.ofNat (left * 16 + n / 4) :: more
      | _ => (base64From rest {}).map fun more => UInt8.ofNat (left * 64 + n) :: more := by
  have hPad := base64Char_ne_pad n h
  rw [base64From.eq_3 _ _ _ hPad, base64Value?_base64Char n h]
  rcases seen with _ | _ | _ | seen <;> rfl

theorem ofNat_eq {a : UInt8} {n : Nat} (h : n = a.toNat) : UInt8.ofNat n = a := by
  rw [h, UInt8.ofNat_toNat]

/-- What was encoded is decoded again. -/
theorem base64From_base64Chars (raw : Bytes) : base64From (base64Chars raw) {} = some raw := by
  induction raw using base64Chars.induct with
  | case1 => rfl
  | case2 a =>
      have ha := a.toNat_lt
      have h₁ : a.toNat / 4 < 64 := by omega
      have h₂ : a.toNat % 4 * 16 < 64 := by omega
      have hByte : UInt8.ofNat (a.toNat / 4 * 4 + a.toNat % 4 * 16 / 16) = a := ofNat_eq (by omega)
      simp only [base64Chars, base64From_char h₁, base64From_char h₂, hByte]
      rfl
  | case3 a b =>
      have ha := a.toNat_lt
      have hb := b.toNat_lt
      have h₁ : a.toNat / 4 < 64 := by omega
      have h₂ : a.toNat % 4 * 16 + b.toNat / 16 < 64 := by omega
      have h₃ : b.toNat % 16 * 4 < 64 := by omega
      have hFirst : UInt8.ofNat (a.toNat / 4 * 4 + (a.toNat % 4 * 16 + b.toNat / 16) / 16) = a :=
        ofNat_eq (by omega)
      have hSecond : UInt8.ofNat ((a.toNat % 4 * 16 + b.toNat / 16) % 16 * 16 +
          b.toNat % 16 * 4 / 4) = b := ofNat_eq (by omega)
      simp only [base64Chars, base64From_char h₁, base64From_char h₂, base64From_char h₃, hFirst,
        hSecond]
      rfl
  | case4 a b c rest ih =>
      have ha := a.toNat_lt
      have hb := b.toNat_lt
      have hc := c.toNat_lt
      have h₁ : a.toNat / 4 < 64 := by omega
      have h₂ : a.toNat % 4 * 16 + b.toNat / 16 < 64 := by omega
      have h₃ : b.toNat % 16 * 4 + c.toNat / 64 < 64 := by omega
      have h₄ : c.toNat % 64 < 64 := by omega
      have hFirst : UInt8.ofNat (a.toNat / 4 * 4 + (a.toNat % 4 * 16 + b.toNat / 16) / 16) = a :=
        ofNat_eq (by omega)
      have hSecond : UInt8.ofNat ((a.toNat % 4 * 16 + b.toNat / 16) % 16 * 16 +
          (b.toNat % 16 * 4 + c.toNat / 64) / 4) = b := ofNat_eq (by omega)
      have hThird : UInt8.ofNat ((b.toNat % 16 * 4 + c.toNat / 64) % 4 * 64 + c.toNat % 64) = c :=
        ofNat_eq (by omega)
      simp only [base64Chars, base64From_char h₁, base64From_char h₂, base64From_char h₃,
        base64From_char h₄, hFirst, hSecond, hThird, ih, Option.map_some]

/-- Bytes are decoded from their encoding. -/
theorem b64decode?_b64encode (raw : Bytes) : b64decode? (b64encode raw) = some raw := by
  have hHead : (base64Chars raw).head? ≠ some '=' := by
    match raw with
    | [] => simp [base64Chars]
    | [a] => simpa [base64Chars] using base64Char_ne_pad _ (by have := a.toNat_lt; omega)
    | [a, b] => simpa [base64Chars] using base64Char_ne_pad _ (by have := a.toNat_lt; omega)
    | a :: b :: c :: rest =>
        simpa [base64Chars] using base64Char_ne_pad _ (by have := a.toNat_lt; omega)
  rw [b64decode?, b64encode, String.toList_ofList, if_neg hHead, base64From_base64Chars]

example : b64decode? "dTpw" = some [117, 58, 112] := by decide
example : b64decode? "dTo" = none := by decide

end Base64
end L0vi0x.Python
