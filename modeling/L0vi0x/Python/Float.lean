import Mathlib.Algebra.Field.Rat
import L0vi0x.Python.Text

/-! Binary64 floats by their exact values. A finite float is a sign and a
magnitude whose shortest decimal text reads back as the same float; that is
the text `repr` gives and the text JSON carries. -/
namespace L0vi0x.Python

def pow2 : Int → ℚ
  | .ofNat k => ((2 ^ k : Nat) : ℚ)
  | .negSucc k => mkRat 1 (2 ^ (k + 1))

def pow10 : Int → ℚ
  | .ofNat k => ((10 ^ k : Nat) : ℚ)
  | .negSucc k => mkRat 1 (10 ^ (k + 1))

/-- Round a non-negative rational to an integer, halves to even. -/
def roundHalfEven (q : ℚ) : Nat :=
  let whole := q.num.toNat / q.den
  let rest := q.num.toNat % q.den
  if 2 * rest < q.den then whole
  else if q.den < 2 * rest then whole + 1
  else if whole % 2 = 0 then whole else whole + 1

/-- The binary64 value nearest to a non-negative rational; `none` is overflow
to infinity. Subnormals keep the exponent -1074. -/
def roundDouble (q : ℚ) : Option ℚ :=
  if q = 0 then some 0
  else
    let guess : Int := (Nat.log2 q.num.toNat : Int) - Nat.log2 q.den
    let top := if q < pow2 guess then guess - 1 else guess
    let e := max (top - 52) (-1074)
    let rounded := (roundHalfEven (q * pow2 (-e)) : ℚ) * pow2 e
    if rounded < pow2 1024 then some rounded else none

def decimalDigits (n : Nat) : Nat := (Nat.toDigits 10 n).length

/-- The `k` with `10 ** (k-1) <= q < 10 ** k`, for a positive `q`. -/
def decimalPoint (q : ℚ) : Int :=
  let guess : Int := (decimalDigits q.num.toNat : Int) - decimalDigits q.den
  if q < pow10 guess then guess else guess + 1

/-- The `n`-digit decimal nearest to `q`, as digits and decimal point. -/
def nearestDecimal (q : ℚ) (n : Nat) : Nat × Int :=
  let k := decimalPoint q
  let digits := roundHalfEven (q * pow10 (n - k))
  if digits < 10 ^ n then (digits, k) else (10 ^ (n - 1), k + 1)

/-- The shortest decimal that rounds to `q`, with at most 17 digits. -/
def shortestDecimal (q : ℚ) : Nat × Int :=
  let candidates := (List.range 17).map fun i => (i + 1, nearestDecimal q (i + 1))
  let reads := fun (c : Nat × Nat × Int) =>
    roundDouble ((c.2.1 : ℚ) * pow10 (c.2.2 - c.1)) == some q
  ((candidates.find? reads).map Prod.snd).getD (nearestDecimal q 17)

/-- The digits `repr` shows: fixed notation for moderate exponents. -/
def renderMagnitude (q : ℚ) : List Char :=
  if q = 0 then "0.0".toList
  else
    let (number, point) := shortestDecimal q
    let digits := Nat.toDigits 10 number
    let count : Int := digits.length
    if -4 < point ∧ point ≤ 16 then
      if point ≤ 0 then "0.".toList ++ List.replicate (-point).toNat '0' ++ digits
      else if count ≤ point then
        digits ++ List.replicate (point - count).toNat '0' ++ ".0".toList
      else digits.take point.toNat ++ '.' :: digits.drop point.toNat
    else
      let e := point - 1
      let mantissa := match digits with
        | [] => []
        | [d] => [d]
        | d :: more => d :: '.' :: more
      let size := Nat.toDigits 10 e.natAbs
      mantissa ++ 'e' :: (if e < 0 then '-' else '+') ::
        (if size.length < 2 then '0' :: size else size)

def render (negative : Bool) (magnitude : ℚ) : List Char :=
  if negative then '-' :: renderMagnitude magnitude else renderMagnitude magnitude

/-- The exponent part of a decimal text, up to its end. -/
def readExponent : List Char → Option Int
  | [] => some 0
  | c :: rest =>
      if c = 'e' ∨ c = 'E' then
        let (negative, ds) := match rest with
          | '-' :: ds => (true, ds)
          | '+' :: ds => (false, ds)
          | ds => (false, ds)
        if ds ≠ [] ∧ ds.all Char.isDigit then
          let e : Int := Nat.ofDigitChars 10 ds 0
          some (if negative then -e else e)
        else none
      else none

/-- An unsigned decimal text as digits and exponent. JSON (`strict`) wants a
digit on both sides of the point and no leading zero. -/
def readDecimal (strict : Bool) (cs : List Char) : Option (Nat × Int) :=
  let whole := cs.takeWhile Char.isDigit
  let rest := cs.dropWhile Char.isDigit
  let (frac, tail, pointed) := match rest with
    | '.' :: more => (more.takeWhile Char.isDigit, more.dropWhile Char.isDigit, true)
    | _ => ([], rest, false)
  let wholeOk := !strict || (whole.length == 1 || (whole.length > 1 && whole.head? != some '0'))
  let fracOk := if strict then !pointed || !frac.isEmpty else !(whole.isEmpty && frac.isEmpty)
  if wholeOk && fracOk then
    (readExponent tail).map fun e =>
      (Nat.ofDigitChars 10 (whole ++ frac) 0, e - frac.length)
  else none

/-- The sign of a number token and the token without it. -/
def splitSign : List Char → Bool × List Char
  | '-' :: more => (true, more)
  | cs => (false, cs)

/-- A JSON number token with a fraction or an exponent, rounded to binary64. -/
def readFinite (cs : List Char) : Option (Bool × ℚ) :=
  let (negative, body) := splitSign cs
  if body.all Char.isDigit then none
  else do
    let (digits, e) ← readDecimal true body
    let magnitude ← roundDouble ((digits : ℚ) * pow10 e)
    some (negative, magnitude)

def isNumberChar (c : Char) : Bool :=
  c.isDigit || c == '-' || c == '+' || c == '.' || c == 'e' || c == 'E'

/-- A finite float carries the fact that its `repr` text denotes it. -/
structure FiniteFloat where
  negative : Bool
  magnitude : ℚ
  reads : readFinite (render negative magnitude) = some (negative, magnitude)
  shape : (render negative magnitude).all isNumberChar = true
  deriving DecidableEq

/-- The two halves of what a finite float carries. -/
theorem FiniteFloat.reads_of {negative : Bool} {magnitude : ℚ}
    (h : readFinite (render negative magnitude) = some (negative, magnitude) ∧
      (render negative magnitude).all isNumberChar = true) :
    readFinite (render negative magnitude) = some (negative, magnitude) := h.1

theorem FiniteFloat.shape_of {negative : Bool} {magnitude : ℚ}
    (h : readFinite (render negative magnitude) = some (negative, magnitude) ∧
      (render negative magnitude).all isNumberChar = true) :
    (render negative magnitude).all isNumberChar = true := h.2

inductive PyFloat
  | nan
  | inf (negative : Bool)
  | finite (x : FiniteFloat)
  deriving DecidableEq

/-- What comparisons look at: the exact value of a number, infinities apart. -/
inductive Number
  | nan
  | inf (negative : Bool)
  | exact (q : ℚ)
  deriving DecidableEq

/-- `x < y`; false as soon as one side is not a number. -/
def Number.lt : Number → Number → Bool
  | .nan, _ | _, .nan => false
  | .inf true, y => y ≠ .inf true
  | .inf false, _ => false
  | .exact _, .inf negative => !negative
  | .exact p, .exact q => decide (p < q)

def Number.eq (x y : Number) : Bool := x = y ∧ x ≠ .nan

namespace PyFloat

/-- The float nearest to a signed rational. The last branch is not reached:
17 digits determine a binary64 value. -/
def ofSigned (negative : Bool) (magnitude : ℚ) : PyFloat :=
  match roundDouble magnitude with
  | none => .inf negative
  | some m =>
      if h : readFinite (render negative m) = some (negative, m) ∧
          (render negative m).all isNumberChar = true then
        .finite ⟨negative, m, FiniteFloat.reads_of h, FiniteFloat.shape_of h⟩
      else .nan

def ofRat (q : ℚ) : PyFloat := if q < 0 then ofSigned true (-q) else ofSigned false q

/-- The exact value of a finite float. -/
def value? : PyFloat → Option ℚ
  | .finite x => some (if x.negative then -x.magnitude else x.magnitude)
  | _ => none

def number : PyFloat → Number
  | .nan => .nan
  | .inf negative => .inf negative
  | .finite x => .exact (if x.negative then -x.magnitude else x.magnitude)

def lt (x y : PyFloat) : Bool := x.number.lt y.number

def isFinite (x : PyFloat) : Bool := x.value?.isSome

def isZero (x : PyFloat) : Bool := x.value? == some 0

/-- `repr(x)`. -/
def text : PyFloat → List Char
  | .nan => "nan".toList
  | .inf false => "inf".toList
  | .inf true => "-inf".toList
  | .finite x => render x.negative x.magnitude

def neg : PyFloat → PyFloat
  | .nan => .nan
  | .inf negative => .inf (!negative)
  | .finite x => ofSigned (!x.negative) x.magnitude

def add : PyFloat → PyFloat → PyFloat
  | .nan, _ | _, .nan => .nan
  | .inf a, .inf b => if a = b then .inf a else .nan
  | .inf a, .finite _ => .inf a
  | .finite _, .inf b => .inf b
  | .finite x, .finite y =>
      let sum := (PyFloat.finite x).value?.getD 0 + (PyFloat.finite y).value?.getD 0
      if sum = 0 then ofSigned (x.negative && y.negative) 0 else ofRat sum

def sub (x y : PyFloat) : PyFloat := add x (neg y)

def mul : PyFloat → PyFloat → PyFloat
  | .nan, _ | _, .nan => .nan
  | .inf a, .inf b => .inf (a != b)
  | .inf a, .finite y | .finite y, .inf a =>
      if y.magnitude = 0 then .nan else .inf (a != y.negative)
  | .finite x, .finite y => ofSigned (x.negative != y.negative) (x.magnitude * y.magnitude)

def abs : PyFloat → PyFloat
  | .nan => .nan
  | .inf _ => .inf false
  | .finite x => ofSigned false x.magnitude

end PyFloat

def floatOfInt (i : Int) : Py PyFloat :=
  match PyFloat.ofRat i with
  | .inf _ => raise .overflowError "int too large to convert to float"
  | x => pure x

/-- `n / d` of two integers, correctly rounded. -/
def trueDivide (n : Int) (d : Nat) : Py PyFloat :=
  match PyFloat.ofRat (mkRat n d) with
  | .inf _ => raise .overflowError "integer division result too large for a float"
  | x => pure x

def intOfFloat (x : PyFloat) : Py Int :=
  match x with
  | .nan => raise .valueError "cannot convert float NaN to integer"
  | .inf _ => raise .overflowError "cannot convert float infinity to integer"
  | .finite y =>
      let whole : Int := (y.magnitude.num.toNat / y.magnitude.den : Nat)
      pure (if y.negative then -whole else whole)

/-- `float(text)`. -/
def floatOfText? (s : String) : Option PyFloat :=
  let cs := stripChars isSpace s.toList
  let (negative, body) := match cs with
    | '-' :: more => (true, more)
    | '+' :: more => (false, more)
    | more => (false, more)
  let word := lower (String.ofList body)
  if word = "inf" ∨ word = "infinity" then some (.inf negative)
  else if word = "nan" then some .nan
  else (readDecimal false body).map fun (digits, e) =>
    PyFloat.ofSigned negative ((digits : ℚ) * pow10 e)

example : String.ofList (PyFloat.ofRat (mkRat 1 10)).text = "0.1" := by decide +kernel
example : String.ofList (PyFloat.ofRat (pow10 23)).text = "1e+23" := by decide +kernel

end L0vi0x.Python
