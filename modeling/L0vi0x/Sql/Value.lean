import L0vi0x.Python.JsonText

/-! The values of SQLite columns, how they compare, and the functions of the
engine that statements call. -/
namespace L0vi0x.Sql

open L0vi0x.Python

inductive Value
  | null
  | int (i : Int)
  | real (x : PyFloat)
  | text (s : String)
  | blob (raw : Bytes)
  deriving DecidableEq

namespace Value

/-- `a IS b` of operands without affinity: numbers by value, the rest by kind. -/
def is : Value → Value → Bool
  | .null, .null => true
  | .int i, .int j => i = j
  | .int i, .real x | .real x, .int i => (Number.exact i).eq x.number
  | .real x, .real y => x.number.eq y.number
  | .text s, .text t => s = t
  | .blob a, .blob b => a = b
  | _, _ => false

def equals (a b : Value) : Bool := a ≠ .null && a.is b

/-- Numbers come before texts, texts before blobs. -/
def rank : Value → Nat
  | .null => 0
  | .int _ | .real _ => 1
  | .text _ => 2
  | .blob _ => 3

def number? : Value → Option Number
  | .int i => some (.exact i)
  | .real x => some x.number
  | _ => none

/-- Whether `a <= b` is true; with a `NULL` it is unknown. -/
def lessEq : Value → Value → Bool
  | .null, _ | _, .null => false
  | .int i, .int j => i ≤ j
  | .text s, .text t => s ≤ t
  | .blob a, .blob b => a ≤ b
  | a, b => match a.number?, b.number? with
      | some x, some y => x.lt y || x.eq y
      | _, _ => a.rank < b.rank

/-- Integers are compared as integers. -/
@[simp] theorem lessEq_int (i j : Int) : (int i).lessEq (int j) = decide (i ≤ j) := rfl

/-- Only a text is that text. -/
theorem is_text {a : Value} {s : String} : a.is (.text s) = true ↔ a = .text s := by
  cases a <;> simp [is]

theorem text_is {a : Value} {s : String} : (text s).is a = true ↔ a = .text s := by
  cases a <;> simp [is, eq_comm]

/-- Only a null is null. -/
theorem is_null {a : Value} : a.is .null = true ↔ a = .null := by
  cases a <;> simp [is]

/-- Only a text equals that text. -/
theorem equals_text {a : Value} {s : String} : a.equals (.text s) = true ↔ a = .text s := by
  simp only [equals, Bool.and_eq_true, is_text, decide_eq_true_eq, ne_eq]
  constructor
  · exact And.right
  · rintro rfl
    exact ⟨by simp, rfl⟩

/-- A column as the `sqlite3` module hands it back; blobs are bytes there. -/
def toJson : Value → Json
  | .null => .null
  | .int i => .int i
  | .real x => .float x
  | .text s => .str s
  | .blob raw => .str (decodeUtf8Replace raw)

end Value

def isInt64 (i : Int) : Bool := -(2 ^ 63) ≤ i && i < 2 ^ 63

def bind : Json → Py Value
  | .null => pure .null
  | .bool b => pure (.int (if b then 1 else 0))
  | .int i => if isInt64 i then pure (.int i)
      else raise .overflowError "Python int too large to convert to SQLite INTEGER"
  | .float .nan => pure .null
  | .float x => pure (.real x)
  | .str s => pure (.text s)
  | j => raise .sqliteError ("Error binding parameter: type '" ++ j.typeName ++
      "' is not supported")

/-- The value at a path of keys. -/
def walk : List String → Json → Option Json
  | [], j => some j
  | key :: path, j => (j.get? key).bind (walk path)

/-- A text as far as its first NUL, which is where an engine may end it. -/
def beforeNul (s : String) : String :=
  String.ofList (s.toList.takeWhile (· ≠ Char.ofNat 0))

/-- What `json_extract` gives for a value of a document: the documented kinds,
and the exact value where the JSON text determines it. -/
def Extracted : Option Json → Value → Prop
  | none, v | some .null, v => v = .null
  | some (.bool b), v => v = .int (if b then 1 else 0)
  | some (.int i), v => isInt64 i = true → v = .int i
  | some (.float _), v => v = .null ∨ ∃ y, v = .real y
  | some (.str s), v => v = .text s ∨ v = .text (beforeNul s)
  | some (.arr _), v | some (.obj _), v => ∃ t, v = .text t

/-- The functions of the engine. On the text of a document that `dumps` wrote,
`json_extract` reads the document or fails; a `TEXT` column keeps texts and nulls
and turns numbers into texts; a `REAL` column keeps reals and nulls, turns
integers into reals and keeps a text that is no number. -/
structure Engine where
  /-- `json_extract(text, path)`; `none` is a failing statement. -/
  jsonExtract : Value → List String → Option Value
  textAffinity : Value → Value
  realAffinity : Value → Value
  /-- `CAST(value AS TEXT)`. -/
  castText : Value → Value
  extracted : ∀ (j : Json) (path : List String) (v : Value), j.Normal →
    jsonExtract (.text j.dumps) path = some v → Extracted (walk path j) v
  text_text : ∀ s, textAffinity (.text s) = .text s
  text_null : textAffinity .null = .null
  text_int : ∀ i, ∃ s, textAffinity (.int i) = .text s
  text_real : ∀ x, ∃ s, textAffinity (.real x) = .text s
  real_real : ∀ x, realAffinity (.real x) = .real x
  real_null : realAffinity .null = .null
  real_text : ∀ s, realAffinity (.text s) = .text s ∨ ∃ x, realAffinity (.text s) = .real x

end L0vi0x.Sql
