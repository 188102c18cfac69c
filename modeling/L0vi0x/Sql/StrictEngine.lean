import L0vi0x.Python.JsonRoundTrip
import L0vi0x.Python.Utf8
import L0vi0x.Sql.Value

/-! An engine whose `json_extract` reads JSON as `json.loads` does. -/
namespace L0vi0x.Sql

open L0vi0x.Python

/-- The column value of a value inside a document. -/
def ofJson : Option Json → Value
  | none | some .null | some (.float .nan) => .null
  | some (.bool b) => .int (if b then 1 else 0)
  | some (.int i) => .int i
  | some (.float x) => .real x
  | some (.str s) => .text s
  | some j => .text j.dumps

/-- The strict engine gives what is documented of a value. -/
theorem extracted_ofJson (j : Option Json) : Extracted j (ofJson j) := by
  rcases j with _ | j
  · rfl
  · cases j with
    | float x => cases x <;> simp [ofJson, Extracted]
    | _ => simp [ofJson, Extracted]

namespace Engine

/-- A document that is not JSON fails the statement. -/
def strictExtract (v : Value) (path : List String) : Option Value :=
  match v with
  | .null => some .null
  | .text s => match Json.loads s with
      | .ok j => some (ofJson (walk path j))
      | .error _ => none
  | _ => none

/-- A document that was written is read by its path. -/
theorem strictExtract_dumps {j : Json} (h : j.Normal) (path : List String) :
    strictExtract (.text j.dumps) path = some (ofJson (walk path j)) := by
  simp [strictExtract, Json.loads_dumps h]

/-- The text of a number, and the blobs read as UTF-8. -/
def asText : Value → Value
  | .int i => .text (String.ofList (intText i))
  | .real x => .text (String.ofList x.text)
  | .blob raw => .text (decodeUtf8Replace raw)
  | v => v

def asReal : Value → Value
  | .int i => .real (PyFloat.ofRat i)
  | .text s => match floatOfText? s with
      | some x => .real x
      | none => .text s
  | v => v

def strict : Engine where
  jsonExtract := strictExtract
  textAffinity v := match v with
    | .blob raw => .blob raw
    | v => asText v
  realAffinity := asReal
  castText := asText
  extracted := by
    intro j path v hNormal hExtract
    rw [strictExtract_dumps hNormal] at hExtract
    cases hExtract
    exact extracted_ofJson _
  text_text _ := rfl
  text_null := rfl
  text_int i := ⟨_, rfl⟩
  text_real x := ⟨_, rfl⟩
  real_real _ := rfl
  real_null := rfl
  real_text := by
    intro s
    rw [asReal]
    cases floatOfText? s with
    | none => exact .inl rfl
    | some x => exact .inr ⟨x, rfl⟩

/-- The engine reads a document that was written by its path. -/
theorem strict_dumps {j : Json} (h : j.Normal) (path : List String) :
    strict.jsonExtract (.text j.dumps) path = some (ofJson (walk path j)) :=
  strictExtract_dumps h path

/-- `json.loads` of the bytes of a text, which the kernel decodes faster than it lists the
characters of a computed one. -/
def loadsEncoded (s : String) : Py Json :=
  let cs := Json.skipSpace (utf8Replace (encodeUtf8 s) none)
  match Json.readValue (cs.length + 1) cs with
  | some (j, rest) =>
      if Json.skipSpace rest = [] then pure j else raise .jsonDecodeError "Extra data"
  | none => raise .jsonDecodeError "Expecting value"

theorem loadsEncoded_eq (s : String) : loadsEncoded s = Json.loads s := by
  rw [loadsEncoded, utf8Replace_encodeUtf8]
  rfl

def encodedExtract (v : Value) (path : List String) : Option Value :=
  match v with
  | .null => some .null
  | .text s => match loadsEncoded s with
      | .ok j => some (ofJson (walk path j))
      | .error _ => none
  | _ => none

/-- The faster form of the extraction is the extraction. -/
theorem encodedExtract_eq : encodedExtract = strictExtract := by
  funext v path
  cases v with
  | text s => rw [encodedExtract, strictExtract, loadsEncoded_eq]
  | _ => rfl

/-- `strict` in the form to evaluate. -/
def encoded : Engine :=
  { strict with
    jsonExtract := encodedExtract
    extracted := encodedExtract_eq ▸ strict.extracted }

theorem strict_eq_encoded : strict = encoded := by
  unfold encoded strict
  congr
  exact encodedExtract_eq.symm

end Engine
end L0vi0x.Sql
