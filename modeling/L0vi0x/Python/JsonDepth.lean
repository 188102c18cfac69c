import L0vi0x.Python.JsonText
import L0vi0x.Python.JsonTexts

/-! The limits of the interpreter on JSON: how deep the brackets of a text and the
containers of a value are nested, and how many digits an integer of a text has. -/
namespace L0vi0x.Python.Json

/-- What has been seen of a text, up to a character. -/
structure Scan where
  quoted : Bool
  escaped : Bool
  depth : Nat
  deepest : Nat
  digits : Nat
  fractional : Bool
  longest : Nat

def Scan.start : Scan := ⟨false, false, 0, 0, 0, false, 0⟩

/-- The number that ends here, if one does, is an integer unless it has a fraction or an
exponent. -/
def Scan.closeNumber (s : Scan) : Scan :=
  { s with
    digits := 0, fractional := false
    longest := if s.fractional then s.longest else max s.longest s.digits }

def Scan.next (s : Scan) (c : Char) : Scan :=
  if s.quoted then
    if s.escaped then { s with escaped := false }
    else if c = '\\' then { s with escaped := true }
    else if c = '"' then { s with quoted := false }
    else s
  else if c.isDigit then { s with digits := s.digits + 1 }
  else if c = '.' ∨ c = 'e' ∨ c = 'E' ∨ c = '+' ∨ c = '-' then
    { s with fractional := s.fractional || (c ≠ '-' : Bool) }
  else
    let s := s.closeNumber
    if c = '"' then { s with quoted := true }
    else if c = '[' ∨ c = '\x7b' then
      { s with depth := s.depth + 1, deepest := max s.deepest (s.depth + 1) }
    else if c = ']' ∨ c = '\x7d' then { s with depth := s.depth - 1 }
    else s

def scan (text : String) : Scan := (text.toList.foldl Scan.next .start).closeNumber

/-- How deep the arrays and objects of a text are nested. -/
def textLevels (text : String) : Nat := (scan text).deepest

/-- The digits of the longest integer of a text. -/
def textDigits (text : String) : Nat := (scan text).longest

/-- `sys.get_int_max_str_digits()`. -/
def maxStrDigits : Nat := 4300

/-- `json.loads` on a stack with room for some levels. -/
def loadsWithin (levels : Nat) (text : String) : Py Json := do
  raiseIf (levels < textLevels text) .runtimeError "maximum recursion depth exceeded"
  raiseIf (maxStrDigits < textDigits text) .valueError
    "Exceeds the limit (4300 digits) for integer string conversion"
  loads text

def Loadable (levels : Nat) (text : String) : Prop :=
  textLevels text ≤ levels ∧ textDigits text ≤ maxStrDigits

instance (levels : Nat) (text : String) : Decidable (Loadable levels text) :=
  inferInstanceAs (Decidable (_ ∧ _))

/-- What is loaded within the limits is what is loaded without them. -/
theorem loadsWithin_eq_ok {levels : Nat} {text : String} {j : Json} :
    loadsWithin levels text = .ok j ↔ Loadable levels text ∧ loads text = .ok j := by
  simp only [loadsWithin, bind_eq_ok, raiseIf_eq_ok, decide_eq_false_iff_not, not_lt]
  constructor
  · rintro ⟨-, hLevels, -, hDigits, h⟩
    exact ⟨⟨hLevels, hDigits⟩, h⟩
  · rintro ⟨⟨hLevels, hDigits⟩, h⟩
    exact ⟨(), hLevels, (), hDigits, h⟩

section Values

variable (hide : String → Bool)

mutual
/-- How deep the containers of a value are nested, where those below a hidden key do not
count. -/
def levels : Json → Nat
  | .obj fields => fieldLevels fields + 1
  | .arr items => itemLevels items + 1
  | .str _ | .null | .bool _ | .int _ | .float _ => 0

def itemLevels : List Json → Nat
  | [] => 0
  | j :: rest => max (levels j) (itemLevels rest)

def fieldLevels : Fields → Nat
  | [] => 0
  | (k, v) :: rest => max (if hide k then 0 else levels v) (fieldLevels rest)
end

mutual
/-- How deep a function that calls itself on every shown element and value is nested. -/
def calls : Json → Nat
  | .obj fields => fieldCalls fields + 1
  | .arr items => itemCalls items + 1
  | .str _ | .null | .bool _ | .int _ | .float _ => 1

def itemCalls : List Json → Nat
  | [] => 0
  | j :: rest => max (calls j) (itemCalls rest)

def fieldCalls : Fields → Nat
  | [] => 0
  | (k, v) :: rest => max (if hide k then 0 else calls v) (fieldCalls rest)
end

variable {hide} {mark : String} {f : String → Py String}

/-- The pass over the texts leaves the nesting of a value and of what it shows of it. -/
def LevelsKept (hide : String → Bool) (mark : String) (f : String → Py String) (j : Json) : Prop :=
  ∀ v, mapTexts hide (.str mark) f j = .ok v → levels (fun _ => false) v = levels hide j

theorem itemLevels_mapTexts {items shown : List Json}
    (hKept : ∀ j ∈ items, LevelsKept hide mark f j)
    (h : mapItemTexts hide (.str mark) f items = .ok shown) :
    itemLevels (fun _ => false) shown = itemLevels hide items := by
  induction items generalizing shown with
  | nil =>
      rw [mapItemTexts, pure_eq_ok] at h
      rw [← h, itemLevels, itemLevels]
  | cons j rest ih =>
      rw [List.forall_mem_cons] at hKept
      rw [mapItemTexts, cons_eq_ok] at h
      obtain ⟨first, more, hFirst, hMore, rfl⟩ := h
      rw [itemLevels, itemLevels, hKept.1 first hFirst, ih hKept.2 hMore]

/-- A value under a hidden key is replaced by a text, which has no levels. -/
theorem fieldLevels_mapTexts {fields shown : Fields}
    (hKept : ∀ p ∈ fields, LevelsKept hide mark f p.2)
    (h : mapFieldTexts hide (.str mark) f fields = .ok shown) :
    fieldLevels (fun _ => false) shown = fieldLevels hide fields := by
  induction fields generalizing shown with
  | nil =>
      rw [mapFieldTexts, pure_eq_ok] at h
      rw [← h, fieldLevels, fieldLevels]
  | cons p rest ih =>
      obtain ⟨k, w⟩ := p
      rw [List.forall_mem_cons] at hKept
      rw [mapFieldTexts, cons_eq_ok] at h
      obtain ⟨first, more, hFirst, hMore, rfl⟩ := h
      rw [map_eq_ok] at hFirst
      obtain ⟨x, hValue, rfl⟩ := hFirst
      rw [fieldLevels, fieldLevels, ih hKept.2 hMore, if_neg Bool.false_ne_true]
      congr 1
      split at hValue
      · rename_i hHidden
        rw [pure_eq_ok] at hValue
        rw [if_pos hHidden, ← hValue]
        rfl
      · rename_i hShown
        rw [if_neg hShown]
        exact hKept.1 x hValue

/-- The pass over the texts keeps the levels of every value, by induction on the value. -/
theorem levels_mapTexts (j : Json) : LevelsKept hide mark f j := by
  induction j using Json.induction with
  | str s =>
      intro v h
      rw [mapTexts, map_eq_ok] at h
      obtain ⟨t, -, rfl⟩ := h
      rfl
  | arr items ih =>
      intro v h
      rw [mapTexts, map_eq_ok] at h
      obtain ⟨shown, hShown, rfl⟩ := h
      rw [levels, levels, itemLevels_mapTexts ih hShown]
  | obj fields ih =>
      intro v h
      rw [mapTexts, map_eq_ok] at h
      obtain ⟨shown, hShown, rfl⟩ := h
      rw [levels, levels, fieldLevels_mapTexts ih hShown]
  | _ =>
      intro v h
      rw [mapTexts, pure_eq_ok] at h
      exact h ▸ rfl

end Values

/-- A bracket inside a text of the value does not count. -/
example : textLevels "\x7b\"a\": [\"[[\", 12.5, [107]]\x7d" = 3 ∧
    textDigits "\x7b\"a\": [\"[[\", 12.5, [107]]\x7d" = 3 := by decide

end L0vi0x.Python.Json
