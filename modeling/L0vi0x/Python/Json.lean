import Mathlib.Data.String.Basic
import L0vi0x.Python.Float

/-! JSON values as Python holds them after `json.loads`. The fields of an
object are kept in key order, so that equal dictionaries are equal values:
the insertion order that Python also keeps is read by none of the modelled
functions except in the text of an object used as a name. -/
namespace L0vi0x.Python

inductive Json
  | null
  | bool (b : Bool)
  | int (i : Int)
  | float (x : PyFloat)
  | str (s : String)
  | arr (items : List Json)
  | obj (fields : List (String × Json))

/-- The fields of an object, its keys in increasing order. -/
abbrev Fields := List (String × Json)

namespace Json

instance : Inhabited Json := ⟨.null⟩

mutual
def decEq : (a b : Json) → Decidable (a = b)
  | .null, .null => isTrue rfl
  | .bool a, .bool b => decidable_of_iff (a = b) (by simp)
  | .int a, .int b => decidable_of_iff (a = b) (by simp)
  | .float a, .float b => decidable_of_iff (a = b) (by simp)
  | .str a, .str b => decidable_of_iff (a = b) (by simp)
  | .arr a, .arr b => match decEqItems a b with
      | isTrue h => isTrue (by rw [h])
      | isFalse h => isFalse (by simpa using h)
  | .obj a, .obj b => match decEqFields a b with
      | isTrue h => isTrue (by rw [h])
      | isFalse h => isFalse (by simpa using h)
  | .null, .bool _ | .null, .int _ | .null, .float _ | .null, .str _ | .null, .arr _
  | .null, .obj _ | .bool _, .null | .bool _, .int _ | .bool _, .float _ | .bool _, .str _
  | .bool _, .arr _ | .bool _, .obj _ | .int _, .null | .int _, .bool _ | .int _, .float _
  | .int _, .str _ | .int _, .arr _ | .int _, .obj _ | .float _, .null | .float _, .bool _
  | .float _, .int _ | .float _, .str _ | .float _, .arr _ | .float _, .obj _
  | .str _, .null | .str _, .bool _ | .str _, .int _ | .str _, .float _ | .str _, .arr _
  | .str _, .obj _ | .arr _, .null | .arr _, .bool _ | .arr _, .int _ | .arr _, .float _
  | .arr _, .str _ | .arr _, .obj _ | .obj _, .null | .obj _, .bool _ | .obj _, .int _
  | .obj _, .float _ | .obj _, .str _ | .obj _, .arr _ => isFalse (by simp)

def decEqItems : (a b : List Json) → Decidable (a = b)
  | [], [] => isTrue rfl
  | [], _ :: _ | _ :: _, [] => isFalse (by simp)
  | a :: as, b :: bs => match decEq a b, decEqItems as bs with
      | isTrue h, isTrue hs => isTrue (by rw [h, hs])
      | isFalse h, _ => isFalse (by simp [h])
      | _, isFalse hs => isFalse (by simp [hs])

def decEqFields : (a b : Fields) → Decidable (a = b)
  | [], [] => isTrue rfl
  | [], _ :: _ | _ :: _, [] => isFalse (by simp)
  | (k, a) :: as, (l, b) :: bs =>
      if hKey : k = l then
        match decEq a b, decEqFields as bs with
        | isTrue h, isTrue hs => isTrue (by rw [hKey, h, hs])
        | isFalse h, _ => isFalse (by simp [h])
        | _, isFalse hs => isFalse (by simp [hs])
      else isFalse (by simp [hKey])
end

instance : DecidableEq Json := decEq

/-- Induction over values, with the hypothesis for every item and field. -/
theorem induction {motive : Json → Prop} (null : motive .null) (bool : ∀ b, motive (.bool b))
    (int : ∀ i, motive (.int i)) (float : ∀ x, motive (.float x)) (str : ∀ s, motive (.str s))
    (arr : ∀ items, (∀ j ∈ items, motive j) → motive (.arr items))
    (obj : ∀ fields : Fields, (∀ p ∈ fields, motive p.2) → motive (.obj fields)) :
    ∀ j, motive j := by
  intro j
  refine @Json.rec motive (fun items => ∀ j ∈ items, motive j)
    (fun fields => ∀ p ∈ fields, motive p.2) (fun p => motive p.2)
    null bool int float str arr obj ?_ ?_ ?_ ?_ ?_ j
  · intro j h
    cases h
  · intro head tail hHead hTail j h
    rcases List.mem_cons.mp h with rfl | h
    · exact hHead
    · exact hTail j h
  · intro p h
    cases h
  · intro head tail hHead hTail p h
    rcases List.mem_cons.mp h with rfl | h
    · exact hHead
    · exact hTail p h
  · intro key value h
    exact h

end Json

/-- Store a field at its place in key order, over an old value. -/
def setField (key : String) (value : Json) : Fields → Fields
  | [] => [(key, value)]
  | (k, v) :: rest =>
      if key = k then (key, value) :: rest
      else if key < k then (key, value) :: (k, v) :: rest
      else (k, v) :: setField key value rest

def getField? (key : String) : Fields → Option Json
  | [] => none
  | (k, v) :: rest => if k = key then some v else getField? key rest

def eraseField (key : String) (fields : Fields) : Fields := fields.filter fun p => p.1 ≠ key

/-- A field that is stored is found. -/
@[simp] theorem getField?_setField_self (key : String) (value : Json) (fields : Fields) :
    getField? key (setField key value fields) = some value := by
  induction fields with
  | nil => simp [setField, getField?]
  | cons p rest ih =>
      obtain ⟨k, v⟩ := p
      simp only [setField]
      split
      · simp [getField?]
      · split
        · simp [getField?]
        · rename_i hNe _
          simp [getField?, ih, Ne.symm hNe]

theorem getField?_setField_ne {key other : String} (value : Json) (fields : Fields)
    (h : other ≠ key) : getField? other (setField key value fields) = getField? other fields := by
  induction fields with
  | nil => simp [setField, getField?, Ne.symm h]
  | cons p rest ih =>
      obtain ⟨k, v⟩ := p
      simp only [setField]
      split
      · rename_i hEq
        simp [getField?, hEq ▸ Ne.symm h, Ne.symm h]
      · split
        · simp [getField?, Ne.symm h]
        · simp [getField?, ih]

/-- Taking a field out leaves the others. -/
theorem getField?_eraseField {key other : String} (h : key ≠ other) (fields : Fields) :
    getField? key (eraseField other fields) = getField? key fields := by
  induction fields with
  | nil => rfl
  | cons q rest ih =>
      obtain ⟨k, v⟩ := q
      rw [eraseField, List.filter_cons]
      by_cases hk : k = other
      · subst hk
        simp only [ne_eq, not_true_eq_false, decide_false, Bool.false_eq_true, ↓reduceIte]
        rw [getField?, if_neg (Ne.symm h)]
        exact ih
      · simp only [ne_eq, hk, not_false_eq_true, decide_true, ↓reduceIte]
        rw [getField?, getField?]
        split
        · rfl
        · exact ih

/-- `dict(pairs)`: later pairs win. -/
def dictOf (pairs : List (String × Json)) : Fields :=
  pairs.foldl (fun fields p => setField p.1 p.2 fields) []

/-- The last value that a dictionary built from these pairs holds for a key. -/
def lookupLast {α : Type} (key : String) (pairs : List (String × α)) : Option α :=
  (pairs.reverse.find? fun p => p.1 = key).map (·.2)

theorem lookupLast_cons {α : Type} (key k : String) (v : α) (rest : List (String × α)) :
    lookupLast key ((k, v) :: rest) =
      (lookupLast key rest).or (if k = key then some v else none) := by
  by_cases hKey : k = key <;> cases hFind : rest.reverse.find? (fun p => p.1 = key) <;>
    simp [lookupLast, List.find?_append, hKey, hFind]

/-- Of pairs that are stored in turn the last one of a key is found. -/
theorem getField?_foldl (key : String) (pairs : List (String × Json)) (fields : Fields) :
    getField? key (pairs.foldl (fun fields p => setField p.1 p.2 fields) fields) =
      (lookupLast key pairs).or (getField? key fields) := by
  induction pairs generalizing fields with
  | nil => simp [lookupLast]
  | cons p rest ih =>
      obtain ⟨k, v⟩ := p
      rw [List.foldl_cons, ih, lookupLast_cons]
      by_cases hKey : k = key
      · subst hKey
        cases lookupLast k rest <;> simp
      · rw [getField?_setField_ne v fields (Ne.symm hKey)]
        cases lookupLast key rest <;> simp [hKey]

/-- A dictionary built from pairs holds the last value of every key. -/
theorem getField?_dictOf (key : String) (pairs : List (String × Json)) :
    getField? key (dictOf pairs) = lookupLast key pairs := by
  rw [dictOf, getField?_foldl]
  cases lookupLast key pairs <;> simp [getField?]

/-- `{**fields, **updates}`. -/
def updateFields (fields updates : Fields) : Fields :=
  updates.foldl (fun acc p => setField p.1 p.2 acc) fields

namespace Json

/-- `value.get(key)` on an object; other values have no such method. -/
def get? (key : String) : Json → Option Json
  | .obj fields => getField? key fields
  | _ => none

/-- `value.get(key)` where a missing key gives `None`. -/
def getD (key : String) (j : Json) (default : Json) : Json := (j.get? key).getD default

def isObj : Json → Bool
  | .obj _ => true
  | _ => false

def truthy : Json → Bool
  | .null => false
  | .bool b => b
  | .int i => i ≠ 0
  | .float x => !x.isZero
  | .str s => s ≠ ""
  | .arr items => !items.isEmpty
  | .obj fields => !fields.isEmpty

/-- What Python counts as a number, booleans included. -/
def number? : Json → Option Number
  | .bool b => some (.exact (if b then 1 else 0))
  | .int i => some (.exact i)
  | .float x => some x.number
  | _ => none

/-- A parsed `NaN`, which is the same object every time. -/
def isNaN : Json → Bool
  | .float .nan => true
  | _ => false

mutual
/-- `a == b`, which compares `True`, `1` and `1.0` as numbers. Inside containers
the same object is equal to itself. -/
def pyEq : Json → Json → Bool
  | .null, .null => true
  | .str s, .str t => s = t
  | .arr xs, .arr ys => pyEqItems xs ys
  | .obj xs, .obj ys => pyEqFields xs ys
  | a, b => match a.number?, b.number? with
      | some x, some y => x.eq y
      | _, _ => false

def pyEqItems : List Json → List Json → Bool
  | [], [] => true
  | x :: xs, y :: ys => (x.isNaN && y.isNaN || pyEq x y) && pyEqItems xs ys
  | _, _ => false

def pyEqFields : Fields → Fields → Bool
  | [], [] => true
  | (k, x) :: xs, (l, y) :: ys =>
      k = l && (x.isNaN && y.isNaN || pyEq x y) && pyEqFields xs ys
  | _, _ => false
end

/-- `a < b` on numbers and on texts; other pairs raise `TypeError`. -/
def pyLt? (a b : Json) : Option Bool :=
  match a, b with
  | .str s, .str t => some (decide (s < t))
  | a, b => match a.number?, b.number? with
      | some x, some y => some (x.lt y)
      | _, _ => none

/-- The escapes of `repr` inside a quoted text. -/
def reprChar (quote : Char) (c : Char) : List Char :=
  if c = '\\' then ['\\', '\\']
  else if c = quote then ['\\', c]
  else if c = '\n' then ['\\', 'n']
  else if c = '\r' then ['\\', 'r']
  else if c = '\t' then ['\\', 't']
  else if c.toNat < 32 ∨ c.toNat = 127 then
    ['\\', 'x', hexDigit (c.toNat / 16), hexDigit (c.toNat % 16)]
  else [c]

/-- `repr(text)`: single quotes unless only they occur in the text. -/
def reprText (s : String) : List Char :=
  let quote := if s.toList.contains '\'' && !s.toList.contains '"' then '"' else '\''
  quote :: s.toList.flatMap (reprChar quote) ++ [quote]

mutual
def repr : Json → List Char
  | .null => "None".toList
  | .bool b => if b then "True".toList else "False".toList
  | .int i => intText i
  | .float x => x.text
  | .str s => reprText s
  | .arr items => '[' :: reprItems items ++ [']']
  | .obj fields => '{' :: reprFields fields ++ ['}']

def reprItems : List Json → List Char
  | [] => []
  | [j] => repr j
  | j :: rest => repr j ++ ", ".toList ++ reprItems rest

def reprFields : Fields → List Char
  | [] => []
  | [(k, v)] => reprText k ++ ": ".toList ++ repr v
  | (k, v) :: rest => reprText k ++ ": ".toList ++ repr v ++ ", ".toList ++ reprFields rest
end

def text : Json → String
  | .str s => s
  | j => String.ofList (repr j)

@[simp] theorem text_str (s : String) : (Json.str s).text = s := rfl

def typeName : Json → String
  | .null => "NoneType"
  | .bool _ => "bool"
  | .int _ => "int"
  | .float _ => "float"
  | .str _ => "str"
  | .arr _ => "list"
  | .obj _ => "dict"

def toInt : Json → Py Int
  | .bool b => pure (if b then 1 else 0)
  | .int i => pure i
  | .float x => intOfFloat x
  | .str s => match intOfText? s with
      | some i => pure i
      | none => raise .valueError
          ("invalid literal for int() with base 10: " ++ String.ofList (reprText s))
  | j => raise .typeError ("int() argument must be a string, a bytes-like object or a real number, not '"
      ++ j.typeName ++ "'")

def toFloat : Json → Py PyFloat
  | .bool b => floatOfInt (if b then 1 else 0)
  | .int i => floatOfInt i
  | .float x => pure x
  | .str s => match floatOfText? s with
      | some x => pure x
      | none => raise .valueError
          ("could not convert string to float: " ++ String.ofList (reprText s))
  | j => raise .typeError ("float() argument must be a string or a real number, not '"
      ++ j.typeName ++ "'")

/-- `value.get(key, default)`, which only an object answers. -/
def attrGet (j : Json) (key : String) (default : Json) : Py Json :=
  match j with
  | .obj fields => pure ((getField? key fields).getD default)
  | j => raise .attributeError ("'" ++ j.typeName ++ "' object has no attribute 'get'")

def item (j : Json) (key : String) : Py Json :=
  match j with
  | .obj fields => match getField? key fields with
      | some v => pure v
      | none => raise .keyError (String.ofList (reprText key))
  | j => raise .typeError ("'" ++ j.typeName ++ "' object is not subscriptable")

/-- The key and value of a two-element item of a list given to `dict`. -/
def pair? : Json → Option (String × Json)
  | .arr [.str k, v] => some (k, v)
  | .str s => match s.toList with
      | [k, v] => some (String.ofList [k], .str (String.ofList [v]))
      | _ => none
  | _ => none

/-- `dict(value)` of a parsed value: an object, or a list of pairs. -/
def toDict : Json → Py Fields
  | .obj fields => pure fields
  | .arr items => match items.mapM pair? with
      | some pairs => pure (dictOf pairs)
      | none => raise .valueError "dictionary update sequence elements must have length 2"
  | .str "" => pure []
  | .str _ => raise .valueError "dictionary update sequence elements must have length 2"
  | j => raise .typeError ("'" ++ j.typeName ++ "' object is not iterable")

/-- `for x in value`: the items of a list, the keys of an object, the characters
of a text. -/
def iter : Json → Py (List Json)
  | .arr items => pure items
  | .obj fields => pure (fields.map fun p => .str p.1)
  | .str s => pure (s.toList.map fun c => .str (String.ofList [c]))
  | j => raise .typeError ("'" ++ j.typeName ++ "' object is not iterable")

/-- `set(value)`, which refuses lists and objects among the items. -/
def toSet (j : Json) : Py (List Json) := do
  let items ← j.iter
  items.mapM fun item => match item with
    | .arr _ => raise .typeError "unhashable type: 'list'"
    | .obj _ => raise .typeError "unhashable type: 'dict'"
    | item => pure item

mutual
/-- Every object inside the value has its keys in strictly increasing order. -/
def Normal : Json → Prop
  | .arr items => NormalItems items
  | .obj fields => (fields.map Prod.fst).Pairwise (· < ·) ∧ NormalFields fields
  | _ => True

def NormalItems : List Json → Prop
  | [] => True
  | j :: rest => Normal j ∧ NormalItems rest

def NormalFields : Fields → Prop
  | [] => True
  | (_, v) :: rest => Normal v ∧ NormalFields rest
end

/-- Items are normal when each of them is. -/
theorem normalItems_iff {items : List Json} :
    NormalItems items ↔ ∀ j ∈ items, Normal j := by
  induction items with
  | nil => simp [NormalItems]
  | cons j rest ih => simp [NormalItems, ih]

/-- The values of fields are normal when each of them is. -/
theorem normalFields_iff {fields : Fields} :
    NormalFields fields ↔ ∀ p ∈ fields, Normal p.2 := by
  induction fields with
  | nil => simp [NormalFields]
  | cons p rest ih =>
      obtain ⟨k, v⟩ := p
      simp [NormalFields, ih]

mutual
def isNormal : Json → Bool
  | .arr items => isNormalItems items
  | .obj fields => decide ((fields.map Prod.fst).Pairwise (· < ·)) && isNormalFields fields
  | _ => true

def isNormalItems : List Json → Bool
  | [] => true
  | j :: rest => isNormal j && isNormalItems rest

def isNormalFields : Fields → Bool
  | [] => true
  | (_, v) :: rest => isNormal v && isNormalFields rest
end

/-- The test of normality decides it. -/
theorem isNormal_iff (j : Json) : j.isNormal = true ↔ j.Normal := by
  induction j using Json.induction with
  | arr items ih =>
      simp only [isNormal, Normal]
      induction items with
      | nil => simp [isNormalItems, NormalItems]
      | cons j rest ihRest =>
          simp only [List.forall_mem_cons] at ih
          simp [isNormalItems, NormalItems, ih.1, ihRest ih.2]
  | obj fields ih =>
      have hFields : ∀ rest : Fields, (∀ p ∈ rest, p.2.isNormal = true ↔ p.2.Normal) →
          (isNormalFields rest = true ↔ NormalFields rest) := by
        intro rest hRest
        induction rest with
        | nil => simp [isNormalFields, NormalFields]
        | cons p rest ihRest =>
            simp only [List.forall_mem_cons] at hRest
            simp [isNormalFields, NormalFields, hRest.1, ihRest hRest.2]
      simp only [isNormal, Normal, Bool.and_eq_true, decide_eq_true_eq, hFields fields ih]
  | _ => simp [isNormal, Normal]

instance : DecidablePred Normal := fun j => decidable_of_iff _ (isNormal_iff j)

end Json

theorem mem_of_getField? {key : String} {value : Json} {fields : Fields}
    (h : getField? key fields = some value) : (key, value) ∈ fields := by
  induction fields with
  | nil => cases h
  | cons p rest ih =>
      obtain ⟨k, v⟩ := p
      rw [getField?] at h
      split at h
      · rename_i hKey
        cases h
        rw [hKey]
        exact List.mem_cons_self ..
      · exact List.mem_cons_of_mem _ (ih h)

section Equality

namespace Json

/-- Whether two values inside containers are equal. -/
def sameItem (x y : Json) : Bool := x.isNaN && y.isNaN || pyEq x y

/-- A number is equal to itself, unless it is not a number. -/
theorem number_eq_self {x : PyFloat} (h : x ≠ .nan) : x.number.eq x.number = true := by
  cases x with
  | nan => exact absurd rfl h
  | inf negative => simp [Number.eq, PyFloat.number]
  | finite x => simp [Number.eq, PyFloat.number]

/-- Fields are equal to themselves where each value is. -/
theorem pyEqFields_self {fields : Fields} (h : ∀ q ∈ fields, sameItem q.2 q.2 = true) :
    pyEqFields fields fields = true := by
  induction fields with
  | nil => rfl
  | cons q rest ih =>
      obtain ⟨k, v⟩ := q
      rw [List.forall_mem_cons] at h
      rw [pyEqFields, Bool.and_eq_true, Bool.and_eq_true]
      exact ⟨⟨decide_eq_true rfl, h.1⟩, ih h.2⟩

/-- Inside a container every value is equal to itself. -/
theorem sameItem_self (j : Json) : sameItem j j = true := by
  induction j using Json.induction with
  | null => rfl
  | bool b => simp [sameItem, pyEq, number?, Number.eq]
  | int i => simp [sameItem, pyEq, number?, Number.eq]
  | float x =>
      by_cases h : x = .nan
      · subst h
        rfl
      · simp [sameItem, pyEq, number?, number_eq_self h]
  | str s => simp [sameItem, pyEq]
  | arr items ih =>
      have hItems : pyEqItems items items = true := by
        induction items with
        | nil => rfl
        | cons j rest ihRest =>
            rw [List.forall_mem_cons] at ih
            rw [pyEqItems, Bool.and_eq_true]
            exact ⟨ih.1, ihRest ih.2⟩
      simp [sameItem, pyEq, hItems]
  | obj fields ih => simp [sameItem, pyEq, pyEqFields_self ih]

theorem pyEqFields_keys {xs ys : Fields} (h : pyEqFields xs ys = true) :
    xs.map Prod.fst = ys.map Prod.fst := by
  induction xs generalizing ys with
  | nil =>
      cases ys with
      | nil => rfl
      | cons q rest => simp [pyEqFields] at h
  | cons p xs ih =>
      cases ys with
      | nil => simp [pyEqFields] at h
      | cons q ys =>
          simp only [pyEqFields, Bool.and_eq_true, decide_eq_true_eq] at h
          rw [List.map_cons, List.map_cons, h.1.1, ih h.2]

/-- Setting a field to an equal value gives an equal dictionary. -/
theorem pyEqFields_setField {key : String} {v w : Json} {xs ys : Fields}
    (hSorted : (ys.map Prod.fst).Pairwise (· < ·)) (h : pyEqFields xs ys = true)
    (hField : getField? key xs = some v) (hSame : sameItem v w = true) :
    pyEqFields xs (setField key w ys) = true := by
  induction xs generalizing ys with
  | nil => cases hField
  | cons p xs ih =>
      cases ys with
      | nil => simp [pyEqFields] at h
      | cons q ys =>
          obtain ⟨k, x⟩ := p
          obtain ⟨l, y⟩ := q
          simp only [pyEqFields, Bool.and_eq_true, decide_eq_true_eq] at h
          obtain ⟨⟨rfl, hHead⟩, hRest⟩ := h
          rw [List.map_cons, List.pairwise_cons] at hSorted
          rw [getField?] at hField
          by_cases hKey : k = key
          · subst hKey
            rw [if_pos rfl, Option.some.injEq] at hField
            rw [setField, if_pos rfl, pyEqFields, Bool.and_eq_true, Bool.and_eq_true]
            exact ⟨⟨decide_eq_true rfl, hField ▸ hSame⟩, hRest⟩
          · rw [if_neg hKey] at hField
            have hAbove : k < key := by
              have hMem : key ∈ xs.map Prod.fst :=
                List.mem_map_of_mem (f := Prod.fst) (mem_of_getField? hField)
              exact hSorted.1 key (pyEqFields_keys hRest ▸ hMem)
            have hNot : ¬ key < k := fun hLt =>
              absurd (String.lt_trans hAbove hLt) (String.lt_irrefl _)
            rw [setField, if_neg (Ne.symm hKey), if_neg hNot, pyEqFields, Bool.and_eq_true,
              Bool.and_eq_true]
            exact ⟨⟨decide_eq_true rfl, hHead⟩, ih hSorted.2 hRest hField⟩

end Json
end Equality

/-- A value that is read back from its canonical text. -/
abbrev NormalJson := { j : Json // j.Normal }

section Order

/-- A key above all stored keys goes to the end. -/
theorem setField_above {key : String} {value : Json} {fields : Fields}
    (h : ∀ p ∈ fields, p.1 < key) : setField key value fields = fields ++ [(key, value)] := by
  induction fields with
  | nil => rfl
  | cons p rest ih =>
      obtain ⟨k, v⟩ := p
      have hk : k < key := h (k, v) (List.mem_cons_self ..)
      have hNe : key ≠ k := fun hEq => absurd (hEq ▸ hk) (String.lt_irrefl _)
      have hNot : ¬ key < k := fun hlt => absurd (String.lt_trans hk hlt) (String.lt_irrefl _)
      simp only [setField, hNe, hNot, ↓reduceIte, List.cons_append]
      rw [ih fun p hp => h p (List.mem_cons_of_mem _ hp)]

/-- Reading fields in key order rebuilds the same object. -/
theorem dictOf_of_sorted {fields : Fields} (h : (fields.map Prod.fst).Pairwise (· < ·)) :
    dictOf fields = fields := by
  have hFold : ∀ (rest done : Fields),
      ((done ++ rest).map Prod.fst).Pairwise (· < ·) →
      rest.foldl (fun acc p => setField p.1 p.2 acc) done = done ++ rest := by
    intro rest
    induction rest with
    | nil => intro done _; simp
    | cons p rest ih =>
        intro done hSorted
        have hAbove : ∀ q ∈ done, q.1 < p.1 := by
          intro q hq
          rw [List.map_append, List.pairwise_append] at hSorted
          exact hSorted.2.2 q.1 (List.mem_map_of_mem hq) p.1 (by simp)
        rw [List.foldl_cons, setField_above hAbove, ih _ (by simpa using hSorted)]
        simp
  simpa [dictOf] using hFold fields [] (by simpa using h)

theorem mem_setField {key : String} {value : Json} {fields : Fields} {p : String × Json}
    (h : p ∈ setField key value fields) : p = (key, value) ∨ p ∈ fields := by
  induction fields with
  | nil => exact .inl (List.mem_singleton.mp h)
  | cons q rest ih =>
      obtain ⟨k, v⟩ := q
      simp only [setField] at h
      split at h
      · rcases List.mem_cons.mp h with h | h
        · exact .inl h
        · exact .inr (List.mem_cons_of_mem _ h)
      · split at h
        · exact List.mem_cons.mp h
        · rcases List.mem_cons.mp h with h | h
          · exact .inr (h ▸ List.mem_cons_self ..)
          · exact (ih h).imp_right (List.mem_cons_of_mem _)

/-- Setting a field to the value that it has changes nothing. -/
theorem setField_same {key : String} {value : Json} {fields : Fields}
    (hSorted : (fields.map Prod.fst).Pairwise (· < ·))
    (h : getField? key fields = some value) : setField key value fields = fields := by
  induction fields with
  | nil => cases h
  | cons q rest ih =>
      obtain ⟨k, v⟩ := q
      rw [List.map_cons, List.pairwise_cons] at hSorted
      rw [getField?] at h
      split at h
      · rename_i hKey
        subst hKey
        cases h
        simp [setField]
      · rename_i hKey
        have hLt : k < key := hSorted.1 key (List.mem_map_of_mem (mem_of_getField? h))
        simp only [setField, Ne.symm hKey, not_lt_of_gt hLt, ↓reduceIte, ih hSorted.2 h]

theorem mem_dictOf {pairs : List (String × Json)} {p : String × Json} (h : p ∈ dictOf pairs) :
    p ∈ pairs := by
  have hFold : ∀ (rest : List (String × Json)) (fields : Fields),
      p ∈ rest.foldl (fun acc q => setField q.1 q.2 acc) fields → p ∈ fields ∨ p ∈ rest := by
    intro rest
    induction rest with
    | nil => exact fun _ hMem => .inl hMem
    | cons q rest ih =>
        intro fields hMem
        rcases ih _ hMem with hField | hRest
        · rcases mem_setField hField with rfl | hField
          · exact .inr (List.mem_cons_self ..)
          · exact .inl hField
        · exact .inr (List.mem_cons_of_mem _ hRest)
  exact (hFold pairs [] h).resolve_left List.not_mem_nil

/-- Storing a field keeps the keys sorted. -/
theorem setField_sorted {key : String} {value : Json} {fields : Fields}
    (h : (fields.map Prod.fst).Pairwise (· < ·)) :
    ((setField key value fields).map Prod.fst).Pairwise (· < ·) := by
  induction fields with
  | nil => simp [setField]
  | cons q rest ih =>
      obtain ⟨k, v⟩ := q
      rw [List.map_cons, List.pairwise_cons] at h
      simp only [setField]
      split
      · rename_i hEq
        subst hEq
        rw [List.map_cons, List.pairwise_cons]
        exact h
      · rename_i hNe
        split
        · rename_i hLt
          rw [List.map_cons, List.map_cons, List.pairwise_cons, List.pairwise_cons]
          refine ⟨fun other hOther => ?_, h⟩
          rcases List.mem_cons.mp hOther with rfl | hOther
          · exact hLt
          · exact String.lt_trans hLt (h.1 other hOther)
        · rename_i hNotLt
          rw [List.map_cons, List.pairwise_cons]
          refine ⟨fun other hOther => ?_, ih h.2⟩
          obtain ⟨p, hp, rfl⟩ := List.mem_map.mp hOther
          rcases mem_setField hp with rfl | hp
          · exact lt_of_le_of_ne (not_lt.mp hNotLt) (Ne.symm hNe)
          · exact h.1 p.1 (List.mem_map_of_mem hp)

/-- Storing a normal value in a normal object leaves it normal. -/
theorem Json.Normal.setField {key : String} {value : Json} {fields : Fields}
    (hFields : (Json.obj fields).Normal) (hValue : value.Normal) :
    (Json.obj (setField key value fields)).Normal := by
  obtain ⟨hSorted, hValues⟩ := hFields
  refine ⟨setField_sorted hSorted, normalFields_iff.mpr fun p hp => ?_⟩
  rcases mem_setField hp with rfl | hp
  · exact hValue
  · exact normalFields_iff.mp hValues p hp

/-- A dictionary of normal values is normal. -/
theorem normal_dictOf {pairs : List (String × Json)} (h : ∀ p ∈ pairs, p.2.Normal) :
    (Json.obj (dictOf pairs)).Normal := by
  have hFold : ∀ (rest : List (String × Json)) (fields : Fields), (Json.obj fields).Normal →
      (∀ p ∈ rest, p.2.Normal) →
      (Json.obj (rest.foldl (fun fields p => setField p.1 p.2 fields) fields)).Normal := by
    intro rest
    induction rest with
    | nil => exact fun _ hFields _ => hFields
    | cons p rest ih =>
        intro fields hFields hRest
        rw [List.forall_mem_cons] at hRest
        exact ih _ (hFields.setField hRest.1) hRest.2
  exact hFold pairs [] ⟨.nil, trivial⟩ h

end Order

section Lookup

@[simp] theorem lookupLast_nil {α : Type} (key : String) :
    lookupLast key ([] : List (String × α)) = none := rfl

theorem lookupLast_append {α : Type} (key : String) (xs ys : List (String × α)) :
    lookupLast key (xs ++ ys) = (lookupLast key ys).or (lookupLast key xs) := by
  induction xs with
  | nil => rw [List.nil_append, lookupLast_nil, Option.or_none]
  | cons p xs ih =>
      obtain ⟨k, v⟩ := p
      rw [List.cons_append, lookupLast_cons, ih, lookupLast_cons, Option.or_assoc]

theorem lookupLast_of_not_mem {α : Type} {key : String} {pairs : List (String × α)}
    (h : key ∉ pairs.map Prod.fst) : lookupLast key pairs = none := by
  induction pairs with
  | nil => rfl
  | cons p rest ih =>
      obtain ⟨k, v⟩ := p
      simp only [List.map_cons, List.mem_cons, not_or] at h
      rw [lookupLast_cons, ih h.2, Option.none_or, if_neg (Ne.symm h.1)]

/-- Fields in key order are determined by their lookups. -/
theorem fields_ext {xs ys : Fields} (hx : (xs.map Prod.fst).Pairwise (· < ·))
    (hy : (ys.map Prod.fst).Pairwise (· < ·)) (h : ∀ key, getField? key xs = getField? key ys) :
    xs = ys := by
  induction xs generalizing ys with
  | nil =>
      cases ys with
      | nil => rfl
      | cons q ys =>
          have hHead := h q.1
          rw [getField?, getField?, if_pos rfl] at hHead
          cases hHead
  | cons p xs ih =>
      cases ys with
      | nil =>
          have hHead := h p.1
          rw [getField?, getField?, if_pos rfl] at hHead
          cases hHead
      | cons q ys =>
          obtain ⟨k, v⟩ := p
          obtain ⟨l, w⟩ := q
          rw [List.map_cons, List.pairwise_cons] at hx hy
          have hAbove : ∀ {key : String} {rest : Fields} {other : String},
              (∀ a ∈ rest.map Prod.fst, other < a) → key ≤ other → getField? key rest = none := by
            intro key rest other hRest hLe
            cases hFound : getField? key rest with
            | none => rfl
            | some value =>
                have hMem := List.mem_map_of_mem (f := Prod.fst) (mem_of_getField? hFound)
                exact absurd (lt_of_lt_of_le (hRest _ hMem) hLe) (lt_irrefl _)
          have hKey : k = l := by
            rcases lt_trichotomy k l with hLt | hEq | hLt
            · have hk := h k
              rw [getField?, if_pos rfl, getField?, if_neg (fun hEq => absurd (hEq ▸ hLt)
                (lt_irrefl _)), hAbove hy.1 hLt.le] at hk
              cases hk
            · exact hEq
            · have hl := h l
              rw [getField?, if_neg (fun hEq => absurd (hEq ▸ hLt) (lt_irrefl _)),
                hAbove hx.1 hLt.le, getField?, if_pos rfl] at hl
              cases hl
          subst hKey
          have hValue : v = w := by
            have hk := h k
            rw [getField?, if_pos rfl, getField?, if_pos rfl] at hk
            exact Option.some.inj hk
          subst hValue
          congr 1
          refine ih hx.2 hy.2 fun key => ?_
          by_cases hEq : k = key
          · subst hEq
            rw [hAbove hx.1 le_rfl, hAbove hy.1 le_rfl]
          · have hRest := h key
            rwa [getField?, if_neg hEq, getField?, if_neg hEq] at hRest

/-- An update keeps the keys sorted. -/
theorem updateFields_sorted {fields : Fields} (h : (fields.map Prod.fst).Pairwise (· < ·))
    (updates : Fields) : ((updateFields fields updates).map Prod.fst).Pairwise (· < ·) := by
  induction updates generalizing fields with
  | nil => exact h
  | cons p updates ih => exact ih (setField_sorted h)

/-- A dictionary has its keys sorted. -/
theorem dictOf_sorted (pairs : List (String × Json)) :
    ((dictOf pairs).map Prod.fst).Pairwise (· < ·) :=
  updateFields_sorted .nil pairs

/-- A key has a value when it is given. -/
theorem lookupLast_isSome {key : String} {pairs : List (String × Json)} :
    (lookupLast key pairs).isSome ↔ key ∈ pairs.map Prod.fst := by
  induction pairs with
  | nil => simp [lookupLast]
  | cons p pairs ih =>
      obtain ⟨k, v⟩ := p
      rw [lookupLast_cons, List.map_cons, List.mem_cons, ← ih]
      by_cases hKey : k = key
      · simp [hKey]
      · simp [hKey, Ne.symm hKey]

/-- Nothing is left of a mapping whose every key is set again. -/
theorem updateFields_overwritten {pairs updates : List (String × Json)}
    (h : ∀ key ∈ pairs.map Prod.fst, key ∈ updates.map Prod.fst) :
    updateFields (dictOf pairs) updates = dictOf updates := by
  refine fields_ext (updateFields_sorted (dictOf_sorted pairs) updates) (dictOf_sorted updates)
    fun key => ?_
  rw [updateFields, getField?_foldl, getField?_dictOf, getField?_dictOf]
  cases hUpdate : lookupLast key updates with
  | some value => rfl
  | none =>
      have hNot : key ∉ pairs.map Prod.fst := fun hMem => by
        have hSome := lookupLast_isSome.mpr (h key hMem)
        rw [hUpdate] at hSome
        cases hSome
      rw [← lookupLast_isSome, Bool.not_eq_true, Option.isSome_eq_false_iff,
        Option.isNone_iff_eq_none] at hNot
      rw [hNot]
      rfl

/-- The item of a dictionary is the last value of its key. -/
theorem item_dictOf {pairs : List (String × Json)} {key : String} {value found : Json}
    (h : (Json.obj (dictOf pairs)).item key = .ok found) (hLast : lookupLast key pairs = some value) :
    value = found := by
  rw [Json.item, getField?_dictOf, hLast] at h
  exact pure_eq_ok.mp h

end Lookup
end L0vi0x.Python
