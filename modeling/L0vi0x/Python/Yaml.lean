import L0vi0x.Python.JsonDepth

/-! What `yaml.safe_load` gives. Its mappings have keys of any scalar type, and not every
value can be written as JSON; the programs look fields up by texts, and write whole documents
to digest them. -/
namespace L0vi0x.Python

/-- A key of a mapping. Dates, times and bytes are no keys of JSON. -/
inductive YamlKey
  | null
  | bool (b : Bool)
  | int (i : Int)
  | float (x : PyFloat)
  | str (s : String)
  | other (typeName shown : String)

/-- A value, with the entries of a mapping in their order; `shown` is what `str` gives. -/
inductive YamlValue
  | null
  | bool (b : Bool)
  | int (i : Int)
  | float (x : PyFloat)
  | str (s : String)
  | date (typeName shown : String)
  | bytes (shown : String)
  | set (shown : String) (elements : List YamlKey)
  | seq (items : List YamlValue)
  | map (entries : List (YamlKey × YamlValue))

/-- A document. One that holds a node inside itself is `circular`; its value then shows the
node again below every level at which a program looks. -/
structure YamlDocument where
  value : YamlValue
  circular : Bool

namespace YamlKey

def isText : YamlKey → Bool
  | .str _ => true
  | _ => false

def isNumber : YamlKey → Bool
  | .bool _ | .int _ | .float _ => true
  | _ => false

/-- A key as an element of a set; dates and bytes equal no text. -/
def element : YamlKey → Json
  | .null => .null
  | .bool b => .bool b
  | .int i => .int i
  | .float x => .float x
  | .str s => .str s
  | .other .. => .float .nan

/-- Python writes an integer of so many decimal digits. -/
def printable : YamlKey → Bool
  | .int i => decide (decimalDigits i.natAbs ≤ Json.maxStrDigits)
  | .other .. => false
  | _ => true

/-- A key as `json.dumps` writes it. -/
def dumped : YamlKey → Py String
  | .str s => pure s
  | .other typeName _ =>
      raise .typeError ("keys must be str, int, float, bool or None, not " ++ typeName)
  | k => do
      raiseIf (!k.printable) .valueError
        "Exceeds the limit (4300 digits) for integer string conversion"
      pure k.element.dumps

/-- `str(key)`. -/
def text : YamlKey → String
  | .other _ shown => shown
  | k => k.element.text

/-- `sorted` compares every two of these keys. -/
def comparable (keys : List YamlKey) : Bool :=
  keys.all isText || keys.all isNumber || keys.length ≤ 1

end YamlKey

/-- A function of the values goes through the building of a dictionary. -/
theorem dictOf_map (f : Json → Json) (pairs : List (String × Json)) :
    dictOf (pairs.map fun p => (p.1, f p.2)) = (dictOf pairs).map fun p => (p.1, f p.2) := by
  have hStep : ∀ (key : String) (value : Json) (fields : Fields),
      setField key (f value) (fields.map fun p => (p.1, f p.2)) =
        (setField key value fields).map fun p => (p.1, f p.2) := by
    intro key value fields
    induction fields with
    | nil => rfl
    | cons p rest ih =>
        obtain ⟨k, v⟩ := p
        simp only [setField, List.map_cons, ih]
        split
        · rfl
        · split <;> rfl
  have hFold : ∀ fields : Fields,
      (pairs.map fun p => (p.1, f p.2)).foldl (fun fields p => setField p.1 p.2 fields)
          (fields.map fun p => (p.1, f p.2)) =
        (pairs.foldl (fun fields p => setField p.1 p.2 fields) fields).map
          fun p => (p.1, f p.2) := by
    induction pairs with
    | nil => exact fun _ => rfl
    | cons p rest ih =>
        intro fields
        rw [List.map_cons, List.foldl_cons, List.foldl_cons, hStep]
        exact ih _
  exact hFold []

namespace YamlValue

def truthy : YamlValue → Bool
  | .null => false
  | .bool b => b
  | .int i => i ≠ 0
  | .float x => !x.isZero
  | .str s => s ≠ ""
  | .date .. => true
  | .bytes shown => shown ≠ "b''"
  | .set _ elements => !elements.isEmpty
  | .seq items => !items.isEmpty
  | .map entries => !entries.isEmpty

def isBytes : YamlValue → Bool
  | .bytes _ => true
  | _ => false

mutual
/-- What lookups by texts, tests of types and tests of membership of texts see: the entries
under texts, and for a value that JSON does not have one that behaves like it. A date cannot
be iterated; bytes can, and have no text among their items. -/
def lookups : YamlValue → Json
  | .null => .null
  | .bool b => .bool b
  | .int i => .int i
  | .float x => .float x
  | .str s => .str s
  | .date .. => .float .nan
  | .bytes _ => .str ""
  | .set _ elements => .arr (elements.map YamlKey.element)
  | .seq items => .arr (itemLookups items)
  | .map entries => .obj (dictOf (entryLookups entries))

def itemLookups : List YamlValue → List Json
  | [] => []
  | y :: rest => (if y.isBytes then .float .nan else y.lookups) :: itemLookups rest

def entryLookups : List (YamlKey × YamlValue) → List (String × Json)
  | [] => []
  | (.str s, y) :: rest => (s, y.lookups) :: entryLookups rest
  | (_, _) :: rest => entryLookups rest
end

def dumpedInt (i : Int) : Py Json := do
  raiseIf (!(YamlKey.int i).printable) .valueError
    "Exceeds the limit (4300 digits) for integer string conversion"
  pure (.int i)

def notSerializable (typeName : String) : Py Json :=
  raise .typeError ("Object of type " ++ typeName ++ " is not JSON serializable")

mutual
/-- `json.loads(json.dumps(value))`. -/
def dumped : YamlValue → Py Json
  | .null => pure .null
  | .bool b => pure (.bool b)
  | .int i => dumpedInt i
  | .float x => pure (.float x)
  | .str s => pure (.str s)
  | .date typeName _ => notSerializable typeName
  | .bytes _ => notSerializable "bytes"
  | .set .. => notSerializable "set"
  | .seq items => Json.arr <$> dumpedItems items
  | .map entries => (fun pairs => Json.obj (dictOf pairs)) <$> dumpedEntries entries

def dumpedItems : List YamlValue → Py (List Json)
  | [] => pure []
  | y :: rest => do
      let first ← y.dumped
      let more ← dumpedItems rest
      pure (first :: more)

def dumpedEntries : List (YamlKey × YamlValue) → Py (List (String × Json))
  | [] => pure []
  | (k, y) :: rest => do
      let first ← k.dumped
      let value ← y.dumped
      let more ← dumpedEntries rest
      pure ((first, value) :: more)
end

/-- The fields that `json.dumps` writes for sorted keys: texts by their code points, numbers
by their values. -/
def sortedFields (entries : List (YamlKey × String × Json)) : Fields :=
  if entries.all fun p => p.1.isText then dictOf (entries.map (·.2))
  else (entries.mergeSort fun p q => (q.1.element.pyLt? p.1.element) ≠ some true).map (·.2)

mutual
/-- The value that `json.dumps(value, sort_keys=True, default=str)` writes. -/
def sorted : YamlValue → Py Json
  | .null => pure .null
  | .bool b => pure (.bool b)
  | .int i => dumpedInt i
  | .float x => pure (.float x)
  | .str s => pure (.str s)
  | .date _ shown => pure (.str shown)
  | .bytes shown => pure (.str shown)
  | .set shown _ => pure (.str shown)
  | .seq items => Json.arr <$> sortedItems items
  | .map entries => do
      raiseIf (!YamlKey.comparable (entries.map Prod.fst)) .typeError
        "'<' not supported between the keys of a mapping"
      let fields ← sortedEntries entries
      pure (.obj (sortedFields fields))

def sortedItems : List YamlValue → Py (List Json)
  | [] => pure []
  | y :: rest => do
      let first ← y.sorted
      let more ← sortedItems rest
      pure (first :: more)

def sortedEntries : List (YamlKey × YamlValue) → Py (List (YamlKey × String × Json))
  | [] => pure []
  | (k, y) :: rest => do
      let first ← k.dumped
      let value ← y.sorted
      let more ← sortedEntries rest
      pure ((k, first, value) :: more)
end

mutual
/-- The keys of every mapping can be sorted and written, and every integer be written. -/
def sortable : YamlValue → Bool
  | .int i => (YamlKey.int i).printable
  | .seq items => sortableItems items
  | .map entries => YamlKey.comparable (entries.map Prod.fst) && sortableEntries entries
  | .null | .bool _ | .float _ | .str _ | .date .. | .bytes _ | .set .. => true

def sortableItems : List YamlValue → Bool
  | [] => true
  | y :: rest => y.sortable && sortableItems rest

def sortableEntries : List (YamlKey × YamlValue) → Bool
  | [] => true
  | (k, y) :: rest => k.printable && y.sortable && sortableEntries rest
end

mutual
/-- A value that JSON has, with integers that can be written. -/
def plain : YamlValue → Bool
  | .null | .bool _ | .float _ | .str _ => true
  | .int i => (YamlKey.int i).printable
  | .date .. | .bytes _ | .set .. => false
  | .seq items => plainItems items
  | .map entries => plainEntries entries

def plainItems : List YamlValue → Bool
  | [] => true
  | y :: rest => y.plain && plainItems rest

def plainEntries : List (YamlKey × YamlValue) → Bool
  | [] => true
  | (k, y) :: rest => k.isText && y.plain && plainEntries rest
end

/-- `str(value)`; a container shows its entries under texts. -/
def text : YamlValue → String
  | .date _ shown | .bytes shown | .set shown _ => shown
  | y => y.lookups.text

/-- The value of a text among the entries of a mapping; a later entry wins. -/
def entryAt? (key : String) : List (YamlKey × YamlValue) → Option YamlValue
  | [] => none
  | (.str s, y) :: rest => (entryAt? key rest).or (if s = key then some y else none)
  | (_, _) :: rest => entryAt? key rest

/-- `value.get(key, default)`. -/
def attrGet (y : YamlValue) (key : String) (default : YamlValue) : Py YamlValue :=
  match y with
  | .map entries => pure ((entryAt? key entries).getD default)
  | y => raise .attributeError ("'" ++ y.lookups.typeName ++ "' object has no attribute 'get'")

/-- `{str(k): str(v) for k, v in entries.items()}`. -/
def texts (entries : List (YamlKey × YamlValue)) : List (String × String) :=
  (dictOf (entries.map fun p => (p.1.text, Json.str p.2.text))).map fun p => (p.1, p.2.text)

mutual
/-- A value of JSON as a document holds it. -/
def ofJson : Json → YamlValue
  | .null => .null
  | .bool b => .bool b
  | .int i => .int i
  | .float x => .float x
  | .str s => .str s
  | .arr items => .seq (ofItems items)
  | .obj fields => .map (ofFields fields)

def ofItems : List Json → List YamlValue
  | [] => []
  | j :: rest => ofJson j :: ofItems rest

def ofFields : Fields → List (YamlKey × YamlValue)
  | [] => []
  | (k, v) :: rest => (.str k, ofJson v) :: ofFields rest
end

/-- Induction over values, with the hypothesis for every item and entry. -/
theorem induction {motive : YamlValue → Prop} (null : motive .null) (bool : ∀ b, motive (.bool b))
    (int : ∀ i, motive (.int i)) (float : ∀ x, motive (.float x)) (str : ∀ s, motive (.str s))
    (date : ∀ typeName shown, motive (.date typeName shown))
    (bytes : ∀ shown, motive (.bytes shown)) (set : ∀ shown elements, motive (.set shown elements))
    (seq : ∀ items, (∀ y ∈ items, motive y) → motive (.seq items))
    (map : ∀ entries : List (YamlKey × YamlValue), (∀ p ∈ entries, motive p.2) →
      motive (.map entries)) : ∀ y, motive y := by
  intro y
  refine @YamlValue.rec motive (fun items => ∀ y ∈ items, motive y)
    (fun entries => ∀ p ∈ entries, motive p.2) (fun p => motive p.2)
    null bool int float str date bytes set seq map ?_ ?_ ?_ ?_ ?_ y
  · intro y h
    cases h
  · intro head tail hHead hTail y h
    rcases List.mem_cons.mp h with rfl | h
    · exact hHead
    · exact hTail y h
  · intro p h
    cases h
  · intro head tail hHead hTail p h
    rcases List.mem_cons.mp h with rfl | h
    · exact hHead
    · exact hTail p h
  · intro key value h
    exact h

theorem returns_dumpedInt {i : Int} :
    returns (dumpedInt i) ↔ (YamlKey.int i).printable = true := by
  rw [dumpedInt, returns_bind]
  simp only [raiseIf_eq_ok, Bool.not_eq_false']
  constructor
  · rintro ⟨-, h, -⟩
    exact h
  · exact fun h => ⟨(), h, _, rfl⟩

/-- A key is written just when it is printable. -/
theorem YamlKey.returns_dumped (k : YamlKey) : returns k.dumped ↔ k.printable = true := by
  cases k with
  | other typeName shown => exact iff_of_false (not_returns_error _) Bool.false_ne_true
  | str s => exact iff_of_true ⟨_, rfl⟩ rfl
  | int i =>
      rw [YamlKey.dumped, returns_bind]
      · simp only [raiseIf_eq_ok, Bool.not_eq_false']
        constructor
        · rintro ⟨-, h, -⟩
          exact h
        · exact fun h => ⟨(), h, _, rfl⟩
      · intro s h
        cases h
      · intro typeName shown h
        cases h
  | null => exact iff_of_true ⟨_, rfl⟩ rfl
  | bool b => exact iff_of_true ⟨_, rfl⟩ rfl
  | float x => exact iff_of_true ⟨_, rfl⟩ rfl

/-- Sorting and writing a value raises on nothing but its keys and its integers. -/
theorem returns_sorted (y : YamlValue) : returns y.sorted ↔ y.sortable = true := by
  induction y using YamlValue.induction with
  | int i =>
      rw [sorted, sortable]
      exact returns_dumpedInt
  | seq items ih =>
      rw [sorted, sortable, returns_map]
      induction items with
      | nil => exact iff_of_true ⟨[], rfl⟩ rfl
      | cons y rest ihRest =>
          rw [List.forall_mem_cons] at ih
          rw [sortedItems, sortableItems, returns_cons, ih.1, ihRest ih.2, Bool.and_eq_true]
  | map entries ih =>
      have hEntries : returns (sortedEntries entries) ↔ sortableEntries entries = true := by
        induction entries with
        | nil => exact iff_of_true ⟨[], rfl⟩ rfl
        | cons p rest ihRest =>
            obtain ⟨k, y⟩ := p
            rw [List.forall_mem_cons] at ih
            rw [sortedEntries, sortableEntries, Bool.and_eq_true, Bool.and_eq_true,
              ← YamlKey.returns_dumped, ← ih.1, ← ihRest ih.2]
            constructor
            · rintro ⟨_, h⟩
              obtain ⟨first, hKey, h⟩ := bind_eq_ok.mp h
              obtain ⟨value, hValue, h⟩ := bind_eq_ok.mp h
              obtain ⟨more, hMore, -⟩ := bind_eq_ok.mp h
              exact ⟨⟨⟨first, hKey⟩, value, hValue⟩, more, hMore⟩
            · rintro ⟨⟨⟨first, hKey⟩, value, hValue⟩, more, hMore⟩
              exact ⟨_, bind_eq_ok.mpr ⟨first, hKey, bind_eq_ok.mpr ⟨value, hValue,
                bind_eq_ok.mpr ⟨more, hMore, rfl⟩⟩⟩⟩
      rw [sorted, sortable, Bool.and_eq_true, ← hEntries]
      constructor
      · rintro ⟨_, h⟩
        obtain ⟨_, hKeys, h⟩ := bind_eq_ok.mp h
        obtain ⟨fields, hFields, -⟩ := bind_eq_ok.mp h
        rw [raiseIf_eq_ok, Bool.not_eq_false'] at hKeys
        exact ⟨hKeys, fields, hFields⟩
      · rintro ⟨hKeys, fields, hFields⟩
        exact ⟨_, bind_eq_ok.mpr ⟨(), by rw [raiseIf_eq_ok, hKeys]; rfl,
          bind_eq_ok.mpr ⟨fields, hFields, rfl⟩⟩⟩
  | null => exact iff_of_true ⟨_, rfl⟩ rfl
  | bool b => exact iff_of_true ⟨_, rfl⟩ rfl
  | float x => exact iff_of_true ⟨_, rfl⟩ rfl
  | str s => exact iff_of_true ⟨_, rfl⟩ rfl
  | date typeName shown => exact iff_of_true ⟨_, rfl⟩ rfl
  | bytes shown => exact iff_of_true ⟨_, rfl⟩ rfl
  | set shown elements => exact iff_of_true ⟨_, rfl⟩ rfl

/-- The key `on` is a truth value, and does not compare with a text. -/
example : (YamlValue.map [(.str "rules", .map []), (.bool true, .null)]).sortable = false := by
  decide

section Plain

variable {y v : YamlValue} {entries : List (YamlKey × YamlValue)} {j : Json}

theorem isBytes_of_plain (h : y.plain = true) : y.isBytes = false := by
  cases y with
  | bytes shown => cases h
  | _ => rfl

/-- An entry of plain entries has a text as its key. -/
theorem plainEntries_cons {k : YamlKey} :
    plainEntries ((k, y) :: entries) = true ↔
      (∃ s, k = .str s) ∧ y.plain = true ∧ plainEntries entries = true := by
  rw [plainEntries, Bool.and_eq_true, Bool.and_eq_true, and_assoc]
  refine and_congr_left' ?_
  cases k with
  | str s => exact iff_of_true rfl ⟨s, rfl⟩
  | _ => exact iff_of_false Bool.false_ne_true (by rintro ⟨s, h⟩; cases h)

theorem comparable_plain (h : plainEntries entries = true) :
    YamlKey.comparable (entries.map Prod.fst) = true := by
  have hText : (entries.map Prod.fst).all YamlKey.isText = true := by
    induction entries with
    | nil => rfl
    | cons p rest ih =>
        obtain ⟨⟨s, hKey⟩, -, hRest⟩ := plainEntries_cons.mp h
        rw [List.map_cons, List.all_cons, hKey, ih hRest]
        rfl
  rw [YamlKey.comparable, hText]
  rfl

theorem dumpedInt_plain {i : Int} (h : (YamlKey.int i).printable = true) :
    dumpedInt i = .ok (.int i) := by
  rw [dumpedInt, h]
  rfl

/-- The items of a plain list are written as lookups see them. -/
theorem dumpedItems_plain {items : List YamlValue}
    (hItems : ∀ y ∈ items, y.plain = true → y.dumped = .ok y.lookups)
    (h : plainItems items = true) : dumpedItems items = .ok (itemLookups items) := by
  induction items with
  | nil => rfl
  | cons y rest ih =>
      rw [plainItems, Bool.and_eq_true] at h
      rw [List.forall_mem_cons] at hItems
      rw [dumpedItems, hItems.1 h.1, ih hItems.2 h.2, itemLookups, isBytes_of_plain h.1]
      rfl

/-- The items of a plain list are written as lookups see them, with sorted keys too. -/
theorem sortedItems_plain {items : List YamlValue}
    (hItems : ∀ y ∈ items, y.plain = true → y.sorted = .ok y.lookups)
    (h : plainItems items = true) : sortedItems items = .ok (itemLookups items) := by
  induction items with
  | nil => rfl
  | cons y rest ih =>
      rw [plainItems, Bool.and_eq_true] at h
      rw [List.forall_mem_cons] at hItems
      rw [sortedItems, hItems.1 h.1, ih hItems.2 h.2, itemLookups, isBytes_of_plain h.1]
      rfl

/-- The entries of a plain mapping are written as lookups see them. -/
theorem dumpedEntries_plain
    (hEntries : ∀ p ∈ entries, p.2.plain = true → p.2.dumped = .ok p.2.lookups)
    (h : plainEntries entries = true) : dumpedEntries entries = .ok (entryLookups entries) := by
  induction entries with
  | nil => rfl
  | cons p rest ih =>
      obtain ⟨k, y⟩ := p
      obtain ⟨⟨s, rfl⟩, hValue, hRest⟩ := plainEntries_cons.mp h
      rw [List.forall_mem_cons] at hEntries
      rw [dumpedEntries, hEntries.1 hValue, ih hEntries.2 hRest, entryLookups]
      rfl

/-- The entries of a plain mapping are sorted by their texts. -/
theorem sortedEntries_plain
    (hEntries : ∀ p ∈ entries, p.2.plain = true → p.2.sorted = .ok p.2.lookups)
    (h : plainEntries entries = true) :
    sortedEntries entries = .ok ((entryLookups entries).map fun p => (.str p.1, p)) := by
  induction entries with
  | nil => rfl
  | cons p rest ih =>
      obtain ⟨k, y⟩ := p
      obtain ⟨⟨s, rfl⟩, hValue, hRest⟩ := plainEntries_cons.mp h
      rw [List.forall_mem_cons] at hEntries
      rw [sortedEntries, hEntries.1 hValue, ih hEntries.2 hRest, entryLookups]
      rfl

/-- Keys that are texts are ordered as a dictionary of texts orders them. -/
theorem sortedFields_texts (pairs : List (String × Json)) :
    sortedFields (pairs.map fun p => (.str p.1, p)) = dictOf pairs := by
  have hText : ((pairs.map fun p => (YamlKey.str p.1, p)).all fun p => p.1.isText) = true := by
    simp [YamlKey.isText]
  rw [sortedFields, if_pos hText, List.map_map]
  simp only [Function.comp_def, List.map_id']

/-- A plain value is written as it is looked up. -/
theorem dumped_plain : y.plain = true → y.dumped = .ok y.lookups := by
  induction y using YamlValue.induction with
  | int i => exact dumpedInt_plain
  | seq items ih =>
      intro h
      rw [dumped, dumpedItems_plain ih h]
      rfl
  | map entries ih =>
      intro h
      rw [dumped, dumpedEntries_plain ih h]
      rfl
  | date typeName shown => exact fun h => (Bool.false_ne_true h).elim
  | bytes shown => exact fun h => (Bool.false_ne_true h).elim
  | set shown elements => exact fun h => (Bool.false_ne_true h).elim
  | null => exact fun _ => rfl
  | bool b => exact fun _ => rfl
  | float x => exact fun _ => rfl
  | str s => exact fun _ => rfl

/-- Its keys are texts, so it can also be written with sorted keys. -/
theorem sorted_plain : y.plain = true → y.sorted = .ok y.lookups := by
  induction y using YamlValue.induction with
  | int i => exact dumpedInt_plain
  | seq items ih =>
      intro h
      rw [sorted, sortedItems_plain ih h]
      rfl
  | map entries ih =>
      intro h
      rw [sorted, comparable_plain h, sortedEntries_plain ih h]
      change Except.ok (Json.obj (sortedFields _)) = Except.ok (Json.obj (dictOf _))
      rw [sortedFields_texts]
  | date typeName shown => exact fun h => (Bool.false_ne_true h).elim
  | bytes shown => exact fun h => (Bool.false_ne_true h).elim
  | set shown elements => exact fun h => (Bool.false_ne_true h).elim
  | null => exact fun _ => rfl
  | bool b => exact fun _ => rfl
  | float x => exact fun _ => rfl
  | str s => exact fun _ => rfl

theorem text_plain (h : y.plain = true) : y.text = y.lookups.text := by
  cases y with
  | date typeName shown => cases h
  | bytes shown => cases h
  | set shown elements => cases h
  | _ => rfl

/-- Looking an entry up and looking it up in the dictionary of the entries are the same. -/
theorem getField?_entryLookups (key : String) (entries : List (YamlKey × YamlValue)) :
    getField? key (dictOf (entryLookups entries)) = (entryAt? key entries).map lookups := by
  rw [getField?_dictOf]
  induction entries with
  | nil => rfl
  | cons p rest ih =>
      obtain ⟨k, y⟩ := p
      cases k with
      | str s =>
          rw [entryLookups, lookupLast_cons, ih, entryAt?]
          cases entryAt? key rest with
          | some v => rfl
          | none =>
              change (if s = key then some y.lookups else none) =
                (if s = key then some y else none).map lookups
              split <;> rfl
      | _ => exact ih

theorem plain_of_entryAt? {key : String} (hPlain : plainEntries entries = true)
    (h : entryAt? key entries = some v) : v.plain = true := by
  induction entries with
  | nil => cases h
  | cons p rest ih =>
      obtain ⟨k, y⟩ := p
      obtain ⟨⟨s, rfl⟩, hValue, hRest⟩ := plainEntries_cons.mp hPlain
      rw [entryAt?, Option.or_eq_some_iff] at h
      rcases h with h | ⟨-, h⟩
      · exact ih hRest h
      · split at h
        · exact Option.some.inj h ▸ hValue
        · cases h

/-- What `get` gives on a plain value is what it gives on its lookups. -/
theorem attrGet_plain {key : String} (hPlain : y.plain = true)
    (h : y.lookups.attrGet key y.lookups = .ok j) :
    ∃ v, y.attrGet key y = .ok v ∧ v.plain = true ∧ v.lookups = j := by
  cases y with
  | map entries =>
      rw [lookups, Json.attrGet, pure_eq_ok, getField?_entryLookups] at h
      refine ⟨(entryAt? key entries).getD (.map entries), rfl, ?_, ?_⟩
      · cases hEntry : entryAt? key entries with
        | none => exact hPlain
        | some v => exact plain_of_entryAt? hPlain hEntry
      · rw [← h]
        cases entryAt? key entries <;> rfl
  | _ => cases h

/-- The entries of a plain mapping as texts. -/
theorem texts_plain (h : plainEntries entries = true) :
    texts entries = (dictOf (entryLookups entries)).map fun p => (p.1, p.2.text) := by
  have hPairs : entries.map (fun p => (p.1.text, Json.str p.2.text)) =
      (entryLookups entries).map fun p => (p.1, Json.str p.2.text) := by
    induction entries with
    | nil => rfl
    | cons p rest ih =>
        obtain ⟨k, y⟩ := p
        obtain ⟨⟨s, rfl⟩, hValue, hRest⟩ := plainEntries_cons.mp h
        rw [List.map_cons, ih hRest, text_plain hValue, entryLookups, List.map_cons]
        rfl
  rw [texts, hPairs, dictOf_map fun j => Json.str j.text, List.map_map]
  rfl

/-- Fields are looked up in a document as they are in JSON. -/
theorem entryLookups_ofFields {fields : Fields} (h : ∀ p ∈ fields, (ofJson p.2).lookups = p.2) :
    entryLookups (ofFields fields) = fields := by
  induction fields with
  | nil => rfl
  | cons p rest ih =>
      obtain ⟨k, v⟩ := p
      rw [List.forall_mem_cons] at h
      rw [ofFields, entryLookups, h.1, ih h.2]

theorem isBytes_ofJson (j : Json) : (ofJson j).isBytes = false := by
  cases j <;> rfl

/-- A value of JSON is looked up as it is. -/
theorem lookups_ofJson (h : j.Normal) : (ofJson j).lookups = j := by
  induction j using Json.induction with
  | arr items ih =>
      rw [ofJson, lookups]
      congr 1
      rw [Json.Normal] at h
      induction items with
      | nil => rfl
      | cons j rest ihRest =>
          rw [List.forall_mem_cons] at ih
          rw [ofItems, itemLookups, isBytes_ofJson, if_neg Bool.false_ne_true, ih.1 h.1,
            ihRest ih.2 h.2]
  | obj fields ih =>
      rw [ofJson, lookups, entryLookups_ofFields fun p hp =>
        ih p hp (Json.normalFields_iff.mp h.2 p hp), dictOf_of_sorted h.1]
  | null => rfl
  | bool b => rfl
  | int i => rfl
  | float x => rfl
  | str s => rfl

end Plain

end YamlValue

namespace YamlDocument

def orEmpty (d : YamlDocument) : YamlDocument := if d.value.truthy then d else ⟨.map [], false⟩

def lookups (d : YamlDocument) : Json := d.value.lookups

def refuseCircular (d : YamlDocument) : Py Unit :=
  raiseIf d.circular .valueError "Circular reference detected"

/-- `json.loads(json.dumps(document))`. -/
def dumped (d : YamlDocument) : Py Json := do
  d.refuseCircular
  d.value.dumped

/-- What `json.dumps(document, sort_keys=True, default=str)` writes. -/
def sorted (d : YamlDocument) : Py Json := do
  d.refuseCircular
  d.value.sorted

/-- `json.dumps` takes the document with its keys sorted. -/
def Printable (d : YamlDocument) : Prop := d.circular = false ∧ d.value.sortable = true

instance (d : YamlDocument) : Decidable d.Printable := inferInstanceAs (Decidable (_ ∧ _))

/-- A document is written with sorted keys when it is printable. -/
theorem returns_sorted (d : YamlDocument) : returns d.sorted ↔ d.Printable := by
  rw [sorted, returns_bind, Printable, ← YamlValue.returns_sorted, refuseCircular]
  simp only [raiseIf_eq_ok]
  constructor
  · rintro ⟨-, hCircular, h⟩
    exact ⟨hCircular, h⟩
  · rintro ⟨hCircular, h⟩
    exact ⟨(), hCircular, h⟩

/-- A document of JSON: every key is a text. -/
def Plain (d : YamlDocument) : Prop := d.circular = false ∧ d.value.plain = true

instance (d : YamlDocument) : Decidable d.Plain := inferInstanceAs (Decidable (_ ∧ _))

variable {d : YamlDocument}

/-- A plain document is written as it is looked up, with sorted keys and without. -/
theorem Plain.sorted (h : d.Plain) : d.sorted = .ok d.lookups := by
  rw [YamlDocument.sorted, refuseCircular, h.1]
  exact YamlValue.sorted_plain h.2

theorem Plain.dumped (h : d.Plain) : d.dumped = .ok d.lookups := by
  rw [YamlDocument.dumped, refuseCircular, h.1]
  exact YamlValue.dumped_plain h.2

/-- The document of a value of JSON. -/
def ofJson (j : Json) : YamlDocument := ⟨.ofJson j, false⟩

/-- The document of a normal value is looked up as that value. -/
theorem lookups_ofJson {j : Json} (h : j.Normal) : (ofJson j).lookups = j :=
  YamlValue.lookups_ofJson h

end YamlDocument
end L0vi0x.Python
