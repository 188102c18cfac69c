import L0vi0x.Python.JsonRoundTrip

/-! The part of TOML that configuration files are written in here: on a line of its own a
table in brackets, or a key with a text, an integer, a truth value or an empty array. -/
namespace L0vi0x.Python.Toml

/-- The characters that no text of TOML holds: control characters but the tab. -/
def isControl (c : Char) : Bool := (c.toNat < 32 && c != '\t') || c.toNat == 127

def Plain (s : String) : Prop := ∀ c ∈ s.toList, isControl c = false

instance : DecidablePred Plain := fun s => List.decidableBAll _ s.toList

inductive Line
  | blank
  | table (name : String)
  | entry (key : String) (value : Json)

section Writing

def escape (c : Char) : List Char :=
  if c = '\\' then ['\\', '\\'] else if c = '"' then ['\\', '"'] else [c]

def textChars (s : String) : List Char := '"' :: (s.toList.flatMap escape ++ ['"'])

/-- The text of a value; of arrays only the empty one is written. -/
def valueChars : Json → List Char
  | .str s => textChars s
  | .int i => intText i
  | .bool b => if b then "true".toList else "false".toList
  | _ => ['[', ']']

def Line.chars : Line → List Char
  | .blank => []
  | .table name => '[' :: (name.toList ++ [']'])
  | .entry key value => key.toList ++ ' ' :: '=' :: ' ' :: valueChars value

def joinLines : List Line → List Char
  | [] => []
  | [line] => line.chars
  | line :: rest => line.chars ++ '\n' :: joinLines rest

/-- Lines are joined with line breaks between them. -/
theorem joinText_lines (lines : List Line) :
    (joinText "\n" (lines.map fun line => String.ofList line.chars)).toList = joinLines lines := by
  induction lines with
  | nil => rfl
  | cons line rest ih =>
      cases rest with
      | nil => simp [joinText, joinLines]
      | cons next rest =>
          simp only [List.map_cons] at ih ⊢
          rw [joinText, joinLines, String.toList_append, String.toList_append, ih,
            String.toList_ofList, List.append_assoc]
          · rfl
          · simp
          · simp

end Writing

section Reading

/-- A text behind its opening quote, and what follows its closing one. -/
def readText : List Char → Option (List Char × List Char)
  | [] => none
  | '"' :: rest => some ([], rest)
  | '\\' :: '\\' :: rest => (readText rest).map fun (s, tail) => ('\\' :: s, tail)
  | '\\' :: '"' :: rest => (readText rest).map fun (s, tail) => ('"' :: s, tail)
  | c :: rest =>
      if isControl c || c == '\\' then none
      else (readText rest).map fun (s, tail) => (c :: s, tail)

def readInt (cs : List Char) : Option (Json × List Char) :=
  match Json.readNumber (cs.takeWhile isNumberChar) with
  | some (.int i) => some (.int i, cs.dropWhile isNumberChar)
  | _ => none

def readValue (cs : List Char) : Option (Json × List Char) :=
  match cs with
  | '"' :: rest => (readText rest).map fun (s, tail) => (.str (String.ofList s), tail)
  | '[' :: ']' :: tail => some (.arr [], tail)
  | 't' :: 'r' :: 'u' :: 'e' :: tail => some (.bool true, tail)
  | 'f' :: 'a' :: 'l' :: 's' :: 'e' :: tail => some (.bool false, tail)
  | cs => readInt cs

def isKeyChar (c : Char) : Bool := c.isAlphanum || c == '_' || c == '-'

def isTableChar (c : Char) : Bool := isKeyChar c || c == '.'

def readEntry (cs : List Char) : Option (Line × List Char) :=
  match cs.dropWhile isKeyChar with
  | ' ' :: '=' :: ' ' :: rest => (readValue rest).map fun (value, tail) =>
      (.entry (String.ofList (cs.takeWhile isKeyChar)) value, tail)
  | _ => none

def readLine (cs : List Char) : Option (Line × List Char) :=
  match cs with
  | '[' :: rest => match rest.dropWhile isTableChar with
      | ']' :: tail => some (.table (String.ofList (rest.takeWhile isTableChar)), tail)
      | _ => none
  | cs => readEntry cs

/-- The lines of a document that are not blank; the length of the text is enough fuel. -/
def readLines : Nat → List Char → Option (List Line)
  | 0, _ => none
  | fuel + 1, cs =>
      match cs with
      | [] => some []
      | '\n' :: rest => readLines fuel rest
      | cs => match readLine cs with
          | some (line, []) => some [line]
          | some (line, '\n' :: rest) => (readLines fuel rest).map (line :: ·)
          | _ => none

def read (s : String) : Option (List Line) := readLines (s.toList.length + 1) s.toList

/-- The entries of a table, where `current` is the table that is open. -/
def entriesOf (table : String) : String → List Line → Fields
  | _, [] => []
  | current, .blank :: rest => entriesOf table current rest
  | _, .table name :: rest => entriesOf table name rest
  | current, .entry key value :: rest =>
      if current = table then (key, value) :: entriesOf table current rest
      else entriesOf table current rest

def tablesOf : List Line → List String
  | [] => []
  | .table name :: rest => name :: tablesOf rest
  | _ :: rest => tablesOf rest

end Reading

section RoundTrip

/-- A line that the reader knows how to read: its names are bare. -/
def Line.Named : Line → Prop
  | .blank => True
  | .table name => ∀ c ∈ name.toList, isTableChar c = true
  | .entry key value => (key.toList ≠ [] ∧ ∀ c ∈ key.toList, isKeyChar c = true) ∧
      ((∃ s, value = .str s) ∨ (∃ i, value = .int i) ∨ (∃ b, value = .bool b) ∨ value = .arr [])

/-- The text in a line holds no control character. -/
def Line.Plain : Line → Prop
  | .entry _ (.str s) => Toml.Plain s
  | _ => True

/-- The line of a text is plain when the text is. -/
@[simp] theorem Line.plain_blank : Line.blank.Plain := trivial
@[simp] theorem Line.plain_table (name : String) : (Line.table name).Plain := trivial
@[simp] theorem Line.plain_text (key s : String) :
    (Line.entry key (.str s)).Plain ↔ Toml.Plain s := Iff.rfl
@[simp] theorem Line.plain_int (key : String) (i : Int) : (Line.entry key (.int i)).Plain := trivial
@[simp] theorem Line.plain_bool (key : String) (b : Bool) : (Line.entry key (.bool b)).Plain :=
  trivial
@[simp] theorem Line.plain_empty (key : String) : (Line.entry key (.arr [])).Plain := trivial

def Line.isBlank : Line → Bool
  | .blank => true
  | _ => false

/-- An escaped text is read back unless it holds a control character. -/
theorem readText_escaped (s tail : List Char) :
    readText (s.flatMap escape ++ '"' :: tail) =
      if s.any isControl then none else some (s, tail) := by
  induction s with
  | nil => rfl
  | cons c s ih =>
      rw [List.flatMap_cons, List.append_assoc, List.any_cons]
      by_cases hSlash : c = '\\'
      · subst hSlash
        have hControl : isControl '\\' = false := by decide
        simp only [escape, if_pos, List.cons_append, List.nil_append, readText, ih, hControl,
          Bool.false_or]
        split <;> rfl
      · by_cases hQuote : c = '"'
        · subst hQuote
          have hControl : isControl '"' = false := by decide
          have hEscape : escape '"' = ['\\', '"'] := by decide
          simp only [hEscape, List.cons_append, List.nil_append, readText, ih, hControl,
            Bool.false_or]
          split <;> rfl
        · have hEscape : escape c = [c] := by rw [escape, if_neg hSlash, if_neg hQuote]
          have hRead : ∀ rest, readText (c :: rest) = if isControl c then none
              else (readText rest).map fun (t, tail) => (c :: t, tail) := by
            intro rest
            simp [readText, hSlash]
          rw [hEscape, List.singleton_append, hRead, ih]
          cases isControl c with
          | true => rfl
          | false =>
              rw [if_neg Bool.false_ne_true, Bool.false_or]
              split <;> rfl

/-- What stands behind a line: a line break or the end. -/
def EndsLine : List Char → Prop
  | [] => True
  | c :: _ => c = '\n'

/-- A number ends where its line does. -/
theorem EndsLine.stops {rest : List Char} (h : EndsLine rest) : Json.StopsNumber rest := by
  cases rest with
  | nil => trivial
  | cons c rest =>
      rw [show c = '\n' from h]
      rfl

/-- A number is read back at the end of its line. -/
theorem readValue_int (i : Int) {rest : List Char} (hEnd : EndsLine rest) :
    readValue (intText i ++ rest) = some (.int i, rest) := by
  have hNumber := Json.intText_number i
  obtain ⟨hTake, hDrop⟩ := Json.takeWhile_number hNumber hEnd.stops
  obtain ⟨c, tail, hHead, -⟩ := Json.number_head (Json.readNumber_intText i)
  have hc : isNumberChar c = true := hNumber c (hHead ▸ List.mem_cons_self ..)
  have hNot : ∀ d, isNumberChar d = false → c ≠ d := by
    rintro d hd rfl
    rw [hc] at hd
    cases hd
  have hInt : readValue (intText i ++ rest) = readInt (intText i ++ rest) := by
    rw [hHead, List.cons_append]
    have h₁ := hNot '"' (by decide)
    have h₂ := hNot '[' (by decide)
    have h₃ := hNot 't' (by decide)
    have h₄ := hNot 'f' (by decide)
    simp [readValue, h₁, h₂, h₃, h₄]
  rw [hInt, readInt, hTake, Json.readNumber_intText, hDrop]

/-- The value that a line holds, read at the end of the line. -/
theorem readValue_chars {key : String} {value : Json} (hNamed : (Line.entry key value).Named)
    {rest : List Char} (hEnd : EndsLine rest) [Decidable (Line.entry key value).Plain] :
    readValue (valueChars value ++ rest) =
      if (Line.entry key value).Plain then some (value, rest) else none := by
  rcases hNamed.2 with ⟨s, rfl⟩ | ⟨i, rfl⟩ | ⟨b, rfl⟩ | rfl
  · have hText : readValue (textChars s ++ rest) =
        if s.toList.any isControl then none else some (.str s, rest) := by
      have h := readText_escaped s.toList rest
      simp only [textChars, List.cons_append, List.append_assoc, List.nil_append, readValue, h]
      split
      · rfl
      · simp
    have hPlain : (Line.entry key (.str s)).Plain ↔ ¬ s.toList.any isControl = true := by
      simp [Line.Plain, Toml.Plain]
    rw [valueChars, hText]
    by_cases hControl : s.toList.any isControl = true
    · rw [if_pos hControl, if_neg fun h => hPlain.mp h hControl]
    · rw [if_neg hControl, if_pos (hPlain.mpr hControl)]
  · rw [valueChars, readValue_int i hEnd, if_pos (by trivial)]
  · rw [if_pos (by trivial)]
    cases b <;> rfl
  · rw [if_pos (by trivial)]
    rfl

/-- A line that sets a key. -/
theorem readLine_entry {key : String} {value : Json} (hNamed : (Line.entry key value).Named)
    {rest : List Char} (hEnd : EndsLine rest) [Decidable (Line.entry key value).Plain] :
    readLine ((Line.entry key value).chars ++ rest) =
      if (Line.entry key value).Plain then some (.entry key value, rest) else none := by
  obtain ⟨hNe, hKey⟩ := hNamed.1
  have hSpace : isKeyChar ' ' = false := by decide
  have hChars : (Line.entry key value).chars ++ rest =
      key.toList ++ ' ' :: '=' :: ' ' :: (valueChars value ++ rest) := by
    simp [Line.chars]
  have hTake : (key.toList ++ ' ' :: '=' :: ' ' :: (valueChars value ++ rest)).takeWhile isKeyChar =
      key.toList := by
    rw [List.takeWhile_append_of_pos hKey, List.takeWhile_cons_of_neg (by simp [hSpace]),
      List.append_nil]
  have hDrop : (key.toList ++ ' ' :: '=' :: ' ' :: (valueChars value ++ rest)).dropWhile isKeyChar =
      ' ' :: '=' :: ' ' :: (valueChars value ++ rest) := by
    rw [List.dropWhile_append_of_pos hKey, List.dropWhile_cons_of_neg (by simp [hSpace])]
  have hEntry : readLine (key.toList ++ ' ' :: '=' :: ' ' :: (valueChars value ++ rest)) =
      readEntry (key.toList ++ ' ' :: '=' :: ' ' :: (valueChars value ++ rest)) := by
    obtain ⟨c, cs, hHead⟩ := List.exists_cons_of_ne_nil hNe
    have hBracket : c ≠ '[' := by
      rintro rfl
      have hBad := hKey '[' (hHead ▸ List.mem_cons_self ..)
      revert hBad
      decide
    rw [hHead, List.cons_append]
    simp [readLine, hBracket]
  rw [hChars, hEntry, readEntry, hDrop]
  simp only [readValue_chars hNamed hEnd, hTake, String.ofList_toList]
  split <;> rfl

/-- The line of a table is read back. -/
theorem readLine_table {name : String} (hNamed : (Line.table name).Named) (rest : List Char) :
    readLine ((Line.table name).chars ++ rest) = some (.table name, rest) := by
  have hEnd : isTableChar ']' = false := by decide
  have hChars : (Line.table name).chars ++ rest = '[' :: (name.toList ++ ']' :: rest) := by
    simp [Line.chars]
  have hTake : (name.toList ++ ']' :: rest).takeWhile isTableChar = name.toList := by
    rw [List.takeWhile_append_of_pos hNamed, List.takeWhile_cons_of_neg (by simp [hEnd]),
      List.append_nil]
  have hDrop : (name.toList ++ ']' :: rest).dropWhile isTableChar = ']' :: rest := by
    rw [List.dropWhile_append_of_pos hNamed, List.dropWhile_cons_of_neg (by simp [hEnd])]
  rw [hChars, readLine, hDrop, hTake]
  simp

/-- The first character of a line that is not blank is no line break. -/
theorem Line.chars_head {line : Line} (hNamed : line.Named) (hBlank : line.isBlank = false) :
    ∃ c tail, line.chars = c :: tail ∧ c ≠ '\n' := by
  cases line with
  | blank => cases hBlank
  | table name => exact ⟨'[', _, rfl, by decide⟩
  | entry key value =>
      obtain ⟨c, cs, hHead⟩ := List.exists_cons_of_ne_nil hNamed.1.1
      refine ⟨c, _, by rw [Line.chars, hHead, List.cons_append], ?_⟩
      rintro rfl
      have hBad := hNamed.1.2 '\n' (hHead ▸ List.mem_cons_self ..)
      revert hBad
      decide

open Classical in
/-- A line is read back when it is plain, and is not read otherwise. -/
theorem readLine_chars {line : Line} (hNamed : line.Named) (hBlank : line.isBlank = false)
    {rest : List Char} (hEnd : EndsLine rest) :
    readLine (line.chars ++ rest) = if line.Plain then some (line, rest) else none := by
  cases line with
  | blank => cases hBlank
  | table name => rw [readLine_table hNamed, if_pos (by trivial)]
  | entry key value => exact readLine_entry hNamed hEnd

/-- A line that is read is followed by the rest of the document. -/
theorem readLines_step {fuel : Nat} {c : Char} {cs : List Char} (hc : c ≠ '\n') :
    readLines (fuel + 1) (c :: cs) = match readLine (c :: cs) with
      | some (line, []) => some [line]
      | some (line, '\n' :: rest) => (readLines fuel rest).map (line :: ·)
      | _ => none := by
  rw [readLines.eq_def]
  simp only
  split
  · rename_i h
    cases h
  · rename_i h
    exact absurd (List.cons.inj h).1 hc
  · rfl

open Classical in
/-- What is written line by line is read back, unless a text holds a control character. -/
theorem readLines_joinLines {lines : List Line} (hNamed : ∀ line ∈ lines, line.Named) {fuel : Nat}
    (hFuel : (joinLines lines).length < fuel) :
    readLines fuel (joinLines lines) = if ∀ line ∈ lines, line.Plain
      then some (lines.filter fun line => !line.isBlank) else none := by
  induction lines generalizing fuel with
  | nil =>
      obtain ⟨n, rfl⟩ := Nat.exists_eq_add_of_lt hFuel
      rw [if_pos (by simp)]
      simp only [joinLines, List.length_nil, Nat.zero_add]
      rfl
  | cons line rest ih =>
      obtain ⟨n, rfl⟩ := Nat.exists_eq_add_of_lt (Nat.lt_of_le_of_lt (Nat.zero_le _) hFuel)
      rw [Nat.zero_add] at hFuel ⊢
      rw [List.forall_mem_cons] at hNamed
      by_cases hBlank : line.isBlank = true
      · obtain rfl : line = .blank := by
          cases line <;> first | rfl | cases hBlank
        cases rest with
        | nil => simp [joinLines, Line.chars, readLines, Line.isBlank, Line.Plain]
        | cons next rest =>
            have hStep : readLines (n + 1) (joinLines (.blank :: next :: rest)) =
                readLines n (joinLines (next :: rest)) := rfl
            have hLength : (joinLines (next :: rest)).length < n := by
              simp only [joinLines, Line.chars, List.nil_append, List.length_cons] at hFuel ⊢
              omega
            rw [hStep, ih hNamed.2 hLength]
            simp [Line.Plain, Line.isBlank]
      · rw [Bool.not_eq_true] at hBlank
        obtain ⟨c, tail, hHead, hc⟩ := Line.chars_head hNamed.1 hBlank
        have hKeep : (line :: rest).filter (fun line => !line.isBlank) =
            line :: rest.filter fun line => !line.isBlank := by
          rw [List.filter_cons_of_pos (by simp [hBlank])]
        rw [hKeep]
        simp only [List.forall_mem_cons]
        cases rest with
        | nil =>
            have hRead := @readLine_chars line hNamed.1 hBlank [] trivial
            rw [List.append_nil] at hRead
            rw [joinLines, hHead, readLines_step hc, ← hHead, hRead]
            by_cases hPlain : line.Plain
            · simp [hPlain]
            · simp [hPlain]
        | cons next rest =>
            have hRead := @readLine_chars line hNamed.1 hBlank ('\n' :: joinLines (next :: rest)) rfl
            have hLength : (joinLines (next :: rest)).length < n := by
              simp only [joinLines, List.length_append, List.length_cons] at hFuel ⊢
              omega
            have hJoin : joinLines (line :: next :: rest) =
                c :: (tail ++ '\n' :: joinLines (next :: rest)) := by
              rw [joinLines, hHead, List.cons_append]
              simp
            rw [hHead, List.cons_append] at hRead
            rw [hJoin, readLines_step hc, hRead]
            by_cases hPlain : line.Plain
            · rw [if_pos hPlain]
              change (readLines n (joinLines (next :: rest))).map _ = _
              rw [ih hNamed.2 hLength]
              by_cases hRest : ∀ line ∈ next :: rest, line.Plain
              · rw [if_pos hRest, if_pos ⟨hPlain, hRest⟩]
                rfl
              · rw [if_neg hRest, if_neg fun h => hRest h.2]
                rfl
            · simp [hPlain]

end RoundTrip
end L0vi0x.Python.Toml
