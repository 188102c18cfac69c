import L0vi0x.Python.JsonText

/-! `loads` inverts `dumps` on values whose objects are in key order, so that
the canonical text determines the value. The proof follows the emitter; the
fuel of the reader is compared with the length of the text still to be read. -/
namespace L0vi0x.Python.Json

/-- A text does not go on with a character of a number token. -/
def StopsNumber : List Char → Prop
  | [] => True
  | c :: _ => isNumberChar c = false

/-- Four hexadecimal digits are read back as their number. -/
theorem readUnit_digits {n : Nat} (h : n < 65536) (rest : List Char) :
    readUnit (hexDigit (n / 4096 % 16) :: hexDigit (n / 256 % 16) :: hexDigit (n / 16 % 16) ::
      hexDigit (n % 16) :: rest) = some (n, rest) := by
  have hDigit : ∀ m, hexValue? (hexDigit (m % 16)) = some (m % 16) :=
    fun m => hexValue?_hexDigit _ (Nat.mod_lt _ (by decide))
  have hSum : 4096 * (n / 4096 % 16) + 256 * (n / 256 % 16) + 16 * (n / 16 % 16) + n % 16 = n := by
    omega
  simp only [readUnit, hDigit, Option.bind_eq_bind, Option.bind_some, hSum]

/-- Characters are no surrogates. -/
theorem toNat_not_surrogate (c : Char) :
    c.toNat < 55296 ∨ (57343 < c.toNat ∧ c.toNat < 1114112) := c.valid

/-- An escaped character of the basic plane is read back. -/
theorem readEscape_plain {c : Char} (h : c.toNat < 65536) (rest : List Char) :
    readEscape ((escapeUnit c.toNat).drop 2 ++ rest) = some (c, rest) := by
  have hChar := toNat_not_surrogate c
  have hHigh : ¬ (55296 ≤ c.toNat ∧ c.toNat ≤ 56319) := by omega
  have hLow : ¬ (56320 ≤ c.toNat ∧ c.toNat ≤ 57343) := by omega
  simp only [readEscape, escapeUnit, List.drop_succ_cons, List.drop_zero, List.cons_append,
    List.nil_append, readUnit_digits h, Option.bind_eq_bind, Option.bind_some, hHigh, hLow,
    ↓reduceIte, Char.ofNat_toNat]

/-- Two escaped surrogates are read back as the character that they encode. -/
theorem readEscape_units (high low : Nat) (hHigh : 55296 ≤ high ∧ high ≤ 56319)
    (hLow : 56320 ≤ low ∧ low ≤ 57343) (rest : List Char) :
    readEscape ((escapeUnit high).drop 2 ++ escapeUnit low ++ rest) =
      some (Char.ofNat (65536 + (high - 55296) * 1024 + (low - 56320)), rest) := by
  have hFirst : high < 65536 := by omega
  have hSecond : low < 65536 := by omega
  simp only [readEscape, escapeUnit, List.drop_succ_cons, List.drop_zero, List.cons_append,
    List.nil_append, readUnit_digits hFirst, readUnit_digits hSecond, Option.bind_eq_bind,
    Option.bind_some, if_pos hHigh, if_pos hLow]

/-- An escaped character above the basic plane is read back. -/
theorem readEscape_pair {c : Char} (h : ¬ c.toNat < 65536) (rest : List Char) :
    readEscape ((escapeUnit (55296 + (c.toNat - 65536) / 1024)).drop 2 ++
      escapeUnit (56320 + (c.toNat - 65536) % 1024) ++ rest) = some (c, rest) := by
  have hChar := toNat_not_surrogate c
  have hVal : 65536 + (55296 + (c.toNat - 65536) / 1024 - 55296) * 1024 +
      (56320 + (c.toNat - 65536) % 1024 - 56320) = c.toNat := by omega
  have hRead := readEscape_units (55296 + (c.toNat - 65536) / 1024)
    (56320 + (c.toNat - 65536) % 1024) (by omega) (by omega) rest
  rw [hVal, Char.ofNat_toNat] at hRead
  exact hRead

/-- Every character is read back from its escape. -/
theorem readChar_escapeChar (c : Char) (rest : List Char) :
    readChar (escapeChar c ++ rest) = some (c, rest) := by
  unfold escapeChar
  split_ifs with h₁ h₂ h₃ h₄ h₅ h₆ h₇ h₈ h₉
  · rw [h₁]; rfl
  · rw [h₂]; rfl
  · rw [h₃]; rfl
  · rw [h₄]; rfl
  · rw [h₅]; rfl
  · have hc : c = Char.ofNat 8 := by rw [← h₆, Char.ofNat_toNat]
    rw [hc]; rfl
  · have hc : c = Char.ofNat 12 := by rw [← h₇, Char.ofNat_toNat]
    rw [hc]; rfl
  · have hNot : ¬ c.toNat < 32 := by omega
    simp only [List.cons_append, List.nil_append]
    rw [readChar.eq_11 c rest (by rintro _ rfl; exact absurd rfl h₂)
      (by rintro _ rfl; exact absurd rfl h₂) (by rintro _ rfl; exact absurd rfl h₂)
      (by rintro _ rfl; exact absurd rfl h₂) (by rintro _ rfl; exact absurd rfl h₂)
      (by rintro _ rfl; exact absurd rfl h₂) (by rintro _ rfl; exact absurd rfl h₂)
      (by rintro _ rfl; exact absurd rfl h₂) (by rintro _ rfl; exact absurd rfl h₂)
      (by rintro rfl; exact absurd rfl h₂), if_neg hNot]
  · exact readEscape_plain h₉ rest
  · exact readEscape_pair h₉ rest

/-- An escaped character does not begin with the closing quote. -/
theorem escapeChar_head (c : Char) : ∃ d tail, escapeChar c = d :: tail ∧ d ≠ '"' := by
  unfold escapeChar
  split_ifs with h₁
  all_goals first
    | exact ⟨_, _, rfl, by decide⟩
    | exact ⟨_, _, rfl, h₁⟩

/-- A text that does not end here is read one character further. -/
theorem readText_step {fuel : Nat} {d : Char} {tail : List Char} (hd : d ≠ '"') :
    readText (fuel + 1) (d :: tail) = (readChar (d :: tail)).bind fun (c, rest) =>
      (readText fuel rest).bind fun (more, last) => some (c :: more, last) := by
  rw [readText.eq_3 _ _ (by rintro _ h; exact hd (List.cons.inj h).1)]
  rfl

/-- The escapes of a text are read back up to the closing quote. -/
theorem readText_escaped (s : List Char) (fuel : Nat) (h : s.length < fuel) (rest : List Char) :
    readText fuel (s.flatMap escapeChar ++ '"' :: rest) = some (s, rest) := by
  induction s generalizing fuel with
  | nil =>
      obtain ⟨n, rfl⟩ := Nat.exists_eq_add_of_lt h
      simp [readText]
  | cons c s ih =>
      obtain ⟨n, rfl⟩ : ∃ n, fuel = n + 1 := ⟨fuel - 1, by simp at h; omega⟩
      obtain ⟨d, tail, hHead, hNe⟩ := escapeChar_head c
      have hRead := readChar_escapeChar c (s.flatMap escapeChar ++ '"' :: rest)
      rw [List.flatMap_cons, List.append_assoc]
      rw [hHead, List.cons_append] at hRead ⊢
      rw [readText_step hNe, hRead]
      simp [ih n (by simp at h; omega)]

theorem escapeChar_length_pos (c : Char) : 0 < (escapeChar c).length := by
  obtain ⟨d, tail, hHead, _⟩ := escapeChar_head c
  simp [hHead]

/-- No character is escaped to nothing. -/
theorem length_le_escaped (s : List Char) : s.length ≤ (s.flatMap escapeChar).length := by
  induction s with
  | nil => simp
  | cons c s ih =>
      have := escapeChar_length_pos c
      simp only [List.length_cons, List.flatMap_cons, List.length_append]
      omega

/-- A text ends at its closing quote, whatever follows. -/
theorem readText_emitText (s : String) {fuel : Nat} (h : (emitText s).length ≤ fuel)
    (rest : List Char) :
    readText fuel ((s.toList.flatMap escapeChar ++ ['"']) ++ rest) = some (s.toList, rest) := by
  have hLen := length_le_escaped s.toList
  simp only [emitText, List.length_cons, List.length_append] at h
  simpa using readText_escaped s.toList fuel (by omega) rest

/-- A number token ends where no character of a number follows. -/
theorem takeWhile_number {token rest : List Char} (hAll : ∀ c ∈ token, isNumberChar c = true)
    (hStop : StopsNumber rest) :
    (token ++ rest).takeWhile isNumberChar = token ∧
      (token ++ rest).dropWhile isNumberChar = rest := by
  induction token with
  | nil =>
      cases rest with
      | nil => simp
      | cons c rest =>
          have hc : isNumberChar c = false := hStop
          simp [hc]
  | cons c token ih =>
      have hc := hAll c (List.mem_cons_self ..)
      obtain ⟨hTake, hDrop⟩ := ih fun d hd => hAll d (List.mem_cons_of_mem _ hd)
      simp [hc, hTake, hDrop]

/-- A token of number characters is read as a number, whatever follows it. -/
theorem readValue_number {fuel : Nat} {c : Char} {token rest : List Char}
    (hAll : ∀ d ∈ c :: token, isNumberChar d = true) (hMinus : c = '-' → token ≠ [])
    (hStop : StopsNumber rest) :
    readValue (fuel + 1) (c :: token ++ rest) =
      (readNumber (c :: token)).map fun j => (j, rest) := by
  obtain ⟨hTake, hDrop⟩ := takeWhile_number hAll hStop
  have hHead : isNumberChar c = true := hAll c (List.mem_cons_self ..)
  have hNot : ∀ d, isNumberChar d = false → c ≠ d := by
    rintro d hd rfl
    rw [hHead] at hd
    cases hd
  rw [readValue.eq_def]
  simp only [List.cons_append] at hTake hDrop ⊢
  split
  iterate 8
    next h => exact absurd (List.cons.inj h).1 (hNot _ (by decide))
  · next h =>
      obtain ⟨hc, hTail⟩ := List.cons.inj h
      cases token with
      | nil => exact absurd rfl (hMinus hc)
      | cons d token =>
          have hd := hAll d (by simp)
          rw [(List.cons.inj hTail).1] at hd
          exact absurd hd (by decide)
  · rw [hTake, hDrop]

/-- An integer is written in characters of a number. -/
theorem intText_number (i : Int) : ∀ c ∈ intText i, isNumberChar c = true := by
  have hDigits : ∀ n, ∀ c ∈ Nat.toDigits 10 n, isNumberChar c = true := by
    intro n c hc
    have hDigit := Nat.isDigit_of_mem_toDigits (by decide) (by decide) hc
    simp [isNumberChar, hDigit]
  cases i with
  | ofNat n => exact hDigits n
  | negSucc n =>
      intro c hc
      rcases List.mem_cons.mp hc with rfl | hc
      · decide
      · exact hDigits (n + 1) c hc

theorem toDigits_all (n : Nat) : (Nat.toDigits 10 n).all Char.isDigit = true := by
  rw [List.all_eq_true]
  exact fun c hc => Nat.isDigit_of_mem_toDigits (by decide) (by decide) hc

theorem toDigits_head_ne_minus (n : Nat) : ∀ rest, Nat.toDigits 10 n ≠ '-' :: rest := by
  intro rest h
  have hAll := toDigits_all n
  rw [h] at hAll
  simp at hAll

/-- The digits of a natural number have no sign. -/
theorem splitSign_toDigits (n : Nat) :
    splitSign (Nat.toDigits 10 n) = (false, Nat.toDigits 10 n) := by
  unfold splitSign
  split
  · next rest hEq => exact absurd hEq (toDigits_head_ne_minus n rest)
  · rfl

theorem readNumber_intText (i : Int) : readNumber (intText i) = some (.int i) := by
  cases i with
  | ofNat n =>
      have hBody : readNumber (Nat.toDigits 10 n) = some (.int (n : Int)) := by
        simp [readNumber, splitSign_toDigits, toDigits_all, Nat.ofDigitChars_ten_toDigits]
      exact hBody
  | negSucc n =>
      simp only [intText, readNumber, splitSign, toDigits_all, Nat.ofDigitChars_ten_toDigits,
        ↓reduceIte]
      rfl

/-- A float is written in characters of a number. -/
theorem render_number (x : FiniteFloat) :
    ∀ c ∈ render x.negative x.magnitude, isNumberChar c = true :=
  List.all_eq_true.mp x.shape

theorem readFloat_render (x : FiniteFloat) :
    readFloat (render x.negative x.magnitude) = some (.finite x) := by
  simp only [readFloat, x.reads, x.shape, and_self, ↓reduceDIte]

/-- A finite float is not written with digits alone. -/
theorem readNumber_render (x : FiniteFloat) :
    readNumber (render x.negative x.magnitude) = some (.float (.finite x)) := by
  have hReads := x.reads
  rcases hSplit : splitSign (render x.negative x.magnitude) with ⟨negative, body⟩
  have hDigits : ¬ body.all Char.isDigit = true := by
    intro hAll
    simp only [readFinite, hSplit, if_pos hAll] at hReads
    cases hReads
  simp only [readNumber, hSplit, if_neg hDigits, readFloat_render, Option.map_some]

theorem skipSpace_cons {c : Char} (h : isJsonSpace c = false) (rest : List Char) :
    skipSpace (c :: rest) = c :: rest := by
  simp [skipSpace, h]

/-- What a number text begins with, and that a sign is not all of it. -/
theorem number_head {token : List Char} {j : Json} (h : readNumber token = some j) :
    ∃ c tail, token = c :: tail ∧ (c = '-' → tail ≠ []) := by
  have hNil : readNumber [] = none := by decide
  have hMinus : readNumber ['-'] = none := by decide
  cases token with
  | nil =>
      rw [hNil] at h
      cases h
  | cons c tail =>
      refine ⟨c, tail, rfl, ?_⟩
      rintro rfl rfl
      rw [hMinus] at h
      cases h

/-- The number texts of the emitter, read back. -/
theorem readValue_token {fuel : Nat} {token rest : List Char} {j : Json} (hFuel : 0 < fuel)
    (hAll : ∀ c ∈ token, isNumberChar c = true) (hRead : readNumber token = some j)
    (hStop : StopsNumber rest) : readValue fuel (token ++ rest) = some (j, rest) := by
  obtain ⟨c, tail, rfl, hMinus⟩ := number_head hRead
  obtain ⟨n, rfl⟩ := Nat.exists_eq_add_of_lt hFuel
  rw [Nat.zero_add, readValue_number hAll hMinus hStop, hRead]
  rfl

/-- A number begins neither with a space nor with a bracket. -/
theorem number_not_bracket {c : Char} (h : isNumberChar c = true) :
    isJsonSpace c = false ∧ c ≠ ']' := by
  have hNot : ∀ d, isNumberChar d = false → c ≠ d := by
    rintro d hd rfl
    rw [h] at hd
    cases hd
  simp [isJsonSpace, hNot ' ' (by decide), hNot '\n' (by decide), hNot '\r' (by decide),
    hNot '\t' (by decide), hNot ']' (by decide)]

/-- A token that is read as a number begins with a character that is no space and no bracket. -/
theorem token_head {token : List Char} {j : Json} (hAll : ∀ c ∈ token, isNumberChar c = true)
    (hRead : readNumber token = some j) :
    ∃ c tail, token = c :: tail ∧ isJsonSpace c = false ∧ c ≠ ']' := by
  obtain ⟨c, tail, rfl, _⟩ := number_head hRead
  exact ⟨c, tail, rfl, number_not_bracket (hAll c (List.mem_cons_self ..))⟩

/-- No emitted value begins with white space or with a closing bracket. -/
theorem emit_head (j : Json) :
    ∃ c tail, emit j = c :: tail ∧ isJsonSpace c = false ∧ c ≠ ']' := by
  cases j with
  | null => exact ⟨_, _, rfl, by decide, by decide⟩
  | bool b => cases b <;> exact ⟨_, _, rfl, by decide, by decide⟩
  | int i => exact token_head (intText_number i) (readNumber_intText i)
  | float x =>
      cases x with
      | nan => exact ⟨_, _, rfl, by decide, by decide⟩
      | inf negative => cases negative <;> exact ⟨_, _, rfl, by decide, by decide⟩
      | finite x => exact token_head (render_number x) (readNumber_render x)
  | str s => exact ⟨_, _, rfl, by decide, by decide⟩
  | arr items => exact ⟨_, _, rfl, by decide, by decide⟩
  | obj fields => exact ⟨_, _, rfl, by decide, by decide⟩

/-- What the round trip says of one value: enough fuel reads its text back, and
leaves the rest. -/
def ReadsBack (j : Json) : Prop :=
  ∀ (fuel : Nat) (rest : List Char), (emit j).length ≤ fuel → StopsNumber rest →
    readValue fuel (emit j ++ rest) = some (j, rest)

theorem emitMoreItems_cons (j : Json) (rest : List Json) :
    emitMoreItems (j :: rest) = ',' :: emitItems (j :: rest) := by
  simp [emitMoreItems, emitItems]

theorem emitMoreFields_cons (p : String × Json) (rest : Fields) :
    emitMoreFields (p :: rest) = ',' :: emitFields (p :: rest) := by
  simp [emitMoreFields, emitFields]

/-- No value is written with a space at its head. -/
theorem skipSpace_emit (j : Json) (rest : List Char) :
    skipSpace (emit j ++ rest) = emit j ++ rest := by
  obtain ⟨c, tail, hHead, hSpace, _⟩ := emit_head j
  rw [hHead, List.cons_append, skipSpace_cons hSpace]

/-- No list of items is written with a space at its head. -/
theorem skipSpace_emitItems (j : Json) (items : List Json) (rest : List Char) :
    skipSpace (emitItems (j :: items) ++ rest) = emitItems (j :: items) ++ rest := by
  simp only [emitItems, List.append_assoc, skipSpace_emit]

theorem emit_length_pos (j : Json) : 0 < (emit j).length := by
  obtain ⟨c, tail, hHead, _⟩ := emit_head j
  simp [hHead]

/-- The items of an array are read back, each by its own round trip. -/
theorem readItems_emit {items : List Json} (hItems : ∀ j ∈ items, ReadsBack j) (hNe : items ≠ [])
    {fuel : Nat} (hFuel : (emitItems items).length ≤ fuel) (rest : List Char) :
    readItems fuel (emitItems items ++ rest) = some (items, rest) := by
  induction items generalizing fuel with
  | nil => exact absurd rfl hNe
  | cons j more ih =>
      have hPos := emit_length_pos j
      have hFirst := hItems j (List.mem_cons_self ..)
      have hMore : ∀ k ∈ more, ReadsBack k := fun k hk => hItems k (List.mem_cons_of_mem _ hk)
      simp only [emitItems, List.length_append] at hFuel
      obtain ⟨n, rfl⟩ := Nat.exists_eq_add_of_lt (Nat.lt_of_lt_of_le hPos (by omega : _ ≤ fuel))
      simp only [emitItems, List.append_assoc, Nat.zero_add, readItems]
      cases more with
      | nil =>
          simp only [emitMoreItems, List.length_singleton] at hFuel ⊢
          rw [hFirst n _ (by omega) (by exact rfl)]
          rfl
      | cons k more =>
          rw [emitMoreItems_cons] at hFuel ⊢
          simp only [List.length_cons] at hFuel
          rw [hFirst n _ (by omega) (by exact rfl)]
          simp only [Option.bind_eq_bind, Option.bind_some, List.cons_append,
            skipSpace_cons (c := ',') (by decide), skipSpace_emitItems]
          rw [ih hMore (by simp) (by omega)]
          rfl

/-- A field up to its value: the key and the colon. -/
theorem readFields_key {n : Nat} (k : String) (cs : List Char) (hFuel : (emitText k).length ≤ n + 1) :
    readFields (n + 1) (emitText k ++ ':' :: cs) =
      (readValue n (skipSpace cs)).bind fun (v, rest) =>
        match skipSpace rest with
        | '}' :: tail => some ([(k, v)], tail)
        | ',' :: more => (readFields n (skipSpace more)).bind fun (fields, tail) =>
            some ((k, v) :: fields, tail)
        | _ => none := by
  have hKey := readText_emitText k hFuel (':' :: cs)
  have hColon : skipSpace (':' :: cs) = ':' :: cs := skipSpace_cons (by decide) cs
  generalize hRest : (readValue n (skipSpace cs)).bind _ = answer
  simp only [emitText, List.cons_append, readFields, hKey, Option.bind_eq_bind, Option.bind_some,
    hColon, String.ofList_toList]
  exact hRest

/-- The fields of an object are read back, each by its own round trip. -/
theorem readFields_emit {fields : Fields} (hFields : ∀ p ∈ fields, ReadsBack p.2)
    (hNe : fields ≠ []) {fuel : Nat} (hFuel : (emitFields fields).length ≤ fuel)
    (rest : List Char) :
    readFields fuel (emitFields fields ++ rest) = some (fields, rest) := by
  induction fields generalizing fuel with
  | nil => exact absurd rfl hNe
  | cons p more ih =>
      obtain ⟨k, v⟩ := p
      have hPos := emit_length_pos v
      have hFirst : ReadsBack v := hFields (k, v) (List.mem_cons_self ..)
      have hMore : ∀ q ∈ more, ReadsBack q.2 := fun q hq => hFields q (List.mem_cons_of_mem _ hq)
      simp only [emitFields, List.length_append, List.length_cons] at hFuel
      obtain ⟨n, rfl⟩ := Nat.exists_eq_add_of_lt (Nat.lt_of_lt_of_le hPos (by omega : _ ≤ fuel))
      simp only [emitFields, List.append_assoc, List.cons_append, Nat.zero_add] at hFuel ⊢
      rw [readFields_key k _ (by omega), skipSpace_emit]
      cases more with
      | nil =>
          simp only [emitMoreFields, List.length_singleton] at hFuel ⊢
          rw [hFirst n _ (by omega) (by exact rfl)]
          rfl
      | cons q more =>
          have hSpace : ∀ tail, skipSpace (emitFields (q :: more) ++ tail) =
              emitFields (q :: more) ++ tail := by
            intro tail
            exact skipSpace_cons (c := '"') (by decide) _
          rw [emitMoreFields_cons] at hFuel ⊢
          simp only [List.length_cons] at hFuel
          rw [hFirst n _ (by omega) (by exact rfl)]
          simp only [Option.bind_some, List.cons_append, skipSpace_cons (c := ',') (by decide),
            hSpace]
          rw [ih hMore (by simp) (by omega)]
          rfl

/-- An array that is not empty is read from its items. -/
theorem readValue_array {n : Nat} {c : Char} {tail : List Char} (hSpace : isJsonSpace c = false)
    (hBracket : c ≠ ']') :
    readValue (n + 1) ('[' :: c :: tail) =
      (readItems n (c :: tail)).map fun (items, rest) => (.arr items, rest) := by
  simp only [readValue, skipSpace_cons hSpace]
  split
  · next h => exact absurd (List.cons.inj h).1 hBracket
  · rfl

/-- An object with a key is read from its fields. -/
theorem readValue_object {n : Nat} (tail : List Char) :
    readValue (n + 1) ('{' :: '"' :: tail) =
      (readFields n ('"' :: tail)).map fun (fields, rest) => (.obj (dictOf fields), rest) := by
  simp only [readValue, skipSpace_cons (c := '"') (by decide)]
  rfl

/-- The text of a value in normal form, followed by anything that does not
continue a number, is read back as that value. -/
theorem readsBack_of_normal (j : Json) : j.Normal → ReadsBack j := by
  induction j using Json.induction with
  | null =>
      intro _ fuel rest hFuel _
      obtain ⟨n, rfl⟩ := Nat.exists_eq_add_of_le' (Nat.le_trans (emit_length_pos _) hFuel)
      rfl
  | bool b =>
      intro _ fuel rest hFuel _
      obtain ⟨n, rfl⟩ := Nat.exists_eq_add_of_le' (Nat.le_trans (emit_length_pos _) hFuel)
      cases b <;> rfl
  | int i =>
      intro _ fuel rest hFuel hStop
      exact readValue_token (Nat.lt_of_lt_of_le (emit_length_pos (.int i)) hFuel)
        (intText_number i) (readNumber_intText i) hStop
  | float x =>
      intro _ fuel rest hFuel hStop
      have hPos := Nat.lt_of_lt_of_le (emit_length_pos (.float x)) hFuel
      cases x with
      | nan =>
          obtain ⟨n, rfl⟩ := Nat.exists_eq_add_of_le' hPos
          rfl
      | inf negative =>
          obtain ⟨n, rfl⟩ := Nat.exists_eq_add_of_le' hPos
          cases negative <;> rfl
      | finite x =>
          exact readValue_token hPos (render_number x) (readNumber_render x) hStop
  | str s =>
      intro _ fuel rest hFuel _
      obtain ⟨n, rfl⟩ := Nat.exists_eq_add_of_le' (Nat.le_trans (emit_length_pos _) hFuel)
      have hText := readText_emitText s hFuel rest
      simp only [emit, emitText, List.cons_append, readValue, hText, Option.map_some,
        String.ofList_toList]
  | arr items ih =>
      intro hNormal fuel rest hFuel _
      have hItems : ∀ j ∈ items, ReadsBack j := fun j hj =>
        ih j hj (normalItems_iff.mp (by simpa [Normal] using hNormal) j hj)
      obtain ⟨n, rfl⟩ := Nat.exists_eq_add_of_le' (Nat.le_trans (emit_length_pos _) hFuel)
      simp only [emit, List.length_cons] at hFuel
      cases items with
      | nil => rfl
      | cons j more =>
          have hRead := readItems_emit hItems (by simp) (Nat.le_of_succ_le_succ hFuel) rest
          obtain ⟨c, tail, hHead, hSpace, hBracket⟩ := emit_head j
          simp only [emit, emitItems, hHead, List.cons_append] at hRead ⊢
          rw [readValue_array hSpace hBracket, hRead]
          rfl
  | obj fields ih =>
      intro hNormal fuel rest hFuel _
      simp only [Normal] at hNormal
      have hFields : ∀ p ∈ fields, ReadsBack p.2 := fun p hp =>
        ih p hp (normalFields_iff.mp hNormal.2 p hp)
      obtain ⟨n, rfl⟩ := Nat.exists_eq_add_of_le' (Nat.le_trans (emit_length_pos _) hFuel)
      simp only [emit, List.length_cons] at hFuel
      cases fields with
      | nil => rfl
      | cons p more =>
          have hRead := readFields_emit hFields (by simp) (Nat.le_of_succ_le_succ hFuel) rest
          simp only [emit, emitFields, emitText, List.cons_append] at hRead ⊢
          rw [readValue_object, hRead, Option.map_some]
          simp only [dictOf_of_sorted hNormal.1]

/-- `json.loads` reads back what `json.dumps` writes of a normal value. -/
theorem loads_dumps {j : Json} (h : j.Normal) : loads (dumps j) = .ok j := by
  have hRead := readsBack_of_normal j h ((emit j).length + 1) [] (by omega) trivial
  have hSpace := skipSpace_emit j []
  rw [List.append_nil] at hRead hSpace
  simp only [loads, dumps, String.toList_ofList, hSpace, hRead]
  rfl

/-- The canonical text determines the value. -/
theorem dumps_injective {a b : Json} (ha : a.Normal) (hb : b.Normal) (h : dumps a = dumps b) :
    a = b := by
  have hLoad := loads_dumps ha
  rw [h, loads_dumps hb] at hLoad
  exact (Except.ok.inj hLoad).symm

theorem hexDigit_ne_return : ∀ n < 16, hexDigit n ≠ '\r' := by decide

theorem no_return_escapeUnit (n : Nat) : '\r' ∉ escapeUnit n := by
  have hDigit : ∀ m, '\r' ≠ hexDigit (m % 16) := fun m h =>
    hexDigit_ne_return _ (Nat.mod_lt _ (by decide)) h.symm
  simp [escapeUnit, hDigit]

theorem no_return_escapeChar (c : Char) : '\r' ∉ escapeChar c := by
  by_cases hReturn : c = '\r'
  · subst hReturn
    decide
  · unfold escapeChar
    split_ifs <;> simp [no_return_escapeUnit, Ne.symm hReturn]

/-- No text is written with a carriage return. -/
theorem no_return_emitText (s : String) : '\r' ∉ emitText s := by
  have hEscaped : '\r' ∉ s.toList.flatMap escapeChar := by
    intro h
    obtain ⟨c, _, hc⟩ := List.mem_flatMap.mp h
    exact no_return_escapeChar c hc
  simp [emitText, hEscaped]

theorem no_return_number {token : List Char} (hAll : ∀ c ∈ token, isNumberChar c = true) :
    '\r' ∉ token := fun h => absurd (hAll _ h) (by decide)

/-- The emitter writes no carriage return, so a text file holds its output
unchanged. -/
theorem no_return_emit (j : Json) : '\r' ∉ emit j := by
  induction j using Json.induction with
  | null => decide
  | bool b => cases b <;> decide
  | int i => exact no_return_number (intText_number i)
  | float x =>
      cases x with
      | nan => decide
      | inf negative => cases negative <;> decide
      | finite x => exact no_return_number (render_number x)
  | str s => exact no_return_emitText s
  | arr items ih =>
      have hMore : ∀ more : List Json, (∀ j ∈ more, '\r' ∉ emit j) → '\r' ∉ emitMoreItems more := by
        intro more hItems
        induction more with
        | nil => decide
        | cons j more ihMore =>
            simp only [List.forall_mem_cons] at hItems
            simp [emitMoreItems, hItems.1, ihMore hItems.2]
      cases items with
      | nil => decide
      | cons j more =>
          simp only [List.forall_mem_cons] at ih
          simp [emit, emitItems, ih.1, hMore more ih.2]
  | obj fields ih =>
      have hMore : ∀ more : Fields, (∀ p ∈ more, '\r' ∉ emit p.2) → '\r' ∉ emitMoreFields more := by
        intro more hFields
        induction more with
        | nil => decide
        | cons p more ihMore =>
            simp only [List.forall_mem_cons] at hFields
            simp [emitMoreFields, no_return_emitText, hFields.1, ihMore hFields.2]
      cases fields with
      | nil => decide
      | cons p more =>
          simp only [List.forall_mem_cons] at ih
          simp [emit, emitFields, no_return_emitText, ih.1, hMore more ih.2]

end L0vi0x.Python.Json
