import L0vi0x.Python.Text

/-! Decoding UTF-8 with replacements, of a text that was encoded. -/
namespace L0vi0x.Python

theorem utf8Open_lead {n : Nat} {pending : Utf8Pending} (h : utf8Open n = ([], some pending))
    (rest : Bytes) {b : UInt8} (hb : b.toNat = n) :
    utf8Replace (b :: rest) none = utf8Replace rest (some pending) := by
  rw [utf8Replace, hb, h]
  rfl

/-- A byte in its range continues a sequence. -/
theorem utf8Replace_next {pending : Utf8Pending} {n : Nat} {b : UInt8} (rest : Bytes)
    (hb : b.toNat = n) (hRange : pending.low ≤ n ∧ n ≤ pending.high) (hMore : pending.missing ≠ 1) :
    utf8Replace (b :: rest) (some pending) =
      utf8Replace rest (some ⟨64 * pending.value + (n - 128), pending.missing - 1, 0x80, 0xbf⟩) := by
  rw [utf8Replace, hb, if_pos hRange, if_neg hMore]

/-- The last byte in its range ends a sequence with its character. -/
theorem utf8Replace_last {pending : Utf8Pending} {n : Nat} {b : UInt8} (rest : Bytes)
    (hb : b.toNat = n) (hRange : pending.low ≤ n ∧ n ≤ pending.high) (hMore : pending.missing = 1) :
    utf8Replace (b :: rest) (some pending) =
      Char.ofNat (64 * pending.value + (n - 128)) :: utf8Replace rest none := by
  rw [utf8Replace, hb, if_pos hRange, if_pos hMore]

theorem toNat_ofNat_of_lt {n : Nat} (h : n < 256) : (UInt8.ofNat n).toNat = n := by
  simp [Nat.mod_eq_of_lt h]

/-- The first byte of three, and the range of the second. -/
theorem utf8Open_three {v : Nat} (hLow : 0x7ff < v) (hHigh : v ≤ 0xffff)
    (hValid : v < 0xd800 ∨ 0xdfff < v) : ∃ low high,
      utf8Open (v / 4096 % 0x10 + 0xe0) = ([], some ⟨v / 4096, 2, low, high⟩) ∧
        0x80 ≤ low ∧ low ≤ v / 64 % 0x40 + 0x80 ∧ v / 64 % 0x40 + 0x80 ≤ high := by
  have hLead : v / 4096 % 0x10 = v / 4096 := by omega
  rw [hLead, utf8Open, if_neg (by omega), if_neg (by omega)]
  by_cases hZero : v / 4096 = 0
  · rw [if_pos (by omega), hZero]
    exact ⟨_, _, rfl, by omega, by omega, by omega⟩
  · rw [if_neg (by omega)]
    by_cases hSurrogate : v / 4096 = 13
    · rw [if_pos (by omega), hSurrogate]
      exact ⟨_, _, rfl, by omega, by omega, by omega⟩
    · rw [if_neg (by omega), if_pos (by omega), Nat.add_sub_cancel]
      exact ⟨_, _, rfl, by omega, by omega, by omega⟩

/-- The first byte of four, and the range of the second. -/
theorem utf8Open_four {v : Nat} (hLow : 0xffff < v) (hHigh : v < 0x110000) : ∃ low high,
      utf8Open (v / 262144 % 0x08 + 0xf0) = ([], some ⟨v / 262144, 3, low, high⟩) ∧
        0x80 ≤ low ∧ low ≤ v / 4096 % 0x40 + 0x80 ∧ v / 4096 % 0x40 + 0x80 ≤ high := by
  have hLead : v / 262144 % 0x08 = v / 262144 := by omega
  rw [hLead, utf8Open, if_neg (by omega), if_neg (by omega), if_neg (by omega), if_neg (by omega),
    if_neg (by omega)]
  by_cases hZero : v / 262144 = 0
  · rw [if_pos (by omega), hZero]
    exact ⟨_, _, rfl, by omega, by omega, by omega⟩
  · rw [if_neg (by omega)]
    by_cases hLast : v / 262144 = 4
    · rw [if_neg (by omega), if_pos (by omega), hLast]
      exact ⟨_, _, rfl, by omega, by omega, by omega⟩
    · rw [if_pos (by omega), Nat.add_sub_cancel]
      exact ⟨_, _, rfl, by omega, by omega, by omega⟩

/-- A character's bytes are read back as the character. -/
theorem utf8Replace_utf8EncodeChar (c : Char) (rest : Bytes) :
    utf8Replace (String.utf8EncodeChar c ++ rest) none = c :: utf8Replace rest none := by
  have hValid : c.val.toNat < 0xd800 ∨ 0xdfff < c.val.toNat ∧ c.val.toNat < 0x110000 := c.valid
  have hChar : Char.ofNat c.val.toNat = c := Char.ofNat_toNat c
  unfold String.utf8EncodeChar
  generalize c.val.toNat = v at hValid hChar
  simp only
  split
  · rename_i h
    rw [List.singleton_append, utf8Replace, toNat_ofNat_of_lt (by omega), utf8Open,
      if_pos (by omega), hChar]
    rfl
  · split
    · rename_i h
      have hOpen : utf8Open (v / 64 % 0x20 + 0xc0) = ([], some ⟨v / 64, 1, 0x80, 0xbf⟩) := by
        rw [utf8Open, if_neg (by omega), if_pos (by omega)]
        simp only [Prod.mk.injEq, Option.some.injEq, Utf8Pending.mk.injEq, true_and, and_true]
        omega
      rw [List.cons_append, utf8Open_lead hOpen _ (toNat_ofNat_of_lt (by omega)),
        List.singleton_append, utf8Replace_last _ (toNat_ofNat_of_lt (by omega))
          (by dsimp only; omega) rfl]
      have hValue : 64 * (v / 64) + (v % 0x40 + 0x80 - 128) = v := by omega
      rw [hValue, hChar]
    · split
      · rename_i h
        obtain ⟨low, high, hOpen, _, hLow, hHigh⟩ := @utf8Open_three v (by omega) h (by omega)
        rw [List.cons_append, utf8Open_lead hOpen _ (toNat_ofNat_of_lt (by omega)),
          List.cons_append, utf8Replace_next _ (toNat_ofNat_of_lt (by omega)) ⟨hLow, hHigh⟩ (by simp),
          List.singleton_append, utf8Replace_last _ (toNat_ofNat_of_lt (by omega))
            (by dsimp only; omega) rfl]
        have hValue : 64 * (64 * (v / 4096) + (v / 64 % 0x40 + 0x80 - 128)) +
            (v % 0x40 + 0x80 - 128) = v := by omega
        rw [hValue, hChar]
      · obtain ⟨low, high, hOpen, _, hLow, hHigh⟩ := @utf8Open_four v (by omega) (by omega)
        rw [List.cons_append, utf8Open_lead hOpen _ (toNat_ofNat_of_lt (by omega)),
          List.cons_append, utf8Replace_next _ (toNat_ofNat_of_lt (by omega)) ⟨hLow, hHigh⟩ (by simp),
          List.cons_append, utf8Replace_next _ (toNat_ofNat_of_lt (by omega))
            (by dsimp only; omega) (by simp),
          List.singleton_append, utf8Replace_last _ (toNat_ofNat_of_lt (by omega))
            (by dsimp only; omega) rfl]
        have hValue : 64 * (64 * (64 * (v / 262144) + (v / 4096 % 0x40 + 0x80 - 128)) +
            (v / 64 % 0x40 + 0x80 - 128)) + (v % 0x40 + 0x80 - 128) = v := by omega
        rw [hValue, hChar]

/-- An unfinished sequence is replaced by one character when an ASCII byte follows. -/
theorem utf8Replace_interrupted {pending : Utf8Pending} (hLow : 0x80 ≤ pending.low) {b : UInt8}
    (hb : b.toNat < 128) (rest : Bytes) :
    utf8Replace (b :: rest) (some pending) = '\uFFFD' :: utf8Replace (b :: rest) none := by
  have hNot : ¬(pending.low ≤ b.toNat ∧ b.toNat ≤ pending.high) := by omega
  have hOpened : utf8Replace (b :: rest) none =
      (utf8Open b.toNat).1 ++ utf8Replace rest (utf8Open b.toNat).2 := by rw [utf8Replace]
  rw [hOpened, utf8Replace, if_neg hNot]
  rfl

/-- A sequence that is cut before its end is left unfinished: only a byte that continues it
may follow. -/
theorem utf8Replace_cut (c : Char) {n : Nat} (hPos : 0 < n)
    (hCut : n < (String.utf8EncodeChar c).length) :
    ∃ pending : Utf8Pending, 0x80 ≤ pending.low ∧ ∀ rest : Bytes,
      utf8Replace ((String.utf8EncodeChar c).take n ++ rest) none =
        utf8Replace rest (some pending) := by
  have hValid : c.val.toNat < 0xd800 ∨ 0xdfff < c.val.toNat ∧ c.val.toNat < 0x110000 := c.valid
  obtain ⟨n, rfl⟩ : ∃ m, n = m + 1 := ⟨n - 1, by omega⟩
  unfold String.utf8EncodeChar at hCut ⊢
  generalize c.val.toNat = v at hValid hCut ⊢
  simp only at hCut ⊢
  split at hCut
  · rw [List.length_singleton] at hCut
    omega
  · rename_i hOne
    rw [if_neg hOne]
    split at hCut
    · rename_i h
      rw [if_pos h]
      simp only [List.length_cons, List.length_nil] at hCut
      have hOpen : utf8Open (v / 64 % 0x20 + 0xc0) = ([], some ⟨v / 64, 1, 0x80, 0xbf⟩) := by
        rw [utf8Open, if_neg (by omega), if_pos (by omega)]
        simp only [Prod.mk.injEq, Option.some.injEq, Utf8Pending.mk.injEq, true_and, and_true]
        omega
      obtain rfl : n = 0 := by omega
      exact ⟨_, le_refl _, fun rest => utf8Open_lead hOpen rest (toNat_ofNat_of_lt (by omega))⟩
    · rename_i hTwo
      rw [if_neg hTwo]
      split at hCut
      · rename_i h
        rw [if_pos h]
        simp only [List.length_cons, List.length_nil] at hCut
        obtain ⟨low, high, hOpen, hFirst, hLow, hHigh⟩ := @utf8Open_three v (by omega) h (by omega)
        cases n with
        | zero =>
            exact ⟨_, hFirst, fun rest => utf8Open_lead hOpen rest (toNat_ofNat_of_lt (by omega))⟩
        | succ n =>
            obtain rfl : n = 0 := by omega
            refine ⟨⟨64 * (v / 4096) + (v / 64 % 0x40 + 0x80 - 128), 1, 0x80, 0xbf⟩, le_refl _,
              fun rest => ?_⟩
            rw [List.take_succ_cons, List.take_succ_cons, List.take_zero, List.cons_append,
              List.singleton_append, utf8Open_lead hOpen _ (toNat_ofNat_of_lt (by omega)),
              utf8Replace_next _ (toNat_ofNat_of_lt (by omega)) ⟨hLow, hHigh⟩ (by simp)]
            rfl
      · rename_i hThree
        rw [if_neg hThree]
        simp only [List.length_cons, List.length_nil] at hCut
        obtain ⟨low, high, hOpen, hFirst, hLow, hHigh⟩ :=
          @utf8Open_four v (by omega) (by omega)
        cases n with
        | zero =>
            exact ⟨_, hFirst, fun rest => utf8Open_lead hOpen rest (toNat_ofNat_of_lt (by omega))⟩
        | succ n =>
            cases n with
            | zero =>
                refine ⟨⟨64 * (v / 262144) + (v / 4096 % 0x40 + 0x80 - 128), 2, 0x80, 0xbf⟩,
                  le_refl _, fun rest => ?_⟩
                rw [List.take_succ_cons, List.take_succ_cons, List.take_zero, List.cons_append,
                  List.singleton_append, utf8Open_lead hOpen _ (toNat_ofNat_of_lt (by omega)),
                  utf8Replace_next _ (toNat_ofNat_of_lt (by omega)) ⟨hLow, hHigh⟩ (by simp)]
                rfl
            | succ n =>
                obtain rfl : n = 0 := by omega
                refine ⟨⟨64 * (64 * (v / 262144) + (v / 4096 % 0x40 + 0x80 - 128)) +
                  (v / 64 % 0x40 + 0x80 - 128), 1, 0x80, 0xbf⟩, le_refl _, fun rest => ?_⟩
                rw [List.take_succ_cons, List.take_succ_cons, List.take_succ_cons, List.take_zero,
                  List.cons_append, List.cons_append, List.singleton_append,
                  utf8Open_lead hOpen _ (toNat_ofNat_of_lt (by omega)),
                  utf8Replace_next _ (toNat_ofNat_of_lt (by omega)) ⟨hLow, hHigh⟩ (by simp),
                  utf8Replace_next _ (toNat_ofNat_of_lt (by omega)) (by dsimp only; omega) (by simp)]
                rfl

theorem encodeUtf8_eq (s : String) : encodeUtf8 s = s.toList.flatMap String.utf8EncodeChar := by
  have hChars : ∀ cs : List Char, cs.utf8Encode.data.toList = cs.flatMap String.utf8EncodeChar := by
    intro cs
    induction cs with
    | nil => rfl
    | cons c cs ih =>
        rw [List.utf8Encode_cons, List.utf8Encode_singleton, ByteArray.data_append,
          Array.toList_append, List.toList_data_toByteArray, ih, List.flatMap_cons]
  rw [← hChars, String.utf8Encode_toList]
  rfl

theorem utf8Replace_flatMap (cs : List Char) (rest : Bytes) :
    utf8Replace (cs.flatMap String.utf8EncodeChar ++ rest) none = cs ++ utf8Replace rest none := by
  induction cs with
  | nil => rfl
  | cons c cs ih =>
      rw [List.flatMap_cons, List.append_assoc, utf8Replace_utf8EncodeChar, ih, List.cons_append]

/-- The characters of a text are what its bytes decode to. -/
theorem utf8Replace_encodeUtf8 (s : String) : utf8Replace (encodeUtf8 s) none = s.toList := by
  have h := utf8Replace_flatMap s.toList []
  rw [List.append_nil] at h
  rw [encodeUtf8_eq, h, utf8Replace, List.append_nil]

/-- What was encoded is decoded with nothing replaced. -/
theorem decodeUtf8Replace_encodeUtf8 (s : String) : decodeUtf8Replace (encodeUtf8 s) = s := by
  rw [decodeUtf8Replace, utf8Replace_encodeUtf8, String.ofList_toList]

/-- A position in an encoded text stands between two characters or within one. -/
theorem position_utf8 (cs : List Char) {n : Nat}
    (h : n ≤ (cs.flatMap String.utf8EncodeChar).length) :
    ∃ front back, cs = front ++ back ∧
      (n = (front.flatMap String.utf8EncodeChar).length ∨ ∃ c rest k, back = c :: rest ∧ 0 < k ∧
        k < (String.utf8EncodeChar c).length ∧
        n = (front.flatMap String.utf8EncodeChar).length + k) := by
  induction cs generalizing n with
  | nil => exact ⟨[], [], rfl, .inl (Nat.le_zero.mp h)⟩
  | cons c cs ih =>
      rw [List.flatMap_cons, List.length_append] at h
      by_cases hZero : n = 0
      · exact ⟨[], c :: cs, rfl, .inl hZero⟩
      by_cases hInside : n < (String.utf8EncodeChar c).length
      · exact ⟨[], c :: cs, rfl, .inr ⟨c, cs, n, rfl, by omega, hInside, by simp⟩⟩
      obtain ⟨front, back, rfl, hPlace⟩ := @ih (n - (String.utf8EncodeChar c).length) (by omega)
      refine ⟨c :: front, back, rfl, ?_⟩
      rw [List.flatMap_cons, List.length_append]
      rcases hPlace with hBetween | ⟨d, rest, k, hBack, hPos, hCut, hPlace⟩
      · exact .inl (by omega)
      · exact .inr ⟨d, rest, k, hBack, hPos, hCut, by omega⟩

/-- A position within a character stands between no two. -/
theorem not_between_utf8 {front rest kept lost : List Char} {c : Char} {k : Nat} (hPos : 0 < k)
    (hCut : k < (String.utf8EncodeChar c).length) (h : front ++ c :: rest = kept ++ lost) :
    (kept.flatMap String.utf8EncodeChar).length ≠
      (front.flatMap String.utf8EncodeChar).length + k := by
  intro hPlace
  rcases List.append_eq_append_iff.mp h with ⟨more, rfl, hMore⟩ | ⟨more, rfl, _⟩
  · rw [List.flatMap_append, List.length_append] at hPlace
    cases more with
    | nil =>
        rw [List.flatMap_nil, List.length_nil] at hPlace
        omega
    | cons d more =>
        rw [List.cons_append, List.cons.injEq] at hMore
        rw [← hMore.1, List.flatMap_cons, List.length_append] at hPlace
        omega
  · rw [List.flatMap_append, List.length_append] at hPlace
    omega

end L0vi0x.Python
