import Mathlib.Data.List.DropRight
import Mathlib.Data.List.Infix
import L0vi0x.Python.Exception

/-! Texts and byte strings. Letter case and decimal digits are those of ASCII, in which
addresses, selectors and digests are written; those beyond it are not modelled. -/
namespace L0vi0x.Python

/-- `text.lower()` of ASCII letters; other letters are left as they are. -/
def lower (s : String) : String := String.ofList (s.toList.map Char.toLower)

theorem toLower_toLower (c : Char) : c.toLower.toLower = c.toLower := by
  by_cases h : c.val ≥ 'A'.val ∧ c.val ≤ 'Z'.val
  · have hLow : ¬ ((c.toLower).val ≤ 'Z'.val) := by
      have hVal : (c.toLower).val = c.val + 32 := congrArg Char.val (dif_pos h)
      rw [hVal]
      obtain ⟨h₁, h₂⟩ := h
      simp only [ge_iff_le, UInt32.le_iff_toNat_le, UInt32.toNat_add] at h₁ h₂ ⊢
      have hA : 'A'.val.toNat = 65 := rfl
      have hZ : 'Z'.val.toNat = 90 := rfl
      have h32 : (32 : UInt32).toNat = 32 := rfl
      omega
    have hNot : ¬ ((c.toLower).val ≥ 'A'.val ∧ (c.toLower).val ≤ 'Z'.val) := fun hc => hLow hc.2
    exact dif_neg hNot
  · have hSame : c.toLower = c := dif_neg h
    rw [hSame, hSame]

/-- Lowering a character twice is lowering it once. -/
theorem toLower_comp : Char.toLower ∘ Char.toLower = Char.toLower := funext toLower_toLower

/-- Lowering a text twice is lowering it once. -/
@[simp] theorem lower_lower (s : String) : lower (lower s) = lower s := by
  simp only [lower, String.toList_ofList, List.map_map, toLower_comp]

def isSpace (c : Char) : Bool :=
  let n := c.toNat
  (9 ≤ n && n ≤ 13) || (28 ≤ n && n ≤ 32) || n == 0x85 || n == 0xa0 || n == 0x1680 ||
    (0x2000 ≤ n && n ≤ 0x200a) || n == 0x2028 || n == 0x2029 || n == 0x202f ||
    n == 0x205f || n == 0x3000

def stripChars (p : Char → Bool) (cs : List Char) : List Char :=
  ((cs.dropWhile p).reverse.dropWhile p).reverse

def strip (s : String) : String := String.ofList (stripChars isSpace s.toList)

/-- A text without blanks is stripped of nothing. -/
theorem strip_of_no_space {s : String} (h : ∀ c ∈ s.toList, isSpace c = false) : strip s = s := by
  have hDrop : ∀ cs : List Char, (∀ c ∈ cs, isSpace c = false) → cs.dropWhile isSpace = cs := by
    intro cs hcs
    cases cs with
    | nil => rfl
    | cons c rest => simp [hcs c (List.mem_cons_self ..)]
  rw [strip, stripChars, hDrop _ h, hDrop _ (by simpa using h), List.reverse_reverse,
    String.ofList_toList]

/-- Stripping again changes nothing. -/
theorem stripChars_stripChars (p : Char → Bool) (cs : List Char) :
    stripChars p (stripChars p cs) = stripChars p cs := by
  have hFront : (stripChars p cs).dropWhile p = stripChars p cs := by
    rw [List.dropWhile_eq_self_iff]
    intro hPos
    have hPrefix : stripChars p cs <+: cs.dropWhile p := List.rdropWhile_prefix p _
    have hPos' : 0 < (cs.dropWhile p).length := hPos.trans_le hPrefix.length_le
    have hHead := List.dropWhile_get_zero_not p cs hPos'
    rwa [hPrefix.getElem hPos]
  have hBack : ((stripChars p cs).reverse.dropWhile p).reverse = stripChars p cs :=
    List.rdropWhile_idempotent p (cs.dropWhile p)
  rw [stripChars, hFront, hBack]

/-- Stripping twice is stripping once. -/
@[simp] theorem strip_strip (s : String) : strip (strip s) = strip s := by
  rw [strip, strip, String.toList_ofList, stripChars_stripChars]

def startsWith (s start : String) : Bool := start.toList.isPrefixOf s.toList

def containsText (s needle : String) : Bool :=
  s.toList.tails.any fun tail => needle.toList.isPrefixOf tail

/-- `s[n:]`. -/
def dropText (s : String) (n : Nat) : String := String.ofList (s.toList.drop n)

/-- A text starts with another exactly when it is that text and a rest. -/
theorem startsWith_iff {s start : String} :
    startsWith s start = true ↔ s = start ++ dropText s start.length := by
  rw [startsWith, List.isPrefixOf_iff_prefix]
  constructor
  · rintro ⟨tail, hTail⟩
    rw [← String.toList_inj, String.toList_append, dropText, String.toList_ofList, ← hTail,
      ← String.length_toList, List.drop_left]
  · intro h
    rw [h, String.toList_append]
    exact List.prefix_append ..

theorem dropText_append (s t : String) : dropText (s ++ t) s.length = t := by
  rw [dropText, String.toList_append, ← String.length_toList, List.drop_left, String.ofList_toList]

theorem startsWith_append (s t : String) : startsWith (s ++ t) s = true := by
  rw [startsWith_iff, dropText_append]

/-- `s[:n]`. -/
def takeText (s : String) (n : Nat) : String := String.ofList (s.toList.take n)

def rstripSlash (s : String) : String :=
  String.ofList ((s.toList.reverse.dropWhile (· == '/')).reverse)

/-- The line boundaries of `str.splitlines`. -/
def isLineBreak (c : Char) : Bool :=
  let n := c.toNat
  (10 ≤ n && n ≤ 13) || (28 ≤ n && n ≤ 30) || n == 0x85 || n == 0x2028 || n == 0x2029

/-- `splitlines(keepends=True)`; `line` holds the current line, reversed. -/
def splitLinesFrom : List Char → List Char → List String
  | [], line => if line.isEmpty then [] else [String.ofList line.reverse]
  | '\r' :: '\n' :: rest, line =>
      String.ofList ('\n' :: '\r' :: line).reverse :: splitLinesFrom rest []
  | c :: rest, line =>
      if isLineBreak c then String.ofList (c :: line).reverse :: splitLinesFrom rest []
      else splitLinesFrom rest (c :: line)

def splitLines (s : String) : List String := splitLinesFrom s.toList []

def joinText (separator : String) : List String → String
  | [] => ""
  | [s] => s
  | s :: rest => s ++ separator ++ joinText separator rest

/-- Digits with single underscores between them, as `int(text)` reads them. -/
def digitsValue? : List Char → Option Nat → Option Nat
  | [], acc => acc
  | '_' :: d :: rest, some n =>
      if d.isDigit then digitsValue? rest (some (10 * n + (d.toNat - 48))) else none
  | d :: rest, acc =>
      if d.isDigit then digitsValue? rest (some (10 * acc.getD 0 + (d.toNat - 48))) else none

/-- `int(text)` in base ten, of ASCII digits. -/
def intOfText? (s : String) : Option Int :=
  match stripChars isSpace s.toList with
  | '-' :: ds => (digitsValue? ds none).map fun n => -(n : Int)
  | '+' :: ds => (digitsValue? ds none).map fun n => (n : Int)
  | ds => (digitsValue? ds none).map fun n => (n : Int)

/-- Stripping takes away only what it is asked to. -/
theorem mem_stripChars {p : Char → Bool} {cs : List Char} {c : Char} (h : c ∈ cs) :
    c ∈ stripChars p cs ∨ p c = true := by
  have hDrop : ∀ {cs : List Char}, c ∈ cs → c ∈ cs.dropWhile p ∨ p c = true := by
    intro cs hMem
    rw [← List.takeWhile_append_dropWhile (p := p) (l := cs), List.mem_append] at hMem
    exact hMem.symm.imp_right fun hTake => List.all_eq_true.mp List.all_takeWhile c hTake
  rw [stripChars, List.mem_reverse]
  rcases hDrop h with hLeft | hSpace
  · exact hDrop (List.mem_reverse.mpr hLeft)
  · exact .inr hSpace

/-- What is read as a number has digits and underscores only. -/
theorem digitsValue?_chars {cs : List Char} {acc : Option Nat} {n : Nat}
    (h : digitsValue? cs acc = some n) : ∀ c ∈ cs, c.isDigit = true ∨ c = '_' := by
  fun_induction digitsValue? cs acc with
  | case1 acc => simp
  | case2 d rest m hd ih =>
      rw [List.forall_mem_cons, List.forall_mem_cons]
      exact ⟨.inr rfl, .inl hd, ih h⟩
  | case3 => cases h
  | case4 acc d rest _ hd ih =>
      rw [List.forall_mem_cons]
      exact ⟨.inl hd, ih h⟩
  | case5 => cases h

/-- What a text that reads as an integer is made of. -/
def isIntChar (c : Char) : Bool := isSpace c || c.isDigit || c == '_' || c == '+' || c == '-'

/-- What is read as an integer has no other characters than those of integers. -/
theorem intOfText?_chars {s : String} {i : Int} (h : intOfText? s = some i) :
    ∀ c ∈ s.toList, isIntChar c = true := by
  have hDigits : ∀ {ds : List Char} {f : Int → Int},
      (digitsValue? ds none >>= fun n => pure (n : Int)).map f = some i →
      ∀ c ∈ ds, isIntChar c = true := by
    intro ds f h c hc
    cases hValue : digitsValue? ds none with
    | none => simp [hValue] at h
    | some n =>
        rcases digitsValue?_chars hValue c hc with hDigit | rfl
        · simp [isIntChar, hDigit]
        · decide
  have hStripped : ∀ c ∈ stripChars isSpace s.toList, isIntChar c = true := by
    unfold intOfText? at h
    split at h
    · rename_i ds hText
      rw [hText, List.forall_mem_cons]
      exact ⟨by decide, hDigits h⟩
    · rename_i ds hText
      rw [hText, List.forall_mem_cons]
      exact ⟨by decide, hDigits h⟩
    · exact hDigits h
  intro c hc
  rcases mem_stripChars hc with hInner | hSpace
  · exact hStripped c hInner
  · simp [isIntChar, hSpace]

def intText : Int → List Char
  | .ofNat n => Nat.toDigits 10 n
  | .negSucc n => '-' :: Nat.toDigits 10 (n + 1)

abbrev Bytes := List UInt8

def encodeUtf8 (s : String) : Bytes := s.toByteArray.data.toList

/-- `raw.decode("utf-8")`, which refuses what is not UTF-8. -/
def decodeUtf8? (raw : Bytes) : Option String := String.fromUTF8? ⟨raw.toArray⟩

/-- A text is decoded from its encoding. -/
@[simp] theorem decodeUtf8?_encodeUtf8 (s : String) : decodeUtf8? (encodeUtf8 s) = some s := by
  have hValid : s.toByteArray.IsValidUTF8 := s.isValidUTF8
  simp [decodeUtf8?, encodeUtf8, String.fromUTF8?, String.fromUTF8, hValid]

theorem encodeUtf8_injective : Function.Injective encodeUtf8 := by
  intro s t h
  have hSome : some s = some t := by
    rw [← decodeUtf8?_encodeUtf8 s, h, decodeUtf8?_encodeUtf8]
  exact Option.some.inj hSome

/-- What an unfinished UTF-8 sequence still lacks: the value so far, the number of
bytes to come and the range of the next one. -/
structure Utf8Pending where
  value : Nat
  missing : Nat
  low : Nat
  high : Nat

/-- What a byte gives that does not continue a sequence: characters, or a
sequence that it opens. -/
def utf8Open (n : Nat) : List Char × Option Utf8Pending :=
  if n < 128 then ([Char.ofNat n], none)
  else if 0xc2 ≤ n ∧ n ≤ 0xdf then ([], some ⟨n - 0xc0, 1, 0x80, 0xbf⟩)
  else if n = 0xe0 then ([], some ⟨0, 2, 0xa0, 0xbf⟩)
  else if n = 0xed then ([], some ⟨13, 2, 0x80, 0x9f⟩)
  else if 0xe1 ≤ n ∧ n ≤ 0xef then ([], some ⟨n - 0xe0, 2, 0x80, 0xbf⟩)
  else if n = 0xf0 then ([], some ⟨0, 3, 0x90, 0xbf⟩)
  else if 0xf1 ≤ n ∧ n ≤ 0xf3 then ([], some ⟨n - 0xf0, 3, 0x80, 0xbf⟩)
  else if n = 0xf4 then ([], some ⟨4, 3, 0x80, 0x8f⟩)
  else (['\uFFFD'], none)

/-- `raw.decode("utf-8", errors="replace")`: a replacement character for every
maximal part that starts no valid sequence. -/
def utf8Replace : Bytes → Option Utf8Pending → List Char
  | [], none => []
  | [], some _ => ['\uFFFD']
  | b :: rest, none =>
      let (out, next) := utf8Open b.toNat
      out ++ utf8Replace rest next
  | b :: rest, some pending =>
      let n := b.toNat
      if pending.low ≤ n ∧ n ≤ pending.high then
        let value := 64 * pending.value + (n - 128)
        if pending.missing = 1 then Char.ofNat value :: utf8Replace rest none
        else utf8Replace rest (some ⟨value, pending.missing - 1, 0x80, 0xbf⟩)
      else
        let (out, next) := utf8Open n
        '\uFFFD' :: out ++ utf8Replace rest next

def decodeUtf8Replace (raw : Bytes) : String := String.ofList (utf8Replace raw none)

/-- The newline translation of `read_text`. -/
def universalNewlines : List Char → List Char
  | [] => []
  | '\r' :: '\n' :: rest => '\n' :: universalNewlines rest
  | '\r' :: rest => '\n' :: universalNewlines rest
  | c :: rest => c :: universalNewlines rest

/-- A text without carriage returns is read as it is. -/
theorem universalNewlines_of_no_return {cs : List Char} (h : '\r' ∉ cs) :
    universalNewlines cs = cs := by
  induction cs with
  | nil => rfl
  | cons c rest ih =>
      simp only [List.mem_cons, not_or] at h
      have hc : c ≠ '\r' := fun hEq => h.1 hEq.symm
      rw [universalNewlines.eq_4 _ _ (by rintro _ rfl; exact absurd rfl hc) hc, ih h.2]

def hexDigit (n : Nat) : Char := if n < 10 then Char.ofNat (48 + n) else Char.ofNat (87 + n)

def hexOfBytes (raw : Bytes) : String :=
  String.ofList (raw.flatMap fun b => [hexDigit (b.toNat / 16), hexDigit (b.toNat % 16)])

/-- The digits of a byte string are hexadecimal digits. -/
theorem hexOfBytes_chars {raw : Bytes} {c : Char} (h : c ∈ (hexOfBytes raw).toList) :
    ∃ n < 16, c = hexDigit n := by
  simp only [hexOfBytes, String.toList_ofList, List.mem_flatMap, List.mem_cons, List.not_mem_nil,
    or_false] at h
  obtain ⟨b, _, h⟩ := h
  have hByte := b.toNat_lt
  rcases h with rfl | rfl
  · exact ⟨b.toNat / 16, by omega, rfl⟩
  · exact ⟨b.toNat % 16, by omega, rfl⟩

theorem hexDigit_injective : ∀ m < 16, ∀ n < 16, hexDigit m = hexDigit n → m = n := by decide

/-- Different bytes have different digits. -/
theorem hexOfBytes_injective : Function.Injective hexOfBytes := by
  intro xs ys h
  simp only [hexOfBytes, String.ofList_inj] at h
  induction xs generalizing ys with
  | nil =>
      cases ys with
      | nil => rfl
      | cons y ys => simp at h
  | cons x xs ih =>
      cases ys with
      | nil => simp at h
      | cons y ys =>
          simp only [List.flatMap_cons, List.cons_append, List.nil_append, List.cons.injEq] at h
          obtain ⟨hHigh, hLow, hRest⟩ := h
          have hx := x.toNat_lt
          have hy := y.toNat_lt
          have hHigh := hexDigit_injective _ (by omega) _ (by omega) hHigh
          have hLow := hexDigit_injective _ (by omega) _ (by omega) hLow
          rw [ih hRest, UInt8.toNat_inj.mp (show x.toNat = y.toNat by omega)]

def hexValue? (c : Char) : Option Nat :=
  if c.isDigit then some (c.toNat - 48)
  else if 'a' ≤ c ∧ c ≤ 'f' then some (c.toNat - 87)
  else if 'A' ≤ c ∧ c ≤ 'F' then some (c.toNat - 55)
  else none

/-- The whitespace that `bytes.fromhex` skips between two bytes. -/
def isAsciiSpace (c : Char) : Bool := c == ' ' || (9 ≤ c.toNat && c.toNat ≤ 13)

/-- `bytes.fromhex(text)`. -/
def bytesOfHexChars? : List Char → Option Bytes
  | [] => some []
  | c :: rest =>
      if isAsciiSpace c then bytesOfHexChars? rest
      else match rest with
        | [] => none
        | d :: tail => do
            let high ← hexValue? c
            let low ← hexValue? d
            let more ← bytesOfHexChars? tail
            some (UInt8.ofNat (16 * high + low) :: more)

/-- The case of a letter matters to neither kind of character. -/
theorem hexValue?_toLower (c : Char) :
    hexValue? c.toLower = hexValue? c ∧ isAsciiSpace c.toLower = isAsciiSpace c := by
  by_cases hUpper : c.val ≥ 'A'.val ∧ c.val ≤ 'Z'.val
  · have hLetters : ∀ n < 26, hexValue? (Char.ofNat (65 + n)).toLower = hexValue? (Char.ofNat (65 + n)) ∧
        isAsciiSpace (Char.ofNat (65 + n)).toLower = isAsciiSpace (Char.ofNat (65 + n)) := by decide
    have hLow : 65 ≤ c.toNat := UInt32.le_iff_toNat_le.mp hUpper.1
    have hHigh : c.toNat ≤ 90 := UInt32.le_iff_toNat_le.mp hUpper.2
    have hChar : Char.ofNat (65 + (c.toNat - 65)) = c := by
      rw [Nat.add_sub_cancel' hLow, Char.ofNat_toNat]
    exact hChar ▸ hLetters (c.toNat - 65) (by omega)
  · have hSame : c.toLower = c := dif_neg hUpper
    rw [hSame]
    exact ⟨rfl, rfl⟩

/-- Hexadecimal text is read in any case. -/
theorem bytesOfHexChars?_map_toLower (cs : List Char) :
    bytesOfHexChars? (cs.map Char.toLower) = bytesOfHexChars? cs := by
  fun_induction bytesOfHexChars? cs with
  | case1 => rfl
  | case2 c rest hSpace ih =>
      rw [List.map_cons, bytesOfHexChars?.eq_def]
      simp only [(hexValue?_toLower c).2, if_pos hSpace, ih]
  | case3 c hSpace =>
      rw [List.map_cons, List.map_nil, bytesOfHexChars?.eq_def]
      simp only [(hexValue?_toLower c).2, if_neg hSpace]
  | case4 c hSpace d tail ih =>
      rw [List.map_cons, List.map_cons, bytesOfHexChars?.eq_def]
      simp only [(hexValue?_toLower c).2, if_neg hSpace, (hexValue?_toLower c).1,
        (hexValue?_toLower d).1, ih]

def bytesOfHex? (s : String) : Option Bytes := bytesOfHexChars? s.toList

def bytesOfHex (s : String) : Py Bytes :=
  match bytesOfHex? s with
  | some raw => pure raw
  | none => raise .valueError "non-hexadecimal number found in fromhex() arg"

theorem hexDigit_toLower : ∀ n < 16, (hexDigit n).toLower = hexDigit n := by decide

theorem hexValue?_hexDigit : ∀ n < 16, hexValue? (hexDigit n) = some n := by decide

/-- The digits of a byte string are in lower case. -/
theorem lower_hexOfBytes (raw : Bytes) : lower (hexOfBytes raw) = hexOfBytes raw := by
  have hChars : (hexOfBytes raw).toList.map Char.toLower = (hexOfBytes raw).toList := by
    refine List.map_congr_left (fun c hc => ?_) |>.trans (List.map_id _)
    obtain ⟨n, hn, rfl⟩ := hexOfBytes_chars hc
    exact hexDigit_toLower n hn
  rw [lower, hChars, String.ofList_toList]

/-- Reading the digits of a byte string gives it back. -/
theorem bytesOfHex?_hexOfBytes (raw : Bytes) : bytesOfHex? (hexOfBytes raw) = some raw := by
  have hSpace : ∀ n < 16, isAsciiSpace (hexDigit n) = false := by decide
  rw [bytesOfHex?, hexOfBytes, String.toList_ofList]
  induction raw with
  | nil => rfl
  | cons b rest ih =>
      have hb := b.toNat_lt
      have hHigh : b.toNat / 16 < 16 := by omega
      have hLow : b.toNat % 16 < 16 := by omega
      have hByte : 16 * (b.toNat / 16) + b.toNat % 16 = b.toNat := Nat.div_add_mod _ _
      rw [List.flatMap_cons, List.cons_append, List.cons_append, List.nil_append,
        bytesOfHexChars?.eq_def]
      simp only [hSpace _ hHigh, Bool.false_eq_true, ↓reduceIte, hexValue?_hexDigit _ hHigh,
        hexValue?_hexDigit _ hLow, ih]
      show some (UInt8.ofNat (16 * (b.toNat / 16) + b.toNat % 16) :: rest) = some (b :: rest)
      rw [hByte, UInt8.ofNat_toNat]

example : bytesOfHex? "0a FF" = some [10, 255] := by decide
example : intOfText? " -1_0 " = some (-10) := by decide

end L0vi0x.Python
