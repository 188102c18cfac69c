import L0vi0x.Chain.ContractAddress
import L0vi0x.Chain.ArenaExecution

/-! Which texts the adapter takes for hexadecimal. The digits are read by `bytes.fromhex`,
which passes over white space, while addresses and words are told by the length of the text. -/
namespace L0vi0x.Python

def isHexDigit (c : Char) : Bool := (hexValue? c).isSome

theorem hexValue?_ascii {c : Char} {n : Nat} (h : hexValue? c = some n) : c.toNat < 128 := by
  unfold hexValue? at h
  split at h
  · rename_i hDigit
    rw [Char.isDigit, Bool.and_eq_true, decide_eq_true_eq, decide_eq_true_eq] at hDigit
    have hNine : c.toNat ≤ 57 := UInt32.le_iff_toNat_le.mp hDigit.2
    omega
  · split at h
    · rename_i hSmall
      have hF : c.toNat ≤ 102 := UInt32.le_iff_toNat_le.mp hSmall.2
      omega
    · split at h
      · rename_i hLarge
        have hF : c.toNat ≤ 70 := UInt32.le_iff_toNat_le.mp hLarge.2
        omega
      · cases h

/-- A digit in lower case is the digit of its value, and no white space. -/
theorem hexValue?_digit {c : Char} {n : Nat} (h : hexValue? c = some n) :
    n < 16 ∧ c.toLower = hexDigit n ∧ isAsciiSpace c = false := by
  have hAll : ∀ k < 128, ((hexValue? (Char.ofNat k)).all fun n =>
      n < 16 && (Char.ofNat k).toLower == hexDigit n && !isAsciiSpace (Char.ofNat k)) = true := by
    decide
  have hChar := hAll c.toNat (hexValue?_ascii h)
  rw [Char.ofNat_toNat, h] at hChar
  simpa [and_assoc] using hChar

/-- The digits of a text that is read, white space aside, are those of the byte string. -/
theorem digits_of_bytesOfHexChars? {cs : List Char} {raw : Bytes}
    (h : bytesOfHexChars? cs = some raw) :
    (cs.filter fun c => !isAsciiSpace c).map Char.toLower = (hexOfBytes raw).toList := by
  fun_induction bytesOfHexChars? cs generalizing raw with
  | case1 =>
      cases h
      rfl
  | case2 c rest hSpace ih =>
      rw [List.filter_cons, hSpace]
      exact ih h
  | case3 c hSpace => cases h
  | case4 c hSpace d tail ih =>
      simp only [Option.bind_eq_bind, Option.bind_eq_some_iff, Option.some.injEq] at h
      obtain ⟨high, hHigh, low, hLow, more, hMore, rfl⟩ := h
      obtain ⟨hHighLt, hHighDigit, hHighSpace⟩ := hexValue?_digit hHigh
      obtain ⟨hLowLt, hLowDigit, hLowSpace⟩ := hexValue?_digit hLow
      have hByte : (UInt8.ofNat (16 * high + low)).toNat = 16 * high + low := by
        rw [UInt8.toNat_ofNat']
        omega
      rw [List.filter_cons_of_pos (by simp [hHighSpace]), List.filter_cons_of_pos (by simp [hLowSpace]),
        List.map_cons, List.map_cons, ih hMore, hHighDigit, hLowDigit, hexOfBytes, hexOfBytes,
        String.toList_ofList, String.toList_ofList, List.flatMap_cons, hByte]
      have hDiv : (16 * high + low) / 16 = high := by omega
      have hMod : (16 * high + low) % 16 = low := by omega
      rw [hDiv, hMod]
      rfl

/-- An even number of digits is read. -/
theorem bytesOfHexChars?_of_digits {cs : List Char} (hDigits : ∀ c ∈ cs, isHexDigit c = true)
    (hEven : cs.length % 2 = 0) : ∃ raw, bytesOfHexChars? cs = some raw := by
  fun_induction bytesOfHexChars? cs with
  | case1 => exact ⟨[], rfl⟩
  | case2 c rest hSpace ih =>
      obtain ⟨n, hn⟩ := Option.isSome_iff_exists.mp (hDigits c (List.mem_cons_self ..))
      rw [(hexValue?_digit hn).2.2] at hSpace
      cases hSpace
  | case3 c hSpace => cases hEven
  | case4 c hSpace d tail ih =>
      rw [List.forall_mem_cons, List.forall_mem_cons] at hDigits
      obtain ⟨hC, hD, hTail⟩ := hDigits
      obtain ⟨high, hHigh⟩ := Option.isSome_iff_exists.mp hC
      obtain ⟨low, hLow⟩ := Option.isSome_iff_exists.mp hD
      obtain ⟨more, hMore⟩ := ih hTail (by simp only [List.length_cons] at hEven; omega)
      rw [hHigh, hLow, hMore]
      exact ⟨_, rfl⟩

/-- Without white space, a text is read exactly when it is an even number of digits. -/
theorem bytesOfHexChars?_unspaced {cs : List Char} {raw : Bytes}
    (hUnspaced : ∀ c ∈ cs, isAsciiSpace c = false) (h : bytesOfHexChars? cs = some raw) :
    (∀ c ∈ cs, isHexDigit c = true) ∧ cs.map Char.toLower = (hexOfBytes raw).toList := by
  have hSame : (cs.filter fun c => !isAsciiSpace c) = cs :=
    List.filter_eq_self.mpr fun c hc => by simp [hUnspaced c hc]
  have hDigits := digits_of_bytesOfHexChars? h
  rw [hSame] at hDigits
  refine ⟨fun c hc => ?_, hDigits⟩
  have hLower : c.toLower ∈ (hexOfBytes raw).toList := hDigits ▸ List.mem_map.mpr ⟨c, hc, rfl⟩
  obtain ⟨n, hn, hDigit⟩ := hexOfBytes_chars hLower
  rw [isHexDigit, ← (hexValue?_toLower c).1, hDigit, hexValue?_hexDigit n hn]
  rfl

end L0vi0x.Python

namespace L0vi0x.Chain

open L0vi0x.Python L0vi0x.Core

section Texts

variable {s text label : String} {raw : Bytes}

/-- `0x` and an even number of hexadecimal digits. -/
def IsHexText (s : String) : Prop :=
  ∃ ds : List Char, s.toList = '0' :: 'x' :: ds ∧ (∀ c ∈ ds, isHexDigit c = true) ∧
    ds.length % 2 = 0

/-- `0x` and 40 hexadecimal digits. -/
def IsAddressText (s : String) : Prop :=
  ∃ ds : List Char, s.toList = '0' :: 'x' :: ds ∧ (∀ c ∈ ds, isHexDigit c = true) ∧ ds.length = 40

/-- `bytes.fromhex` reads the text behind its `0x`, and passes over white space in it. -/
def SkipsSpace (s : String) : Prop :=
  ∃ ds : List Char, s.toList = '0' :: 'x' :: ds ∧ (∃ raw, bytesOfHexChars? ds = some raw) ∧
    ∃ c ∈ ds, isAsciiSpace c = true

theorem hexText_reads_iff :
    hexText (.str s) label = .ok text ↔
      (∃ ds raw, s.toList = '0' :: 'x' :: ds ∧ bytesOfHexChars? ds = some raw) ∧ lower s = text := by
  have hStart : startsWith s "0x" = true ↔ ∃ ds, s.toList = '0' :: 'x' :: ds := by
    rw [startsWith, List.isPrefixOf_iff_prefix]
    constructor
    · rintro ⟨ds, hText⟩
      exact ⟨ds, hText.symm⟩
    · rintro ⟨ds, hText⟩
      exact ⟨ds, hText.symm⟩
  simp only [hexText]
  split
  · rename_i hPrefix
    obtain ⟨ds, hText⟩ := hStart.mp hPrefix
    have hDrop : bytesOfHex? (dropText s 2) = bytesOfHexChars? ds := by
      rw [bytesOfHex?, dropText, String.toList_ofList, hText]
      rfl
    rw [hDrop]
    cases hRead : bytesOfHexChars? ds with
    | none =>
        simp only [formatError, raise_ne_ok, false_iff, not_and]
        rintro ⟨ds', raw, hText', hRead'⟩
        rw [hText, List.cons.injEq, List.cons.injEq] at hText'
        rw [← hText'.2.2, hRead] at hRead'
        cases hRead'
    | some raw =>
        simp only [pure_eq_ok]
        exact ⟨fun h => ⟨⟨ds, raw, hText, hRead⟩, h⟩, fun h => h.2⟩
  · rename_i hNot
    simp only [formatError, raise_ne_ok, false_iff, not_and]
    rintro ⟨ds, raw, hText, _⟩
    exact absurd (hStart.mpr ⟨ds, hText⟩) hNot

/-- A text is read when `bytes.fromhex` reads what stands behind its `0x`. -/
theorem hexText_returns_iff :
    returns (hexText (.str s) label) ↔
      ∃ ds raw, s.toList = '0' :: 'x' :: ds ∧ bytesOfHexChars? ds = some raw := by
  simp only [returns, hexText_reads_iff, exists_and_left, exists_eq', and_true]

/-- There is no white space among digits. -/
theorem IsHexText.unspaced (h : IsHexText s) : ¬ SkipsSpace s := by
  obtain ⟨ds, hText, hDigits, _⟩ := h
  rintro ⟨ds', hText', _, c, hc, hSpace⟩
  rw [hText, List.cons.injEq, List.cons.injEq] at hText'
  obtain ⟨n, hn⟩ := Option.isSome_iff_exists.mp (hDigits c (hText'.2.2 ▸ hc))
  rw [(hexValue?_digit hn).2.2] at hSpace
  cases hSpace

theorem IsHexText.reads (h : IsHexText s) (label : String) : returns (hexText (.str s) label) := by
  obtain ⟨ds, hText, hDigits, hEven⟩ := h
  obtain ⟨raw, hRead⟩ := bytesOfHexChars?_of_digits hDigits hEven
  exact hexText_returns_iff.mpr ⟨ds, raw, hText, hRead⟩

/-- What is read without white space is the text of a byte string. -/
theorem text_of_hexText (h : hexText (.str s) label = .ok text) (hUnspaced : ¬ SkipsSpace s) :
    IsHexText s ∧ ∃ raw, hexBody text = .ok raw ∧ text = "0x" ++ hexOfBytes raw := by
  obtain ⟨⟨ds, raw, hText, hRead⟩, rfl⟩ := hexText_reads_iff.mp h
  have hSpaces : ∀ c ∈ ds, isAsciiSpace c = false := by
    intro c hc
    rw [← Bool.not_eq_true]
    intro hSpace
    exact hUnspaced ⟨ds, hText, ⟨raw, hRead⟩, c, hc, hSpace⟩
  obtain ⟨hDigits, hLower⟩ := bytesOfHexChars?_unspaced hSpaces hRead
  have hLength : ds.length = 2 * raw.length := by
    rw [← hexOfBytes_length, ← hLower, List.length_map]
  have hCanonical : lower s = "0x" ++ hexOfBytes raw := by
    rw [lower, hText, List.map_cons, List.map_cons, hLower, ← String.toList_inj, String.toList_ofList,
      String.toList_append]
    rfl
  refine ⟨⟨ds, hText, hDigits, by omega⟩, raw, ?_, hCanonical⟩
  rw [hexBody, hCanonical, bytesOfHex, show dropText ("0x" ++ hexOfBytes raw) 2 = hexOfBytes raw from
    dropText_append "0x" (hexOfBytes raw), bytesOfHex?_hexOfBytes]
  rfl

/-- A text that is read with white space in it is no number of digits, and longer than
its bytes suggest. -/
theorem SkipsSpace.longer (h : SkipsSpace s) (label : String) :
    ∃ raw, hexText (.str s) label = .ok (lower s) ∧ hexBody (lower s) = .ok raw ∧
      2 + 2 * raw.length < (lower s).length := by
  obtain ⟨ds, hText, ⟨raw, hRead⟩, c, hc, hSpace⟩ := h
  have hLower : (lower s).toList = '0' :: 'x' :: ds.map Char.toLower := by
    rw [lower, String.toList_ofList, hText]
    rfl
  have hCount : (ds.filter fun c => !isAsciiSpace c).length = 2 * raw.length := by
    rw [← hexOfBytes_length, ← digits_of_bytesOfHexChars? hRead, List.length_map]
  have hFewer : (ds.filter fun c => !isAsciiSpace c).length < ds.length :=
    List.length_filter_lt_length_iff_exists.mpr ⟨c, hc, by simp [hSpace]⟩
  refine ⟨raw, hexText_reads_iff.mpr ⟨⟨ds, raw, hText, hRead⟩, rfl⟩, ?_, ?_⟩
  · rw [hexBody, bytesOfHex, bytesOfHex?, dropText, String.toList_ofList, hLower, List.drop_succ_cons,
      List.drop_succ_cons, List.drop_zero, bytesOfHexChars?_map_toLower, hRead]
    rfl
  · rw [← String.length_toList, hLower, List.length_cons, List.length_cons, List.length_map]
    omega

/-- Without white space, an address is what is read with 42 characters. -/
theorem addressText_returns_iff (hUnspaced : ¬ SkipsSpace s) :
    returns (addressText (.str s) label) ↔ IsAddressText s := by
  rw [addressText, returns_bind]
  constructor
  · rintro ⟨text, hRead, hLength⟩
    obtain ⟨⟨ds, hText, hDigits, _⟩, _⟩ := text_of_hexText hRead hUnspaced
    obtain ⟨_, rfl⟩ := hexText_reads_iff.mp hRead
    refine ⟨ds, hText, hDigits, ?_⟩
    have hSame : (lower s).length = ds.length + 2 := by
      rw [← String.length_toList, lower, String.toList_ofList, hText, List.length_map]
      rfl
    by_cases hAddress : (lower s).length = 42
    · omega
    · rw [if_neg hAddress] at hLength
      exact absurd hLength (not_returns_error _)
  · rintro ⟨ds, hText, hDigits, hForty⟩
    have hHex : IsHexText s := ⟨ds, hText, hDigits, by omega⟩
    obtain ⟨text, hRead⟩ := hHex.reads label
    obtain ⟨_, rfl⟩ := hexText_reads_iff.mp hRead
    have hAddress : (lower s).length = 42 := by
      rw [← String.length_toList, lower, String.toList_ofList, hText, List.length_map,
        List.length_cons, List.length_cons, hForty]
    refine ⟨_, hRead, ?_⟩
    rw [if_pos hAddress]
    exact ⟨_, rfl⟩

/-- What validation promises of the texts that are given: exactly the well-formed ones are
accepted, an accepted text has the length of its bytes, and equal bytes have equal texts. -/
structure HexValidated (given : Set String) (label : String) : Prop where
  hex : ∀ s ∈ given, (returns (hexText (.str s) label) ↔ IsHexText s)
  address : ∀ s ∈ given, (returns (addressText (.str s) label) ↔ IsAddressText s)
  suggested : ∀ s ∈ given, ∀ text raw, hexText (.str s) label = .ok text →
    hexBody text = .ok raw → text.length = 2 + 2 * raw.length
  identity : ∀ s ∈ given, ∀ s' ∈ given, ∀ text text' raw, hexText (.str s) label = .ok text →
    hexText (.str s') label = .ok text' → hexBody text = .ok raw → hexBody text' = .ok raw →
    text = text'

/-- Validation is exact on a collection of texts exactly when white space is passed over in
none of them. -/
theorem hexValidated_iff_unspaced (given : Set String) (label : String) :
    HexValidated given label ↔ ∀ s ∈ given, ¬ SkipsSpace s := by
  constructor
  · intro h s hs hSkips
    obtain ⟨raw, hRead, hBody, hLonger⟩ := hSkips.longer label
    have hLength := h.suggested s hs (lower s) raw hRead hBody
    omega
  · intro h
    have hText : ∀ s ∈ given, ∀ text raw, hexText (.str s) label = .ok text →
        hexBody text = .ok raw → text = "0x" ++ hexOfBytes raw := by
      intro s hs text raw hRead hBody
      obtain ⟨_, raw', hBody', hCanonical⟩ := text_of_hexText hRead (h s hs)
      rw [hBody, Except.ok.injEq] at hBody'
      rw [hCanonical, hBody']
    refine ⟨fun s hs => ?_, fun s hs => addressText_returns_iff (h s hs), ?_, ?_⟩
    · constructor
      · rintro ⟨text, hRead⟩
        exact (text_of_hexText hRead (h s hs)).1
      · intro hHex
        exact hHex.reads label
    · intro s hs text raw hRead hBody
      have hDigits : (hexOfBytes raw).length = 2 * raw.length := by
        rw [← String.length_toList, hexOfBytes_length]
      rw [hText s hs text raw hRead hBody, String.length_append, hDigits]
      rfl
    · intro s hs s' hs' text text' raw hRead hRead' hBody hBody'
      rw [hText s hs text raw hRead hBody, hText s' hs' text' raw hRead' hBody']

end Texts

section Frames

variable {host : Host} {phase : Phase} {v : Visit} {f : ArenaFrame}

def ArenaLog.texts (log : ArenaLog) : List String := log.address :: log.topics ++ [log.data]

/-- The addresses, calldata, topics and log data of a frame. -/
def ArenaFrame.texts (f : ArenaFrame) : List String :=
  [f.head.toAddress, f.head.caller, f.head.data] ++ f.logs.flatMap ArenaLog.texts

def Validated (text : String) : Prop := ∃ s label, hexText (.str s) label = .ok text

theorem validated_of_hexText {value : Json} {label text : String}
    (h : hexText value label = .ok text) : Validated text := by
  cases value with
  | str s => exact ⟨s, label, h⟩
  | _ => simp [hexText, formatError] at h

theorem validated_of_addressText {value : Json} {label text : String}
    (h : addressText value label = .ok text) : Validated text := by
  rw [addressText, bind_eq_ok] at h
  obtain ⟨read, hRead, h⟩ := h
  split at h
  · obtain rfl := pure_eq_ok.mp h
    exact validated_of_hexText hRead
  · simp [formatError] at h

theorem validated_log {entry : Json} {reverted : Bool} {log : ArenaLog}
    (h : convertLog host entry reverted = .ok log) : ∀ text ∈ log.texts, Validated text := by
  unfold convertLog at h
  split at h
  · simp only [bind_eq_ok, pure_eq_ok, mapM_eq_ok] at h
    obtain ⟨given, _, address, hAddress, topics, hTopics, data, hData, ⟨details, transfer⟩, _, rfl⟩ := h
    intro text hMem
    rcases List.mem_append.mp hMem with hMem | hMem
    · rcases List.mem_cons.mp hMem with rfl | hTopic
      · exact validated_of_addressText hAddress
      · obtain ⟨t, _, hRead⟩ := forall₂_exists_left hTopics hTopic
        exact validated_of_hexText hRead
    · rw [List.mem_singleton.mp hMem]
      exact validated_of_hexText hData
  · simp [formatError] at h

/-- A validated text without white space is the canonical text of its bytes. -/
theorem Validated.canonical {text : String} (h : Validated text) (hUnspaced : ¬ SkipsSpace text) :
    ∃ raw, hexBody text = .ok raw ∧ text = "0x" ++ hexOfBytes raw := by
  obtain ⟨s, label, hRead⟩ := h
  obtain ⟨-, rfl⟩ := hexText_reads_iff.mp hRead
  refine (text_of_hexText hRead fun hSkips => hUnspaced ?_).2
  obtain ⟨ds, hText, ⟨raw, hBytes⟩, c, hc, hSpace⟩ := hSkips
  refine ⟨ds.map Char.toLower, ?_, ⟨raw, ?_⟩, c.toLower, List.mem_map_of_mem hc, ?_⟩
  · rw [lower, String.toList_ofList, hText]
    rfl
  · rw [bytesOfHexChars?_map_toLower, hBytes]
  · rw [(hexValue?_toLower c).2, hSpace]

/-- Every address, topic and calldata text that leaves the adapter has been validated. -/
theorem FrameOf.validated (h : FrameOf host phase v f) : ∀ text ∈ f.texts, Validated text := by
  have hHead := h.head
  unfold openFrame at hHead
  split at hHead
  · simp only [bind_eq_ok, pure_eq_ok] at hHead
    obtain ⟨_, _, target, hTarget, data, hData, _, _, _, _, caller, hCaller, _, _, _, _, hEq⟩ := hHead
    intro text hMem
    rcases List.mem_append.mp hMem with hMem | hMem
    · rw [← hEq] at hMem
      simp only [List.mem_cons, List.not_mem_nil, or_false] at hMem
      rcases hMem with rfl | rfl | rfl
      · exact validated_of_addressText hTarget
      · exact validated_of_addressText hCaller
      · exact validated_of_hexText hData
    · obtain ⟨log, hLog, hText⟩ := List.mem_flatMap.mp hMem
      obtain ⟨entry, _, hConvert⟩ := forall₂_exists_left h.logs hLog
      exact validated_log hConvert text hText
  · simp [formatError] at hHead

end Frames

/-- Validation is exact on a collection of texts exactly when white space is passed over in
none of them. Every address, topic and calldata text that leaves the adapter has been
validated, and is the canonical text of its bytes unless there is white space in it. -/
theorem hex_validated_iff (given : Set String) (label : String) :
    (HexValidated given label ↔ ∀ s ∈ given, ¬ SkipsSpace s) ∧
      ∀ host phase v f, FrameOf host phase v f → ∀ text ∈ f.texts,
        Validated text ∧ (¬ SkipsSpace text → ∃ raw, hexBody text = .ok raw ∧
          text = "0x" ++ hexOfBytes raw) :=
  ⟨hexValidated_iff_unspaced given label, fun _ _ _ _ h text hText =>
    ⟨h.validated text hText, (h.validated text hText).canonical⟩⟩

/-- Nineteen bytes, written with two blanks behind them. -/
def spacedAddress : String := "0x" ++ hexOfBytes (List.replicate 19 1) ++ "  "

/-- Nineteen bytes are taken for an address of twenty. -/
theorem spaced_address_accepted :
    addressText (.str spacedAddress) "log emitter" = .ok spacedAddress ∧
      ¬ IsAddressText spacedAddress ∧ hexBody spacedAddress = .ok (List.replicate 19 1) ∧
      ¬ HexValidated {spacedAddress} "log emitter" := by
  have hRead : hexText (.str spacedAddress) "log emitter" = .ok spacedAddress := by decide +kernel
  have hBody : hexBody spacedAddress = .ok (List.replicate 19 1) := by decide +kernel
  have hLength : spacedAddress.length = 42 := by decide
  have hBlanks : (spacedAddress.toList.drop 2).all isHexDigit = false := by decide +kernel
  refine ⟨?_, ?_, hBody, fun h => ?_⟩
  · rw [addressText, hRead]
    show (if spacedAddress.length = 42 then (pure spacedAddress : Py String)
      else formatError ("log emitter" ++ " is not a 20-byte address")) = _
    rw [if_pos hLength]
    rfl
  · rintro ⟨ds, hText, hDigits, _⟩
    rw [hText, List.drop_succ_cons, List.drop_succ_cons, List.drop_zero,
      List.all_eq_true.mpr hDigits] at hBlanks
    cases hBlanks
  · have hSuggested := h.suggested spacedAddress rfl _ _ hRead hBody
    rw [hLength, List.length_replicate] at hSuggested
    cases hSuggested

end L0vi0x.Chain
