import L0vi0x.Chain.HexTexts

/-! The ids of decoded events. A word that is printable text before its trailing zeros is
labelled with the text, every other one with its own digits. -/
namespace L0vi0x.Chain

open L0vi0x.Python L0vi0x.Core

section Words

variable {w v label : String} {raw other : Bytes}

/-- A word of 32 bytes, written as `0x` and its digits in lower case. -/
structure IsWord (w : String) : Prop where
  hex : IsHexText w
  lowered : lower w = w
  length : w.length = 66

def wordText (raw : Bytes) : String := "0x" ++ hexOfBytes raw

/-- The text of a byte string is decoded to it. -/
theorem hexBody_wordText (raw : Bytes) : hexBody (wordText raw) = .ok raw := by
  rw [hexBody, bytesOfHex, wordText, show dropText ("0x" ++ hexOfBytes raw) 2 = hexOfBytes raw from
    dropText_append "0x" (hexOfBytes raw), bytesOfHex?_hexOfBytes]
  rfl

theorem wordText_injective : Function.Injective wordText := by
  intro raw other h
  exact hexOfBytes_injective ((String.append_right_inj _).mp h)

theorem wordText_length (raw : Bytes) : (wordText raw).length = 2 + 2 * raw.length := by
  have hDigits : (hexOfBytes raw).length = 2 * raw.length := by
    rw [← String.length_toList, hexOfBytes_length]
  rw [wordText, String.length_append, hDigits]
  rfl

/-- A word is the text of 32 bytes. -/
theorem IsWord.eq_wordText (h : IsWord w) : ∃ raw : Bytes, raw.length = 32 ∧ w = wordText raw := by
  obtain ⟨text, hRead⟩ := h.hex.reads ""
  obtain ⟨_, rfl⟩ := hexText_reads_iff.mp hRead
  obtain ⟨_, raw, _, hText⟩ := text_of_hexText hRead h.hex.unspaced
  rw [h.lowered] at hText
  have hLength := h.length
  rw [hText, show "0x" ++ hexOfBytes raw = wordText raw from rfl, wordText_length] at hLength
  exact ⟨raw, by omega, hText⟩

theorem isWord_wordText (hLength : raw.length = 32) : IsWord (wordText raw) := by
  refine ⟨⟨(hexOfBytes raw).toList, ?_, ?_, ?_⟩, ?_, ?_⟩
  · rw [wordText, String.toList_append]
    rfl
  · intro c hc
    obtain ⟨n, hn, rfl⟩ := hexOfBytes_chars hc
    rw [isHexDigit, hexValue?_hexDigit n hn]
    rfl
  · rw [hexOfBytes_length]
    omega
  · rw [wordText, lower, String.toList_append, List.map_append, ← String.toList_inj,
      String.toList_ofList, String.toList_append]
    have hLower := congrArg String.toList (lower_hexOfBytes raw)
    rw [lower, String.toList_ofList] at hLower
    rw [hLower]
    rfl
  · rw [wordText_length, hLength]

/-- A validated topic of 66 characters is a word, unless white space was passed over in it. -/
theorem isWord_of_hexText {s : String} (h : hexText (.str s) label = .ok w)
    (hUnspaced : ¬ SkipsSpace s) (hLength : w.length = 66) : IsWord w := by
  obtain ⟨⟨ds, hText, hDigits, hEven⟩, _⟩ := text_of_hexText h hUnspaced
  obtain ⟨_, rfl⟩ := hexText_reads_iff.mp h
  refine ⟨⟨ds.map Char.toLower, ?_, ?_, by rw [List.length_map, hEven]⟩, lower_lower s, hLength⟩
  · rw [lower, String.toList_ofList, hText]
    rfl
  · intro c hc
    obtain ⟨d, hd, rfl⟩ := List.mem_map.mp hc
    rw [isHexDigit, (hexValue?_toLower d).1]
    exact hDigits d hd

end Words

section Labels

variable {w v label : String} {raw other : Bytes}

/-- The text of bytes that are read as ASCII. -/
def asciiText (raw : Bytes) : String := String.ofList (raw.map fun b => Char.ofNat b.toNat)

/-- `label.encode("ascii").ljust(32, b"\0")`. -/
def zeroPadded (label : String) : Bytes :=
  label.toList.map (fun c => UInt8.ofNat c.toNat) ++ List.replicate (32 - label.length) 0

/-- A byte is read back from its character. -/
theorem byte_of_char (b : UInt8) : UInt8.ofNat (Char.ofNat b.toNat).toNat = b := by
  have hAll : ∀ n < 256, (Char.ofNat n).toNat = n := by decide +kernel
  rw [hAll b.toNat b.toNat_lt, UInt8.ofNat_toNat]

/-- The label of a word is text, which gives the word back when it is padded, or the word. -/
theorem bytes32Label_wordText (hLength : raw.length = 32) :
    ∃ label, bytes32Label (wordText raw) = .ok label ∧
      (label = wordText raw ∨ label.length ≤ 32 ∧ zeroPadded label = raw) := by
  have hSplit := @List.rdropWhile_append_rtakeWhile _ (fun b : UInt8 => decide (b = 0)) raw
  have hZeros : ∀ b ∈ raw.rtakeWhile fun b : UInt8 => decide (b = 0), b = 0 := by
    intro b hb
    simpa using List.mem_rtakeWhile_imp hb
  simp only [bytes32Label, hexBody_wordText, bind, Except.bind]
  rw [show (raw.reverse.dropWhile fun b : UInt8 => decide (b = 0)).reverse =
    raw.rdropWhile fun b : UInt8 => decide (b = 0) from rfl]
  generalize raw.rdropWhile (fun b : UInt8 => decide (b = 0)) = stripped at hSplit
  generalize raw.rtakeWhile (fun b : UInt8 => decide (b = 0)) = zeros at hSplit hZeros
  split
  · refine ⟨asciiText stripped, rfl, .inr ?_⟩
    have hCount : (asciiText stripped).length = stripped.length := by
      rw [asciiText, ← String.length_toList, String.toList_ofList, List.length_map]
    have hSum : stripped.length + zeros.length = 32 := by
      rw [← hLength, ← hSplit, List.length_append]
    refine ⟨by omega, ?_⟩
    have hBytes : (asciiText stripped).toList.map (fun c => UInt8.ofNat c.toNat) = stripped := by
      rw [asciiText, String.toList_ofList, List.map_map]
      refine (List.map_congr_left fun b _ => ?_).trans (List.map_id _)
      exact byte_of_char b
    have hPadding : List.replicate (32 - stripped.length) 0 = zeros := by
      rw [eq_comm, List.eq_replicate_iff]
      exact ⟨by omega, hZeros⟩
    rw [zeroPadded, hBytes, hCount, hPadding, hSplit]
  · exact ⟨wordText raw, rfl, .inl rfl⟩

/-- Two words have one label only if they are equal. -/
theorem bytes32Label_injective (hRaw : raw.length = 32) (hOther : other.length = 32)
    (h : bytes32Label (wordText raw) = bytes32Label (wordText other)) : raw = other := by
  obtain ⟨label, hLabel, hForm⟩ := bytes32Label_wordText hRaw
  obtain ⟨label', hLabel', hForm'⟩ := bytes32Label_wordText hOther
  rw [hLabel, hLabel', Except.ok.injEq] at h
  subst h
  have hLong : ∀ bytes : Bytes, bytes.length = 32 → ¬ (wordText bytes).length ≤ 32 := by
    intro bytes hBytes
    rw [wordText_length, hBytes]
    decide
  rcases hForm with rfl | ⟨hShort, hPadded⟩
  · rcases hForm' with hSame | ⟨hShort', _⟩
    · exact wordText_injective hSame
    · exact absurd hShort' (hLong raw hRaw)
  · rcases hForm' with rfl | ⟨_, hPadded'⟩
    · exact absurd hShort (hLong other hOther)
    · rw [← hPadded, hPadded']

end Labels

section Events

variable {w v t t' data data' : String} {fields fields' : List (String × Json)}
  {decode decode' : List String → String → Py (List (String × Json))}

/-- The decoders of the events that are told apart by an indexed id. -/
def eventDecoders : List (List String → String → Py (List (String × Json))) :=
  [decodeAssertion, decodeContext, decodeControl, decodeEconomic]

/-- A decoded event has the label of its word for an id. -/
theorem id_of_decoded (hDecode : decode ∈ eventDecoders) (h : decode [t, w] data = .ok fields) :
    ∃ label, bytes32Label w = .ok label ∧ fields.lookup "id" = some (.str label) := by
  have hNamed : ∀ {names : List String} {event : Signature} {indexed : String},
      namedArguments names <$> decodeIndexed event indexed [t, w] data = .ok fields →
        ∃ label, bytes32Label w = .ok label ∧ fields.lookup "id" = some (.str label) := by
    intro names event indexed hFields
    obtain ⟨decoded, hDecoded, rfl⟩ := map_eq_ok.mp hFields
    simp only [decodeIndexed, bind_eq_ok, pure_eq_ok] at hDecoded
    obtain ⟨_, _, args, _, label, hLabel, rfl⟩ := hDecoded
    exact ⟨label, hLabel, rfl⟩
  simp only [eventDecoders, List.mem_cons, List.not_mem_nil, or_false] at hDecode
  rcases hDecode with rfl | rfl | rfl | rfl
  · exact hNamed h
  · exact hNamed h
  · exact hNamed h
  · exact hNamed h

/-- Labels tell words apart, a label in text gives its word back, and events are joined by
their ids exactly when their indexed words are equal. -/
theorem event_ids_exact (hw : IsWord w) (hv : IsWord v) :
    (bytes32Label w = bytes32Label v ↔ w = v) ∧
    (∃ label, bytes32Label w = .ok label ∧
      (label = w ∨ label.length ≤ 32 ∧ wordText (zeroPadded label) = w)) ∧
    ∀ decode ∈ eventDecoders, ∀ decode' ∈ eventDecoders, ∀ t t' data data' fields fields',
      decode [t, w] data = .ok fields → decode' [t', v] data' = .ok fields' →
        (fields.lookup "id" = fields'.lookup "id" ↔ w = v) := by
  obtain ⟨raw, hRaw, rfl⟩ := hw.eq_wordText
  obtain ⟨other, hOther, rfl⟩ := hv.eq_wordText
  have hLabels : bytes32Label (wordText raw) = bytes32Label (wordText other) ↔
      wordText raw = wordText other := by
    constructor
    · intro h
      rw [bytes32Label_injective hRaw hOther h]
    · intro h
      rw [h]
  refine ⟨hLabels, ?_, ?_⟩
  · obtain ⟨label, hLabel, hForm⟩ := bytes32Label_wordText hRaw
    exact ⟨label, hLabel, hForm.imp_right fun h => ⟨h.1, congrArg wordText h.2⟩⟩
  · intro decode hDecode decode' hDecode' t t' data data' fields fields' h h'
    obtain ⟨label, hLabel, hId⟩ := id_of_decoded hDecode h
    obtain ⟨label', hLabel', hId'⟩ := id_of_decoded hDecode' h'
    rw [← hLabels, hId, hId', hLabel, hLabel']
    simp

/-- An event whose word is the text `a1`, and one whose word is zero. -/
def namedEvent : List (String × Json) := [("id", .str "a1"), ("state_changed", .bool true)]

def unnamedEvent : List (String × Json) :=
  [("id", .str (wordText (List.replicate 32 0))), ("state_changed", .bool true)]

/-- The ids of the two events are equal exactly when their words are. -/
theorem named_and_unnamed_ids :
    namedEvent.lookup "id" = unnamedEvent.lookup "id" ↔
      wordText ([97, 49] ++ List.replicate 30 0) = wordText (List.replicate 32 0) := by
  have hNamed : decodeControl ["0x", wordText ([97, 49] ++ List.replicate 30 0)]
      (wordText (List.replicate 31 0 ++ [1])) = .ok namedEvent := by decide +kernel
  have hUnnamed : decodeControl ["0x", wordText (List.replicate 32 0)]
      (wordText (List.replicate 31 0 ++ [1])) = .ok unnamedEvent := by decide +kernel
  have hDecoder : decodeControl ∈ eventDecoders := by simp [eventDecoders]
  exact (event_ids_exact (isWord_wordText rfl) (isWord_wordText rfl)).2.2 decodeControl hDecoder
    decodeControl hDecoder _ _ _ _ _ _ hNamed hUnnamed

end Events
end L0vi0x.Chain
