import L0vi0x.Chain.BigEndian

/-! Recursive length prefixes: byte strings and lists of items, each behind a header with
its length. The reader accepts the shortest spelling of an item and no other. -/
namespace L0vi0x.Chain

open L0vi0x.Python

inductive RlpItem
  | bytes (raw : Bytes)
  | list (items : List RlpItem)

namespace Rlp

def bitLength (n : Nat) : Nat := if n = 0 then 0 else n.log2 + 1

/-- `n.to_bytes((n.bit_length() + 7) // 8, "big")`. -/
def minimalBytes (n : Nat) : Bytes := bytesOfNat ((bitLength n + 7) / 8) n

/-- The header of `n` bytes; `short` tells strings from lists. -/
def header (short n : Nat) : Bytes :=
  if n < 56 then [UInt8.ofNat (short + n)]
  else UInt8.ofNat (short + 55 + (minimalBytes n).length) :: minimalBytes n

def isPlain : Bytes → Bool
  | [b] => b.toNat < 0x80
  | _ => false

def encodeBytes (raw : Bytes) : Bytes :=
  if isPlain raw then raw else header 0x80 raw.length ++ raw

mutual
def encode : RlpItem → Bytes
  | .bytes raw => encodeBytes raw
  | .list items => header 0xc0 (encodeItems items).length ++ encodeItems items

def encodeItems : List RlpItem → Bytes
  | [] => []
  | item :: rest => encode item ++ encodeItems rest
end

/-- The length that a header starting with `first` gives, and what follows the header. -/
def readLength (short first : Nat) (rest : Bytes) : Option (Nat × Bytes) :=
  if first < short + 56 then some (first - short, rest)
  else
    let digits := rest.take (first - (short + 55))
    if digits.length = first - (short + 55) ∧ digits.head? ≠ some 0 ∧ 56 ≤ natOfBytes digits then
      some (natOfBytes digits, rest.drop (first - (short + 55)))
    else none

/-- The bytes behind a header, and what follows them. -/
def readPayload (short first : Nat) (rest : Bytes) : Option (Bytes × Bytes) :=
  (readLength short first rest).bind fun p =>
    if p.1 ≤ p.2.length then some (p.2.take p.1, p.2.drop p.1) else none

mutual
/-- One item from the front of some bytes. -/
def readItem : Nat → Bytes → Option (RlpItem × Bytes)
  | 0, _ => none
  | _ + 1, [] => none
  | fuel + 1, b :: rest =>
      if b.toNat < 0x80 then some (.bytes [b], rest)
      else if b.toNat < 0xc0 then
        (readPayload 0x80 b.toNat rest).bind fun p =>
          if isPlain p.1 then none else some (.bytes p.1, p.2)
      else
        (readPayload 0xc0 b.toNat rest).bind fun p =>
          (readItems fuel p.1).map fun items => (.list items, p.2)

/-- Items up to the end of some bytes. -/
def readItems : Nat → Bytes → Option (List RlpItem)
  | 0, _ => none
  | _ + 1, [] => some []
  | fuel + 1, b :: rest =>
      (readItem fuel (b :: rest)).bind fun p => (readItems fuel p.2).map (p.1 :: ·)
end

def decode? (raw : Bytes) : Option RlpItem :=
  match readItem (2 * raw.length) raw with
  | some (item, []) => some item
  | _ => none

section Lengths

/-- A number has so many bits when it is below the power. -/
theorem bitLength_le_iff {n k : Nat} : bitLength n ≤ k ↔ n < 2 ^ k := by
  unfold bitLength
  by_cases hZero : n = 0
  · rw [if_pos hZero, hZero]
    exact iff_of_true (Nat.zero_le k) (Nat.two_pow_pos k)
  · rw [if_neg hZero, Nat.succ_le_iff, Nat.log2_lt hZero]

theorem pow_width (width : Nat) : 256 ^ width = 2 ^ (8 * width) := by
  rw [Nat.pow_mul]

/-- A number that fits has no more minimal bytes. -/
theorem minimalBytes_length_le {n width : Nat} (h : n < 256 ^ width) :
    (minimalBytes n).length ≤ width := by
  have hBits := bitLength_le_iff.mpr (pow_width width ▸ h)
  rw [minimalBytes, bytesOfNat_length]
  omega

/-- A number is read back from its minimal bytes. -/
theorem natOfBytes_minimalBytes (n : Nat) : natOfBytes (minimalBytes n) = n := by
  apply natOfBytes_bytesOfNat
  rw [pow_width, ← bitLength_le_iff]
  omega

theorem natOfBytes_zero_cons (raw : Bytes) : natOfBytes (0 :: raw) = natOfBytes raw := by
  simp [natOfBytes]

/-- The shortest spelling of a number has no leading zero. -/
theorem minimalBytes_head (n : Nat) : (minimalBytes n).head? ≠ some 0 := by
  intro hHead
  obtain ⟨rest, hRest⟩ : ∃ rest, minimalBytes n = 0 :: rest := by
    cases hBytes : minimalBytes n with
    | nil =>
        rw [hBytes] at hHead
        cases hHead
    | cons b rest =>
        rw [hBytes] at hHead
        exact ⟨rest, by rw [Option.some.inj hHead]⟩
  have hLength : (minimalBytes n).length ≤ rest.length := by
    apply minimalBytes_length_le
    have hLt := natOfBytes_lt rest
    rwa [← natOfBytes_zero_cons, ← hRest, natOfBytes_minimalBytes] at hLt
  rw [hRest, List.length_cons] at hLength
  omega

theorem header_length_pos (short n : Nat) : 0 < (header short n).length := by
  unfold header
  split
  · exact Nat.one_pos
  · exact Nat.succ_pos _

/-- No item is encoded to nothing. -/
theorem encode_length_pos (item : RlpItem) : 0 < (encode item).length := by
  cases item with
  | bytes raw =>
      rw [encode, encodeBytes]
      split
      · rename_i hPlain
        cases raw with
        | nil => cases hPlain
        | cons b rest => exact Nat.succ_pos _
      · have hHeader := header_length_pos 0x80 raw.length
        rw [List.length_append]
        omega
  | list items =>
      have hHeader := header_length_pos 0xc0 (encodeItems items).length
      rw [encode, List.length_append]
      omega

end Lengths

section RoundTrip

/-- A header tells where its bytes end. -/
theorem readPayload_header {short : Nat} (hShort : short ≤ 0xc0) {payload : Bytes}
    (h : payload.length < 256 ^ 8) (rest : Bytes) :
    ∃ first tail, header short payload.length ++ payload ++ rest = first :: tail ∧
      short ≤ first.toNat ∧ first.toNat < short + 64 ∧
        readPayload short first.toNat tail = some (payload, rest) := by
  by_cases hSmall : payload.length < 56
  · have hFirst : (UInt8.ofNat (short + payload.length)).toNat = short + payload.length :=
      UInt8.toNat_ofNat_of_lt' (by simp only [UInt8.size]; omega)
    have hLength : readLength short (short + payload.length) (payload ++ rest) =
        some (payload.length, payload ++ rest) := by
      rw [readLength, if_pos (by omega), Nat.add_sub_cancel_left]
    refine ⟨UInt8.ofNat (short + payload.length), payload ++ rest, ?_, ?_, ?_, ?_⟩
    · rw [header, if_pos hSmall, List.append_assoc]
      rfl
    · omega
    · omega
    · rw [readPayload, hFirst, hLength, Option.bind_some, if_pos (by simp), List.take_left,
        List.drop_left]
  · have hWidth : (minimalBytes payload.length).length ≤ 8 := minimalBytes_length_le h
    have hNumber := natOfBytes_minimalBytes payload.length
    have hPos : 0 < (minimalBytes payload.length).length := by
      rw [List.length_pos_iff]
      intro hNil
      rw [hNil] at hNumber
      have hZero : natOfBytes [] = 0 := rfl
      omega
    generalize hDigits : minimalBytes payload.length = digits at hWidth hNumber hPos
    have hFirst : (UInt8.ofNat (short + 55 + digits.length)).toNat = short + 55 + digits.length :=
      UInt8.toNat_ofNat_of_lt' (by simp only [UInt8.size]; omega)
    have hHead : digits.head? ≠ some 0 := hDigits ▸ minimalBytes_head payload.length
    have hLength : readLength short (short + 55 + digits.length) (digits ++ (payload ++ rest)) =
        some (payload.length, payload ++ rest) := by
      have hSub : short + 55 + digits.length - (short + 55) = digits.length := by omega
      simp only [readLength, hSub, List.take_left, List.drop_left]
      rw [if_neg (by omega), if_pos ⟨trivial, hHead, by omega⟩, hNumber]
    refine ⟨UInt8.ofNat (short + 55 + digits.length), digits ++ (payload ++ rest), ?_, ?_, ?_, ?_⟩
    · rw [header, if_neg hSmall, hDigits, List.append_assoc]
      rfl
    · omega
    · omega
    · rw [readPayload, hFirst, hLength, Option.bind_some, if_pos (by simp), List.take_left,
        List.drop_left]

/-- An encoded string is read back, with the rest left. -/
theorem readItem_encodeBytes {raw : Bytes} (h : raw.length < 256 ^ 8) (fuel : Nat) (rest : Bytes) :
    readItem (fuel + 1) (encodeBytes raw ++ rest) = some (.bytes raw, rest) := by
  by_cases hPlain : isPlain raw = true
  · rw [encodeBytes, if_pos hPlain]
    match raw, hPlain with
    | [b], hPlain =>
        have hByte : b.toNat < 0x80 := of_decide_eq_true hPlain
        rw [List.singleton_append, readItem, if_pos hByte]
  · obtain ⟨first, tail, hEq, hLow, hHigh, hRead⟩ := @readPayload_header 0x80 (by omega) _ h rest
    rw [encodeBytes, if_neg hPlain, hEq, readItem, if_neg (by omega), if_pos (by omega), hRead,
      Option.bind_some, if_neg hPlain]

/-- What was encoded is read again, with more bytes behind it. -/
theorem read_encoded (fuel : Nat) :
    (∀ item rest, (encode item).length < 256 ^ 8 → 2 * (encode item).length ≤ fuel →
      readItem fuel (encode item ++ rest) = some (item, rest)) ∧
    ∀ items, (encodeItems items).length < 256 ^ 8 → 2 * (encodeItems items).length + 1 ≤ fuel →
      readItems fuel (encodeItems items) = some items := by
  induction fuel with
  | zero =>
      refine ⟨fun item rest _ hFuel => ?_, fun items _ hFuel => by omega⟩
      have hPos := encode_length_pos item
      omega
  | succ fuel ih =>
      refine ⟨fun item rest hFits hFuel => ?_, fun items hFits hFuel => ?_⟩
      · cases item with
        | bytes raw =>
            rw [encode] at hFits ⊢
            refine readItem_encodeBytes ?_ fuel rest
            unfold encodeBytes at hFits
            split at hFits
            · exact hFits
            · rw [List.length_append] at hFits
              omega
        | list items =>
            have hHeader := header_length_pos 0xc0 (encodeItems items).length
            rw [encode, List.length_append] at hFits hFuel
            obtain ⟨first, tail, hEq, hLow, -, hRead⟩ :=
              @readPayload_header 0xc0 le_rfl (encodeItems items) (by omega) rest
            rw [encode, hEq, readItem, if_neg (by omega), if_neg (by omega), hRead, Option.bind_some,
              ih.2 items (by omega) (by omega), Option.map_some]
      · cases items with
        | nil => rw [encodeItems, readItems]
        | cons item items =>
            have hPos := encode_length_pos item
            rw [encodeItems, List.length_append] at hFits hFuel
            obtain ⟨b, tail, hCons⟩ := List.exists_cons_of_ne_nil
              (List.ne_nil_of_length_pos (l := encode item ++ encodeItems items)
                (by rw [List.length_append]; omega))
            rw [encodeItems, hCons, readItems, ← hCons, ih.1 item _ (by omega) (by omega),
              Option.bind_some, ih.2 items (by omega) (by omega), Option.map_some]

/-- Decoding gives back the item. -/
theorem decode?_encode {item : RlpItem} (h : (encode item).length < 256 ^ 8) :
    decode? (encode item) = some item := by
  have hRead := (read_encoded (2 * (encode item).length)).1 item [] h le_rfl
  rw [List.append_nil] at hRead
  rw [decode?, hRead]

end RoundTrip
end Rlp
end L0vi0x.Chain
