import L0vi0x.Chain.Rlp
import L0vi0x.Chain.Witness

/-! The address of a contract from its deployer and the deployer's nonce. -/
namespace L0vi0x.Chain

open L0vi0x.Python L0vi0x.Core

def rlpLongString (raw : Bytes) : Bytes :=
  let lb := Rlp.minimalBytes raw.length
  UInt8.ofNat (0xb7 + lb.length) :: lb ++ raw

def rlpLongList (payload : Bytes) : Bytes :=
  let lb := Rlp.minimalBytes payload.length
  UInt8.ofNat (0xf7 + lb.length) :: lb ++ payload

def encNonce (nonce : Nat) : Bytes :=
  if nonce = 0 then [0x80]
  else
    let raw := Rlp.minimalBytes nonce
    if raw.length < 56 then UInt8.ofNat raw.length :: raw else rlpLongString raw

/-- The bytes that `create_address(deployer, nonce)` hashes. -/
def createEncoded (deployer : String) (nonce : Int) : Py Bytes := do
  raiseIf (nonce < 0) .valueError "nonce must be non-negative"
  raiseIf (2 ^ 256 ≤ nonce) .valueError "nonce out of range"
  let addr ← hexAddress deployer
  let payload := UInt8.ofNat (0x80 + addr.length) :: addr ++ encNonce nonce.toNat
  pure (if payload.length < 56 then UInt8.ofNat (0xc0 + payload.length) :: payload
    else rlpLongList payload)

def createAddress (host : Host) (deployer : String) (nonce : Int) : Py String := do
  let encoded ← createEncoded deployer nonce
  let digest := host.keccak encoded
  pure ("0x" ++ hexOfBytes (digest.drop (digest.length - 20)))

/-- The list of a deployer and a nonce; zero is the empty string. -/
def creationItem (addr : Bytes) (nonce : Nat) : RlpItem :=
  .list [.bytes addr, .bytes (Rlp.minimalBytes nonce)]

section Encoding

/-- A nonce has at most 32 bytes. -/
theorem minimalBytes_nonce {nonce : Nat} (h : nonce < 2 ^ 256) :
    (Rlp.minimalBytes nonce).length ≤ 32 :=
  Rlp.minimalBytes_length_le (by rwa [Rlp.pow_width])

theorem minimalBytes_injective : Function.Injective Rlp.minimalBytes := by
  intro m n h
  rw [← Rlp.natOfBytes_minimalBytes m, h, Rlp.natOfBytes_minimalBytes]

/-- A nonce that is not zero is written with its length. -/
theorem encNonce_of_pos {nonce : Nat} (hPos : nonce ≠ 0) (h : nonce < 2 ^ 256) :
    encNonce nonce = UInt8.ofNat (Rlp.minimalBytes nonce).length :: Rlp.minimalBytes nonce := by
  have hLength := minimalBytes_nonce h
  simp only [encNonce, if_neg hPos]
  rw [if_pos (by omega)]

theorem encNonce_length_le {nonce : Nat} (h : nonce < 2 ^ 256) : (encNonce nonce).length ≤ 33 := by
  by_cases hZero : nonce = 0
  · rw [encNonce, if_pos hZero]
    decide
  · have hLength := minimalBytes_nonce h
    rw [encNonce_of_pos hZero h, List.length_cons]
    omega

theorem encNonce_injective {m n : Nat} (hm : m < 2 ^ 256) (hn : n < 2 ^ 256)
    (h : encNonce m = encNonce n) : m = n := by
  have hFirst : ∀ {k : Nat}, k ≠ 0 → k < 2 ^ 256 → encNonce k ≠ [0x80] := by
    intro k hk hLt hEq
    have hLength := minimalBytes_nonce hLt
    rw [encNonce_of_pos hk hLt, List.cons.injEq] at hEq
    have hByte := congrArg UInt8.toNat hEq.1
    rw [UInt8.toNat_ofNat_of_lt' (by simp only [UInt8.size]; omega)] at hByte
    have hMark : (0x80 : UInt8).toNat = 128 := rfl
    omega
  by_cases hmZero : m = 0
  · by_cases hnZero : n = 0
    · rw [hmZero, hnZero]
    · rw [encNonce, if_pos hmZero] at h
      exact absurd h.symm (hFirst hnZero hn)
  · by_cases hnZero : n = 0
    · rw [hnZero] at h
      exact absurd h (hFirst hmZero hm)
    · rw [encNonce_of_pos hmZero hm, encNonce_of_pos hnZero hn, List.cons.injEq] at h
      exact minimalBytes_injective h.2

variable {deployer : String} {addr : Bytes} {nonce : Int}

/-- What is hashed for an address of 20 bytes. -/
theorem createEncoded_eq (hDeployer : hexAddress deployer = .ok addr) (hLength : addr.length = 20)
    (hNonce : 0 ≤ nonce ∧ nonce < 2 ^ 256) :
    createEncoded deployer nonce = .ok (UInt8.ofNat (0xd5 + (encNonce nonce.toNat).length) ::
      0x94 :: (addr ++ encNonce nonce.toNat)) := by
  have hLow : decide (nonce < 0) = false := decide_eq_false (by omega)
  have hHigh : decide ((2 : Int) ^ 256 ≤ nonce) = false := decide_eq_false (by omega)
  have hShort : (encNonce nonce.toNat).length ≤ 33 := encNonce_length_le (by omega)
  have hPayload : (UInt8.ofNat (0x80 + addr.length) :: addr ++ encNonce nonce.toNat).length =
      21 + (encNonce nonce.toNat).length := by
    rw [List.length_append, List.length_cons, hLength]
  simp only [createEncoded, hLow, hHigh, raiseIf, Bool.false_eq_true, ↓reduceIte, hDeployer, bind,
    Except.bind, pure, Except.pure]
  rw [if_pos (by omega), hPayload, hLength, ← Nat.add_assoc]
  rfl

/-- The canonical encoding differs from it in the nonce alone. -/
theorem encode_creationItem {nonce : Nat} (hLength : addr.length = 20) (h : nonce < 2 ^ 256) :
    Rlp.encode (creationItem addr nonce) =
      UInt8.ofNat (0xd5 + (Rlp.encodeBytes (Rlp.minimalBytes nonce)).length) ::
        0x94 :: (addr ++ Rlp.encodeBytes (Rlp.minimalBytes nonce)) := by
  have hAddr : Rlp.encodeBytes addr = 0x94 :: addr := by
    have hPlain : Rlp.isPlain addr = false := by
      match addr, hLength with
      | _ :: _ :: _, _ => rfl
    rw [Rlp.encodeBytes, hPlain, hLength]
    rfl
  have hNonce := minimalBytes_nonce h
  have hShort : (Rlp.encodeBytes (Rlp.minimalBytes nonce)).length ≤ 33 := by
    unfold Rlp.encodeBytes
    split
    · omega
    · rw [Rlp.header, if_pos (by omega), List.length_append, List.length_singleton]
      omega
  have hItems : Rlp.encodeItems [.bytes addr, .bytes (Rlp.minimalBytes nonce)] =
      0x94 :: (addr ++ Rlp.encodeBytes (Rlp.minimalBytes nonce)) := by
    simp only [Rlp.encodeItems, Rlp.encode, hAddr, List.append_nil, List.cons_append]
  have hTotal : (0x94 :: (addr ++ Rlp.encodeBytes (Rlp.minimalBytes nonce))).length =
      21 + (Rlp.encodeBytes (Rlp.minimalBytes nonce)).length := by
    rw [List.length_cons, List.length_append, hLength]
    omega
  rw [creationItem, Rlp.encode, hItems, hTotal, Rlp.header, if_pos (by omega), ← Nat.add_assoc]
  rfl

/-- The spelling of the nonce is canonical for zero only: elsewhere its length stands
in place of its header. -/
theorem encNonce_eq_iff {nonce : Nat} (h : nonce < 2 ^ 256) :
    encNonce nonce = Rlp.encodeBytes (Rlp.minimalBytes nonce) ↔ nonce = 0 := by
  constructor
  · intro hEq
    by_contra hZero
    have hLength := minimalBytes_nonce h
    rw [encNonce_of_pos hZero h, Rlp.encodeBytes] at hEq
    split at hEq
    · have hCount := congrArg List.length hEq
      rw [List.length_cons] at hCount
      omega
    · rw [Rlp.header, if_pos (by omega), List.singleton_append, List.cons.injEq] at hEq
      have hByte := congrArg UInt8.toNat hEq.1
      rw [UInt8.toNat_ofNat_of_lt' (by simp only [UInt8.size]; omega),
        UInt8.toNat_ofNat_of_lt' (by simp only [UInt8.size]; omega)] at hByte
      omega
  · rintro rfl
    rfl

/-- What is hashed for a deployer and a nonce is the encoding of the list of the two; it
reads back as that list, and no other pair is hashed alike. -/
def HashesPair (deployer : String) (addr : Bytes) (nonce : Int) : Prop :=
  ∃ encoded, createEncoded deployer nonce = .ok encoded ∧
    encoded = Rlp.encode (creationItem addr nonce.toNat) ∧
    Rlp.decode? encoded = some (creationItem addr nonce.toNat) ∧
    ∀ other otherAddr otherNonce, hexAddress other = .ok otherAddr → otherAddr.length = 20 →
      0 ≤ otherNonce ∧ otherNonce < 2 ^ 256 → createEncoded other otherNonce = .ok encoded →
        otherAddr = addr ∧ otherNonce = nonce

/-- The bytes hashed for an address of 20 bytes and a nonce of 256 bits are their
canonical encoding just when the nonce is zero. -/
theorem create_address_canonical_iff (deployer : String) (addr : Bytes) (nonce : Int)
    (hDeployer : hexAddress deployer = .ok addr) (hLength : addr.length = 20)
    (hNonce : 0 ≤ nonce ∧ nonce < 2 ^ 256) : HashesPair deployer addr nonce ↔ nonce = 0 := by
  have hNat : nonce.toNat < 2 ^ 256 := by omega
  have hEncoded := createEncoded_eq hDeployer hLength hNonce
  have hCanonical := encode_creationItem hLength hNat
  constructor
  · rintro ⟨encoded, hOk, hEq, -, -⟩
    obtain rfl := Except.ok.inj (hEncoded.symm.trans hOk)
    rw [hCanonical, List.cons.injEq, List.cons.injEq] at hEq
    have hZero := (encNonce_eq_iff hNat).mp (List.append_cancel_left hEq.2.2)
    omega
  · intro hZero
    have hEq : encNonce nonce.toNat = Rlp.encodeBytes (Rlp.minimalBytes nonce.toNat) :=
      (encNonce_eq_iff hNat).mpr (by omega)
    have hSame : _ = Rlp.encode (creationItem addr nonce.toNat) := (hEq ▸ hCanonical).symm
    have hShort := encNonce_length_le hNat
    have hFits : (Rlp.encode (creationItem addr nonce.toNat)).length < 256 ^ 8 := by
      rw [← hSame, List.length_cons, List.length_cons, List.length_append, hLength]
      omega
    refine ⟨_, hEncoded, hSame, ?_, ?_⟩
    · rw [hSame]
      exact Rlp.decode?_encode hFits
    · intro other otherAddr otherNonce hOther hOtherLength hOtherNonce hOk
      rw [createEncoded_eq hOther hOtherLength hOtherNonce, Except.ok.injEq, List.cons.injEq,
        List.cons.injEq] at hOk
      obtain ⟨hAddr, hNonces⟩ := List.append_inj hOk.2.2 (hOtherLength.trans hLength.symm)
      have hSameNonce := encNonce_injective (by omega) hNat hNonces
      exact ⟨hAddr, by omega⟩

theorem hexOfBytes_length (raw : Bytes) : (hexOfBytes raw).toList.length = 2 * raw.length := by
  rw [hexOfBytes, String.toList_ofList]
  induction raw with
  | nil => rfl
  | cons b rest ih =>
      rw [List.flatMap_cons, List.length_append, ih, List.length_cons, List.length_cons,
        List.length_cons, List.length_nil]
      omega

/-- An address that is written out is read back. -/
theorem hexAddress_hexOfBytes {raw : Bytes} (hLength : raw.length = 20) :
    hexAddress ("0x" ++ hexOfBytes raw) = .ok raw := by
  have hText : unprefixed ("0x" ++ hexOfBytes raw) = hexOfBytes raw := by
    rw [unprefixed, startsWith_append, if_pos rfl]
    exact dropText_append "0x" (hexOfBytes raw)
  have hDigits : (hexOfBytes raw).toList.length = 40 := by
    rw [hexOfBytes_length, hLength]
  simp only [hexAddress, hText, hDigits, bytesOfHex, bytesOfHex?_hexOfBytes, raiseIf, ne_eq,
    not_true_eq_false, decide_false, Bool.false_eq_true, ↓reduceIte]
  rfl

def zeroDeployer : String := "0x" ++ hexOfBytes (List.replicate 20 0)

/-- The deployer of the sample is twenty zeros. -/
theorem zeroDeployer_bytes : hexAddress zeroDeployer = .ok (List.replicate 20 0) :=
  hexAddress_hexOfBytes List.length_replicate

/-- The nonce zero is hashed in its canonical encoding. -/
theorem create_address_zero : HashesPair zeroDeployer (List.replicate 20 0) 0 :=
  (create_address_canonical_iff zeroDeployer _ 0 zeroDeployer_bytes rfl (by omega)).mpr rfl

/-- The nonce 1 is hashed as the two bytes `01 01`. -/
theorem create_address_nonce_one :
    hexAddress zeroDeployer = .ok (List.replicate 20 0) ∧
      createEncoded zeroDeployer 1 =
        .ok (0xd7 :: 0x94 :: (List.replicate 20 0 ++ [1, 1])) ∧
      ¬ HashesPair zeroDeployer (List.replicate 20 0) 1 := by
  have hEncoded := @createEncoded_eq _ _ 1 zeroDeployer_bytes rfl (by omega)
  refine ⟨zeroDeployer_bytes, hEncoded, ?_⟩
  rintro ⟨encoded, hOk, hEq, -, -⟩
  obtain rfl := Except.ok.inj (hEncoded.symm.trans hOk)
  rw [encode_creationItem rfl (by omega), List.cons.injEq, List.cons.injEq] at hEq
  exact absurd ((encNonce_eq_iff (by omega)).mp (List.append_cancel_left hEq.2.2)) (by decide)

end Encoding
end L0vi0x.Chain
