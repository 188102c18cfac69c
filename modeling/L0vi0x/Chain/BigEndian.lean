import L0vi0x.Chain.CheatcodeAbi

/-! Big-endian bytes of a fixed width, and the integers in two's complement that they
stand for. -/
namespace L0vi0x.Chain

open L0vi0x.Python

/-- `n.to_bytes(width, "big")`, of the low bytes of `n`. -/
def bytesOfNat : Nat → Nat → Bytes
  | 0, _ => []
  | width + 1, n => bytesOfNat width (n / 256) ++ [UInt8.ofNat (n % 256)]

@[simp] theorem bytesOfNat_length (width n : Nat) : (bytesOfNat width n).length = width := by
  induction width generalizing n with
  | zero => rfl
  | succ width ih => simp [bytesOfNat, ih]

/-- The last byte counts once, and what stands before it 256 times. -/
theorem natOfBytes_concat (bs : Bytes) (b : UInt8) :
    natOfBytes (bs ++ [b]) = 256 * natOfBytes bs + b.toNat := by
  simp [natOfBytes, List.foldl_append]

/-- Bytes stand for a number that fits into them. -/
theorem natOfBytes_lt (bs : Bytes) : natOfBytes bs < 256 ^ bs.length := by
  induction bs using List.reverseRecOn with
  | nil => simp [natOfBytes]
  | append_singleton bs b ih =>
      have hByte : b.toNat < 256 := b.toNat_lt
      rw [natOfBytes_concat, List.length_append, List.length_singleton, Nat.pow_succ]
      omega

theorem natOfBytes_bytesOfNat {width n : Nat} (h : n < 256 ^ width) :
    natOfBytes (bytesOfNat width n) = n := by
  induction width generalizing n with
  | zero => 
      rw [Nat.pow_zero, Nat.lt_one_iff] at h
      rw [h]
      rfl
  | succ width ih =>
      have hDiv : n / 256 < 256 ^ width := by
        rw [Nat.pow_succ] at h
        exact Nat.div_lt_of_lt_mul (by rwa [Nat.mul_comm])
      have hByte : (UInt8.ofNat (n % 256)).toNat = n % 256 := by simp
      rw [bytesOfNat, natOfBytes_concat, ih hDiv, hByte]
      exact Nat.div_add_mod n 256

/-- Bytes are the ones that are written for their number. -/
theorem bytesOfNat_natOfBytes (bs : Bytes) : bytesOfNat bs.length (natOfBytes bs) = bs := by
  induction bs using List.reverseRecOn with
  | nil => rfl
  | append_singleton bs b ih =>
      have hByte : b.toNat < 256 := b.toNat_lt
      have hDiv : (256 * natOfBytes bs + b.toNat) / 256 = natOfBytes bs := by omega
      have hMod : (256 * natOfBytes bs + b.toNat) % 256 = b.toNat := by omega
      rw [natOfBytes_concat, List.length_append, List.length_singleton, bytesOfNat, hDiv, hMod, ih,
        UInt8.ofNat_toNat]

/-- Bytes are those of their number, and of no other. -/
theorem eq_bytesOfNat_iff {bs : Bytes} {width n : Nat} (hWidth : bs.length = width)
    (h : n < 256 ^ width) : bs = bytesOfNat width n ↔ natOfBytes bs = n := by
  constructor
  · rintro rfl
    exact natOfBytes_bytesOfNat h
  · rintro rfl
    rw [← hWidth, bytesOfNat_natOfBytes]

/-- `i.to_bytes(width, "big", signed=True)`. -/
def bytesOfInt (width : Nat) (i : Int) : Bytes := bytesOfNat width (i % 256 ^ width).toNat

@[simp] theorem bytesOfInt_length (width : Nat) (i : Int) : (bytesOfInt width i).length = width :=
  bytesOfNat_length width _

/-- What a signed integer of a width is congruent to. -/
theorem residue_lt (width : Nat) (i : Int) : (i % 256 ^ width).toNat < 256 ^ width := by
  have hPos : (0 : Int) < 256 ^ width := Int.pow_pos (by omega)
  have hLt := Int.emod_lt_of_pos i hPos
  have hCast : ((256 ^ width : Nat) : Int) = 256 ^ width := Int.natCast_pow 256 width
  omega

/-- A signed number that fits is read back. -/
theorem intOfBytes_bytesOfInt {width : Nat} {i : Int} (hLow : -(256 ^ width : Int) ≤ 2 * i)
    (hHigh : 2 * i < 256 ^ width) : intOfBytes (bytesOfInt width i) = i := by
  have hPos : (0 : Int) < 256 ^ width := Int.pow_pos (by omega)
  have hCast : ((256 ^ width : Nat) : Int) = 256 ^ width := Int.natCast_pow 256 width
  have hResidue := natOfBytes_bytesOfNat (residue_lt width i)
  rw [← bytesOfInt] at hResidue
  unfold intOfBytes
  simp only [hResidue, bytesOfInt_length]
  by_cases hNeg : i < 0
  · have hMod : i % 256 ^ width = i + 256 ^ width := by
      rw [← Int.add_emod_right, Int.emod_eq_of_lt (by omega) (by omega)]
    rw [hMod, if_neg (by omega)]
    omega
  · have hMod : i % 256 ^ width = i := Int.emod_eq_of_lt (by omega) (by omega)
    rw [hMod, if_pos (by omega)]
    omega

/-- Bytes are the ones that are written for their signed number. -/
theorem bytesOfInt_intOfBytes (bs : Bytes) : bytesOfInt bs.length (intOfBytes bs) = bs := by
  have hLt := natOfBytes_lt bs
  have hCast : ((256 ^ bs.length : Nat) : Int) = 256 ^ bs.length := Int.natCast_pow 256 bs.length
  have hMod : intOfBytes bs % 256 ^ bs.length = natOfBytes bs := by
    unfold intOfBytes
    simp only
    split
    · exact Int.emod_eq_of_lt (by omega) (by omega)
    · rw [Int.sub_emod_right, Int.emod_eq_of_lt (by omega) (by omega)]
  rw [bytesOfInt, hMod, Int.toNat_natCast, bytesOfNat_natOfBytes]

end L0vi0x.Chain
