import Mathlib.Logic.Function.Basic

/-!
# Injective mixing of 32-bit words

The steps that non-cryptographic hash functions compose on machine words: multiplication by a unit,
rotation, addition and exclusive or with a fixed word, and exclusive or with a shift of the word
itself.  Each loses no information.
-/

namespace WordMixing

/-- Rotation to the left by `amount` bits, as written with two shifts. -/
def rotateLeft (word amount : UInt32) : UInt32 := (word <<< amount) ||| (word >>> (32 - amount))

/-- Exclusive or of a word with its own shift to the right. -/
def xorShift (word amount : UInt32) : UInt32 := word ^^^ (word >>> amount)

theorem mul_injective (multiplier inverse : UInt32) (unit : multiplier * inverse = 1) :
    Function.Injective fun word : UInt32 => word * multiplier := by
  intro left right equal
  have undone := congrArg (· * inverse) equal
  simpa [UInt32.mul_assoc, unit] using undone

theorem add_injective (constant : UInt32) :
    Function.Injective fun word : UInt32 => word + constant := by
  intro left right equal
  exact UInt32.add_left_inj constant |>.mp equal

theorem xor_injective (mask : UInt32) : Function.Injective fun word : UInt32 => word ^^^ mask := by
  intro left right equal
  have undone := congrArg (· ^^^ mask) equal
  simpa [UInt32.xor_assoc] using undone

theorem rotateLeft_bits (word amount : UInt32) (positive : 0 < amount.toNat)
    (bounded : amount.toNat < 32) :
    (rotateLeft word amount).toBitVec = word.toBitVec.rotateLeft amount.toNat := by
  simp only [rotateLeft, UInt32.toBitVec_or, UInt32.toBitVec_shiftLeft,
    UInt32.toBitVec_shiftRight, UInt32.toBitVec_sub, BitVec.rotateLeft_def]
  have left : (amount.toBitVec % 32).toNat = amount.toNat % 32 := rfl
  have right : ((32 - amount : UInt32).toBitVec % 32).toNat = 32 - amount.toNat % 32 := by
    change (32 - amount : UInt32).toNat % 32 = _
    rw [UInt32.toNat_sub_of_le _ _ (UInt32.le_iff_toNat_le.mpr (Nat.le_of_lt bounded))]
    change (32 - amount.toNat) % 32 = _
    omega
  rw [BitVec.shiftLeft_eq', BitVec.ushiftRight_eq', left]
  exact congrArg _ (congrArg (word.toBitVec >>> ·) right)

theorem rotateLeft_injective (amount : UInt32) (positive : 0 < amount.toNat)
    (bounded : amount.toNat < 32) :
    Function.Injective fun word : UInt32 => rotateLeft word amount := by
  intro left right equal
  have bits : left.toBitVec.rotateLeft amount.toNat = right.toBitVec.rotateLeft amount.toNat := by
    rw [← rotateLeft_bits left amount positive bounded,
      ← rotateLeft_bits right amount positive bounded]
    exact congrArg UInt32.toBitVec equal
  apply UInt32.toBitVec_inj.mp
  apply BitVec.eq_of_getLsbD_eq
  intro i inside
  -- Bit `i` moved to `i + amount`, or wrapped around to `i + amount - 32`.
  by_cases wraps : i + amount.toNat < 32
  · have moved := congrArg (fun word => word.getLsbD (i + amount.toNat)) bits
    have above : ¬ i + amount.toNat < amount.toNat := by omega
    simpa only [BitVec.getLsbD_rotateLeft, Nat.mod_eq_of_lt bounded, above, wraps,
      decide_false, decide_true, cond_false, Bool.true_and, Nat.add_sub_cancel] using moved
  · have moved := congrArg (fun word => word.getLsbD (i + amount.toNat - 32)) bits
    have below : i + amount.toNat - 32 < amount.toNat := by omega
    have source : 32 - amount.toNat + (i + amount.toNat - 32) = i := by omega
    simpa only [BitVec.getLsbD_rotateLeft, Nat.mod_eq_of_lt bounded, below, source,
      decide_true, cond_true] using moved

/-- The top `amount` bits survive an xor-shift; each lower bit is recovered from a higher one. -/
theorem xorShift_injective (amount : UInt32) (positive : 0 < amount.toNat)
    (bounded : amount.toNat < 32) :
    Function.Injective fun word : UInt32 => xorShift word amount := by
  intro left right equal
  have shifted (word : UInt32) (i : Nat) :
      (xorShift word amount).toBitVec.getLsbD i =
        (word.toBitVec.getLsbD i ^^ word.toBitVec.getLsbD (amount.toNat + i)) := by
    have reduced : (amount.toBitVec % 32).toNat = amount.toNat := Nat.mod_eq_of_lt bounded
    rw [xorShift, UInt32.toBitVec_xor, UInt32.toBitVec_shiftRight, BitVec.ushiftRight_eq', reduced,
      BitVec.getLsbD_xor, BitVec.getLsbD_ushiftRight]
  have agree : ∀ depth i, 32 ≤ i + depth →
      left.toBitVec.getLsbD i = right.toBitVec.getLsbD i := by
    intro depth
    induction depth with
    | zero =>
        intro i high
        rw [BitVec.getLsbD_of_ge left.toBitVec i high, BitVec.getLsbD_of_ge right.toBitVec i high]
    | succ depth ih =>
        intro i high
        have mixed := congrArg (fun word => word.toBitVec.getLsbD i) equal
        simp only [shifted] at mixed
        rw [ih (amount.toNat + i) (by omega)] at mixed
        exact Bool.xor_left_inj.mp mixed
  apply UInt32.toBitVec_inj.mp
  apply BitVec.eq_of_getLsbD_eq
  intro i _
  exact agree 32 i (by omega)

end WordMixing
