import Mathlib.Algebra.Group.Nat.Defs
import Mathlib.Algebra.Order.Group.Unbundled.Int
import Mathlib.Data.List.TakeWhile
import Mathlib.Data.Nat.Notation
import Mathlib.Order.Lattice

/-!
# Decimal integers as C prints and reads them

`ofInt` is the output of the `%ld` conversion.  `strtol` skips white space, reads a sign and as many
digits as follow, and saturates at the bounds of a 64-bit `long`; `atoi` truncates its result to a
32-bit `int`.
-/

namespace Decimal

/-- The decimal digits of a number, without leading zeros. -/
def digits (number : Nat) : List UInt8 :=
  (Nat.toDigits 10 number).map fun c => UInt8.ofNat c.toNat

/-- The text printed for a number by `%d` or `%ld`. -/
def ofInt (number : Int) : List UInt8 :=
  if number < 0 then 45 :: digits number.natAbs else digits number.natAbs

/-- `isdigit` -/
def isDigit (byte : UInt8) : Bool := decide (48 ≤ byte.toNat ∧ byte.toNat ≤ 57)

/-- `isspace` -/
def isSpace (byte : UInt8) : Bool := decide (byte.toNat = 32 ∨ 9 ≤ byte.toNat ∧ byte.toNat ≤ 13)

/-- The number a string of digits stands for. -/
def value (text : List UInt8) : Nat := text.foldl (fun sum byte => 10 * sum + (byte.toNat - 48)) 0

/-- The number at the start of a string, before any bound is applied. -/
def signedValue : List UInt8 → Int
  | [] => 0
  | byte :: text =>
      if byte = 45 then -(value (text.takeWhile isDigit) : Int)
      else if byte = 43 then value (text.takeWhile isDigit)
      else value ((byte :: text).takeWhile isDigit)

/-- `strtol` in base ten -/
def strtol (text : List UInt8) : Int :=
  max (-2 ^ 63) (min (2 ^ 63 - 1) (signedValue (text.dropWhile isSpace)))

/-- The conversion of an integer to a 32-bit `int`. -/
def toInt32 (number : Int) : Int := number.bmod (2 ^ 32)

/-- `atoi` -/
def atoi (text : List UInt8) : Int := toInt32 (strtol text)

theorem toInt32_eq_self {number : Int} (low : -2 ^ 31 ≤ number) (high : number < 2 ^ 31) :
    toInt32 number = number := by
  rw [toInt32]
  exact Int.bmod_eq_of_le (by omega) (by omega)

theorem toInt32_lt (number : Int) : toInt32 number < 2 ^ 31 := by
  have bound := @Int.bmod_lt number (2 ^ 32) (by decide)
  rw [toInt32]
  omega

/-- The digit of a number below ten. -/
private theorem digitChar_toNat {digit : Nat} (small : digit < 10) :
    (UInt8.ofNat (Nat.digitChar digit).toNat).toNat = 48 + digit := by
  rw [Nat.toNat_digitChar_of_lt_ten small, UInt8.toNat_ofNat']
  omega

/-- The last digit comes off the end. -/
theorem digits_eq (number : Nat) :
    digits number = (if number < 10 then [] else digits (number / 10)) ++
      [UInt8.ofNat (Nat.digitChar (number % 10)).toNat] := by
  rw [digits, Nat.toDigits_eq_if (by decide)]
  split
  · rw [Nat.mod_eq_of_lt ‹_›]
    rfl
  · rw [List.map_append]
    rfl

theorem isDigit_of_mem_digits {number : Nat} {byte : UInt8} (member : byte ∈ digits number) :
    isDigit byte = true := by
  induction number using Nat.strongRecOn with
  | _ number ih =>
      rw [digits_eq, List.mem_append, List.mem_singleton] at member
      rcases member with earlier | rfl
      · split at earlier
        · contradiction
        · exact ih (number / 10) (by omega) earlier
      · rw [isDigit, digitChar_toNat (Nat.mod_lt _ (by decide))]
        exact decide_eq_true (by omega)

theorem value_digits (number : Nat) : value (digits number) = number := by
  induction number using Nat.strongRecOn with
  | _ number ih =>
      rw [digits_eq, value, List.foldl_append, List.foldl_cons, List.foldl_nil,
        digitChar_toNat (Nat.mod_lt _ (by decide))]
      split
      · rw [List.foldl_nil]
        omega
      · have earlier := ih (number / 10) (by omega)
        rw [value] at earlier
        rw [earlier]
        omega

theorem digits_ne_nil (number : Nat) : digits number ≠ [] := by
  rw [digits_eq]
  exact List.append_ne_nil_of_right_ne_nil _ (List.cons_ne_nil _ _)

theorem digits_length_le {number : Nat} (count : Nat) (positive : 0 < count)
    (bounded : number < 10 ^ count) : (digits number).length ≤ count := by
  rw [digits, List.length_map]
  exact (Nat.length_toDigits_le_iff (by decide) positive).mpr bounded

private theorem isDigit_range {byte : UInt8} (digit : isDigit byte = true) :
    48 ≤ byte.toNat ∧ byte.toNat ≤ 57 := of_decide_eq_true digit

/-- No byte of a printed number is NUL. -/
theorem zero_notMem_ofInt (number : Int) : 0 ∉ ofInt number := by
  have digit : 0 ∉ digits number.natAbs := fun member =>
    absurd (isDigit_range (isDigit_of_mem_digits member)).1 (by decide)
  rw [ofInt]
  split
  · simpa using digit
  · exact digit

theorem ofInt_ne_nil (number : Int) : ofInt number ≠ [] := by
  rw [ofInt]
  split
  · exact List.cons_ne_nil _ _
  · exact digits_ne_nil _

theorem ofInt_length_le {number : Int} (count : Nat) (positive : 0 < count)
    (natural : 0 ≤ number) (bounded : number < 10 ^ count) : (ofInt number).length ≤ count := by
  rw [ofInt, if_neg (by omega)]
  apply digits_length_le count positive
  rw [← Int.natAbs_of_nonneg natural] at bounded
  exact_mod_cast bounded

/-- What was printed is read back, whatever its sign. -/
theorem signedValue_ofInt (number : Int) : signedValue (ofInt number) = number := by
  have whole : (digits number.natAbs).takeWhile isDigit = digits number.natAbs :=
    List.takeWhile_eq_self_iff.mpr fun _ member => isDigit_of_mem_digits member
  rw [ofInt]
  split
  · rw [signedValue, if_pos rfl, whole, value_digits]
    omega
  · obtain ⟨byte, text, split⟩ := List.exists_cons_of_ne_nil (digits_ne_nil number.natAbs)
    have digit := isDigit_range (isDigit_of_mem_digits (split ▸ List.mem_cons_self))
    have unsigned : byte ≠ 45 ∧ byte ≠ 43 := by
      constructor <;> rintro rfl <;> exact absurd digit.1 (by decide)
    rw [split, signedValue, if_neg unsigned.1, if_neg unsigned.2, ← split, whole, value_digits]
    omega

theorem dropWhile_isSpace_ofInt (number : Int) :
    (ofInt number).dropWhile isSpace = ofInt number := by
  obtain ⟨byte, text, split⟩ := List.exists_cons_of_ne_nil (ofInt_ne_nil number)
  have solid : isSpace byte = false := by
    have first : byte = 45 ∨ isDigit byte = true := by
      rw [ofInt] at split
      split at split
      · exact .inl (List.cons.inj split).1.symm
      · exact .inr (isDigit_of_mem_digits (split ▸ List.mem_cons_self))
    rcases first with rfl | digit
    · rfl
    · have range := isDigit_range digit
      exact decide_eq_false (by omega)
  rw [split, List.dropWhile_cons, solid]
  rfl

/-- A printed `long` read by `atoi` keeps its low 32 bits. -/
theorem atoi_ofInt {number : Int} (low : -2 ^ 63 ≤ number) (high : number < 2 ^ 63) :
    atoi (ofInt number) = toInt32 number := by
  rw [atoi, strtol, dropWhile_isSpace_ofInt, signedValue_ofInt, min_eq_right (by omega),
    max_eq_right low]

end Decimal
