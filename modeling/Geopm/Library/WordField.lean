import Mathlib.Data.BitVec
import Mathlib.Data.Nat.Bitwise

namespace WordField

/-! Fields of consecutive bits of a word. -/

variable {width : Nat}

/-- The word with the bits of the field set. -/
def mask (width shift size : Nat) : BitVec width := (((1 : BitVec width) <<< size) - 1) <<< shift

/-- The value of a field. -/
def extract (shift : Nat) (mask word : BitVec width) : BitVec width := (word &&& mask) >>> shift

/-- A word with no bits but those of a value that is moved to the field. -/
def place (shift : Nat) (mask value : BitVec width) : BitVec width := (value <<< shift) &&& mask

/-- The field lies in the word and is not all of it. -/
structure Fits (width shift size : Nat) : Prop where
  narrow : size < width
  inside : shift + size ≤ width

variable {shift size position : Nat} {word value : BitVec width}

theorem Fits.getLsbD_mask (fits : Fits width shift size) :
    (mask width shift size).getLsbD position = decide (shift ≤ position ∧ position < shift + size) := by
  have narrow := fits.narrow
  have inside := fits.inside
  have one : (1 : BitVec width).toNat = 1 := by
    exact BitVec.toNat_one (by omega)
  have power : ((1 : BitVec width) <<< size).toNat = 2 ^ size := by
    rw [BitVec.toNat_shiftLeft, one, Nat.one_shiftLeft, Nat.mod_eq_of_lt (Nat.pow_lt_pow_right (by omega) narrow)]
  have low : (((1 : BitVec width) <<< size) - 1).toNat = 2 ^ size - 1 := by
    have positive : 1 ≤ 2 ^ size := Nat.one_le_two_pow
    have below : 2 ^ size < 2 ^ width := Nat.pow_lt_pow_right (by omega) narrow
    rw [BitVec.toNat_sub, power, one, show 2 ^ width - 1 + 2 ^ size = 2 ^ size - 1 + 2 ^ width by omega,
      Nat.add_mod_right, Nat.mod_eq_of_lt (by omega)]
  rw [mask, BitVec.getLsbD_shiftLeft, BitVec.getLsbD, low, Nat.testBit_two_pow_sub_one]
  rw [Bool.eq_iff_iff]
  simp only [Bool.and_eq_true, Bool.not_eq_true', decide_eq_false_iff_not, decide_eq_true_eq]
  omega

theorem Fits.toNat_extract (fits : Fits width shift size) :
    (extract shift (mask width shift size) word).toNat = word.toNat / 2 ^ shift % 2 ^ size := by
  apply Nat.eq_of_testBit_eq
  intro position
  have bit : (extract shift (mask width shift size) word).toNat.testBit position =
      (extract shift (mask width shift size) word).getLsbD position := rfl
  rw [bit, extract, BitVec.getLsbD_ushiftRight, BitVec.getLsbD_and, fits.getLsbD_mask, Nat.testBit_mod_two_pow,
    Nat.testBit_div_two_pow, BitVec.getLsbD, Bool.and_comm, Nat.add_comm shift position]
  congr 1
  rw [decide_eq_decide]
  omega

/-- What is placed has no bits outside the field. -/
theorem place_outside : place shift (mask width shift size) value &&& ~~~mask width shift size = 0 := by
  rw [place, BitVec.and_assoc, BitVec.and_not_self]
  exact BitVec.and_zero

/-- The bits of a value beyond the size of the field are lost. -/
theorem Fits.toNat_extract_place (fits : Fits width shift size) :
    (extract shift (mask width shift size) (place shift (mask width shift size) value)).toNat =
      value.toNat % 2 ^ size := by
  have narrow := fits.narrow
  have inside := fits.inside
  apply Nat.eq_of_testBit_eq
  intro position
  have bit : (extract shift (mask width shift size) (place shift (mask width shift size) value)).toNat.testBit
      position = (extract shift (mask width shift size) (place shift (mask width shift size) value)).getLsbD
        position := rfl
  rw [bit, extract, place, BitVec.getLsbD_ushiftRight, BitVec.getLsbD_and, BitVec.getLsbD_and,
    fits.getLsbD_mask, BitVec.getLsbD_shiftLeft, Nat.testBit_mod_two_pow, Nat.add_sub_cancel_left]
  have same : value.toNat.testBit position = value.getLsbD position := rfl
  rw [same]
  by_cases low : position < size
  · simp [low, show shift + position < width by omega]
  · simp [low]

end WordField
