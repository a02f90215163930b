import Mathlib.Data.List.Induction
import Mathlib.Data.Nat.Digits.Defs

/-! Numbers that are written with hexadecimal digits, and their bits. -/

namespace Hexadecimal

def digit (letter : Char) : Option Nat :=
  if '0' ≤ letter ∧ letter ≤ '9' then some (letter.toNat - '0'.toNat)
  else if 'a' ≤ letter ∧ letter ≤ 'f' then some (letter.toNat - 'a'.toNat + 10)
  else if 'A' ≤ letter ∧ letter ≤ 'F' then some (letter.toNat - 'A'.toNat + 10)
  else none

example : "0123456789abcdef".toList.map digit = (List.range 16).map some := by decide +kernel

def Digits (text : List Char) : Prop := ∀ letter ∈ text, (digit letter).isSome

instance (text : List Char) : Decidable (Digits text) :=
  inferInstanceAs (Decidable (∀ letter ∈ text, _))

/-- The number that digits denote, of which the last one is the least significant. -/
def number (text : List Char) : Nat := Nat.ofDigits 16 (text.reverse.filterMap digit)

variable {letter : Char} {text : List Char} {value width index : Nat}

theorem toNat_le {first second : Char} : first ≤ second ↔ first.toNat ≤ second.toNat := Iff.rfl

theorem digit_lt (found : digit letter = some value) : value < 16 := by
  rw [digit] at found
  simp only [toNat_le] at found
  have letters : '0'.toNat = 48 ∧ '9'.toNat = 57 ∧ 'a'.toNat = 97 ∧ 'f'.toNat = 102 ∧ 'A'.toNat = 65 ∧
      'F'.toNat = 70 := by
    decide
  grind

theorem digits_concat : Digits (text ++ [letter]) ↔ Digits text ∧ ∃ value, digit letter = some value := by
  simp [Digits, or_imp, forall_and, Option.isSome_iff_exists]

theorem number_concat (found : digit letter = some value) :
    number (text ++ [letter]) = 16 * number text + value := by
  rw [number, List.reverse_concat, List.filterMap_cons, found, Nat.ofDigits_cons, Nat.add_comm]
  rfl

theorem number_lt (written : Digits text) : number text < 16 ^ text.length := by
  induction text using List.reverseRecOn with
  | nil => simp [number]
  | append_singleton text letter ih =>
      obtain ⟨before, value, found⟩ := digits_concat.mp written
      have small := digit_lt found
      have less := ih before
      rw [number_concat found, List.length_append, List.length_singleton, Nat.pow_succ]
      omega

/-- The last digit has the lowest four bits. -/
theorem testBit_concat (found : digit letter = some value) :
    (number (text ++ [letter])).testBit index =
      if index < 4 then value.testBit index else (number text).testBit (index - 4) := by
  rw [number_concat found]
  have small : value < 2 ^ 4 := digit_lt found
  exact Nat.testBit_two_pow_mul_add (number text) small index

/-- A number in words of some width has the bits of the words. -/
theorem testBit_ofDigits {words : List Nat} (positive : 0 < width) (small : ∀ word ∈ words, word < 2 ^ width) :
    (Nat.ofDigits (2 ^ width) words).testBit index = (words.getD (index / width) 0).testBit (index % width) := by
  induction words generalizing index with
  | nil => simp
  | cons word rest ih =>
      rw [List.forall_mem_cons] at small
      rw [Nat.ofDigits_cons, Nat.add_comm, Nat.testBit_two_pow_mul_add _ small.1, ih small.2]
      by_cases low : index < width
      · rw [if_pos low, Nat.div_eq_of_lt low, Nat.mod_eq_of_lt low, List.getD_cons_zero]
      · have beyond : width ≤ index := Nat.not_lt.mp low
        rw [if_neg low, Nat.div_eq_sub_div positive beyond, Nat.mod_eq_sub_mod beyond, List.getD_cons_succ]

end Hexadecimal
