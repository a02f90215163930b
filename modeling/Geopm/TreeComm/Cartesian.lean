import Mathlib.Algebra.BigOperators.Group.List.Basic
import Mathlib.Data.Nat.Basic

namespace Geopm

/-! Row-major coordinates of the ranks of a Cartesian communicator. -/

namespace Cartesian

/-- The coordinates of a rank. -/
def coordinate : List Nat → Nat → List Nat
  | [], _ => []
  | _ :: rest, rank => rank / rest.prod :: coordinate rest (rank % rest.prod)

/-- The rank with some coordinates. -/
def cartRank : List Nat → List Nat → Nat
  | _ :: rest, coord :: coords => coord * rest.prod + cartRank rest coords
  | _, _ => 0

/-- How many ranks differ in the last coordinates only. -/
def span (dims : List Nat) (count : Nat) : Nat := (dims.drop (dims.length - count)).prod

/-- The last coordinates are zero. -/
def Trailing (coords : List Nat) (count : Nat) : Prop :=
  ∀ coord ∈ coords.drop (coords.length - count), coord = 0

/-- Make the last coordinates zero. -/
def reset (coords : List Nat) (count : Nat) : List Nat :=
  coords.take (coords.length - count) ++ List.replicate count 0

variable {dims rest coords : List Nat} {dim rank count : Nat}

@[simp] theorem length_coordinate : (coordinate dims rank).length = dims.length := by
  induction dims generalizing rank with
  | nil => rfl
  | cons dim rest ih => simp [coordinate, ih]

theorem span_cons (few : count ≤ rest.length) : span (dim :: rest) count = span rest count := by
  rw [span, span, List.length_cons, show rest.length + 1 - count = rest.length - count + 1 by omega,
    List.drop_succ_cons]

theorem span_length : span dims dims.length = dims.prod := by
  rw [span, Nat.sub_self, List.drop_zero]

/-- One more coordinate from the end. -/
theorem span_succ (more : count < dims.length) :
    span dims (count + 1) = dims.getD (dims.length - 1 - count) 0 * span dims count := by
  have inside : dims.length - (count + 1) < dims.length := by omega
  rw [span, span, List.drop_eq_getElem_cons inside, List.prod_cons,
    show dims.length - (count + 1) + 1 = dims.length - count by omega,
    show dims.length - 1 - count = dims.length - (count + 1) by omega,
    List.getD_eq_getElem?_getD, List.getElem?_eq_getElem inside]
  rfl

theorem span_dvd_prod : span dims count ∣ dims.prod := by
  rw [span]
  conv_rhs => rw [← List.take_append_drop (dims.length - count) dims, List.prod_append]
  exact Nat.dvd_mul_left _ _

theorem prod_pos (positive : ∀ dim ∈ dims, 1 ≤ dim) : 0 < dims.prod :=
  List.prod_pos_iff_forall_pos_nat.mpr positive

theorem span_pos (positive : ∀ dim ∈ dims, 1 ≤ dim) : 0 < span dims count :=
  prod_pos fun dim member => positive dim (List.mem_of_mem_drop member)

/-- The last coordinates are zero on the multiples of their span. -/
theorem trailing_coordinate (positive : ∀ dim ∈ dims, 1 ≤ dim) (known : rank < dims.prod)
    (few : count ≤ dims.length) :
    Trailing (coordinate dims rank) count ↔ span dims count ∣ rank := by
  induction dims generalizing rank count with
  | nil =>
      have none_left : count = 0 := Nat.le_zero.mp few
      subst none_left
      simp [Trailing, coordinate, span]
  | cons dim rest ih =>
      have positiveRest : ∀ dim ∈ rest, 1 ≤ dim := fun dim member => positive dim (by simp [member])
      have inner : rank % rest.prod < rest.prod := Nat.mod_lt _ (prod_pos positiveRest)
      by_cases whole : count = rest.length + 1
      · -- the first coordinate is among them
        subst whole
        have all : Trailing (coordinate (dim :: rest) rank) (rest.length + 1) ↔
            rank / rest.prod = 0 ∧ Trailing (coordinate rest (rank % rest.prod)) rest.length := by
          simp [Trailing, coordinate]
        rw [all, ih positiveRest inner (le_refl _), span_length, ← List.length_cons, span_length]
        constructor
        · rintro ⟨first, others⟩
          have zero := Nat.eq_zero_of_dvd_of_lt others inner
          rw [← Nat.div_add_mod rank rest.prod, first, zero]
          exact Nat.dvd_zero _
        · intro divides
          rw [Nat.eq_zero_of_dvd_of_lt divides known]
          simp
      · have less : count ≤ rest.length := by
          rw [List.length_cons] at few
          omega
        have same : Trailing (coordinate (dim :: rest) rank) count ↔
            Trailing (coordinate rest (rank % rest.prod)) count := by
          simp only [Trailing, coordinate, List.length_cons, length_coordinate]
          rw [show rest.length + 1 - count = rest.length - count + 1 by omega, List.drop_succ_cons]
        rw [same, ih positiveRest inner less, span_cons less]
        exact Nat.dvd_mod_iff (span_dvd_prod)

theorem cartRank_zeros {count : Nat} : cartRank dims (List.replicate count 0) = 0 := by
  induction dims generalizing count with
  | nil => rfl
  | cons dim rest ih =>
      cases count with
      | zero => rfl
      | succ count => rw [List.replicate_succ, cartRank, ih, Nat.zero_mul]

/-- Without its last coordinates a rank is the multiple of their span below it. -/
theorem cartRank_reset (positive : ∀ dim ∈ dims, 1 ≤ dim) (known : rank < dims.prod)
    (few : count ≤ dims.length) :
    cartRank dims (reset (coordinate dims rank) count) = rank - rank % span dims count := by
  induction dims generalizing rank count with
  | nil =>
      have none_left : count = 0 := Nat.le_zero.mp few
      subst none_left
      simp [cartRank, span, Nat.mod_one] at known ⊢
      omega
  | cons dim rest ih =>
      have positiveRest : ∀ dim ∈ rest, 1 ≤ dim := fun dim member => positive dim (by simp [member])
      have inner : rank % rest.prod < rest.prod := Nat.mod_lt _ (prod_pos positiveRest)
      by_cases whole : count = rest.length + 1
      · subst whole
        have zeros : reset (coordinate (dim :: rest) rank) (rest.length + 1) =
            List.replicate (rest.length + 1) 0 := by
          simp [reset]
        rw [zeros, cartRank_zeros, ← List.length_cons, span_length, Nat.mod_eq_of_lt known,
          Nat.sub_self]
      · have less : count ≤ rest.length := by
          rw [List.length_cons] at few
          omega
        have split : reset (coordinate (dim :: rest) rank) count =
            rank / rest.prod :: reset (coordinate rest (rank % rest.prod)) count := by
          simp only [reset, coordinate, List.length_cons, length_coordinate]
          rw [show rest.length + 1 - count = rest.length - count + 1 by omega, List.take_succ_cons,
            List.cons_append]
        rw [split, cartRank, ih positiveRest inner less, span_cons less,
          Nat.mod_mod_of_dvd _ span_dvd_prod]
        have whole := Nat.div_add_mod' rank rest.prod
        have part : rank % span rest count ≤ rank % rest.prod := by
          have divides : span rest count ∣ rest.prod := span_dvd_prod
          rw [← Nat.mod_mod_of_dvd rank divides]
          exact Nat.mod_le _ _
        omega

end Cartesian

end Geopm
