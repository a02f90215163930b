import Mathlib.Algebra.Ring.Periodic
import Mathlib.Dynamics.PeriodicPts.Defs
import Mathlib.Data.List.GetD
import Mathlib.Data.Nat.Periodic

/-! Words that are repeated without end. -/

namespace Word

variable {Letter : Type*}

/-- The word consists of its first letters, some times over. -/
def PowerOfPrefix (word : List Letter) (length : Nat) : Prop :=
  length ∣ word.length ∧ word = (List.replicate (word.length / length) (word.take length)).flatten

variable {sequence : Nat → Letter} {word root : List Letter} {period shift first count length : Nat}

/-- A word is a power of a root where each of its groups is the root. -/
theorem eq_flatten_iff (sized : word.length = root.length * count) :
    word = (List.replicate count root).flatten ↔
      ∀ group < count, (word.drop (root.length * group)).take root.length = root := by
  induction count generalizing word with
  | zero => simpa using sized
  | succ count ih =>
      rw [Nat.mul_succ] at sized
      have rest : (word.drop root.length).length = root.length * count := by
        rw [List.length_drop]
        omega
      have groups : (∀ group < count + 1, (word.drop (root.length * group)).take root.length = root) ↔
          word.take root.length = root ∧
            ∀ group < count, ((word.drop root.length).drop (root.length * group)).take root.length = root := by
        simp only [List.drop_drop, Nat.add_comm root.length, ← Nat.mul_succ]
        exact Nat.forall_lt_succ_left.trans (by simp)
      rw [groups, ← ih rest, List.replicate_succ, List.flatten_cons]
      constructor
      · intro power
        rw [power]
        exact ⟨List.take_left, List.drop_left⟩
      · rintro ⟨first, others⟩
        rw [← others, ← first, List.length_take, min_eq_left (by omega)]
        exact (List.take_append_drop _ _).symm

/-- So it is where each of its groups is the one before it. -/
theorem powerOfPrefix_iff : PowerOfPrefix word length ↔ length ∣ word.length ∧
    ∀ group, group + 1 < word.length / length →
      (word.drop (length * group)).take length = (word.drop (length * (group + 1))).take length := by
  rw [PowerOfPrefix]
  apply and_congr_right
  intro whole
  by_cases some_letters : word = []
  case pos => simp [some_letters]
  case neg =>
      have bound := Nat.le_of_dvd (List.length_pos_iff.mpr some_letters) whole
      have sized : (word.take length).length = length := by rw [List.length_take, min_eq_left bound]
      rw [eq_flatten_iff (by rw [sized, Nat.mul_div_cancel' whole]), sized]
      constructor
      · intro same group inside
        rw [same group (by omega), same (group + 1) inside]
      · intro neighbours group inside
        induction group with
        | zero => simp
        | succ group ih => rw [← neighbours group inside, ih (by omega)]

/-- The sequence without its first letter. -/
def rest (sequence : Nat → Letter) : Nat → Letter := fun index => sequence (index + 1)

variable [Inhabited Letter]

end Word
