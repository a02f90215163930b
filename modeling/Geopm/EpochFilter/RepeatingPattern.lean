import Geopm.EpochFilter.EditDistance
import Geopm.Library.Word

namespace Geopm

/-! `find_smallest_repeating_pattern`: what the period of a part of the history is. -/

namespace PeriodicityDetector

variable {detector : PeriodicityDetector} {recs : List Nat} {div : Nat}

theorem repeats_iff : Repeats recs div ↔ Word.PowerOfPrefix recs div := by
  rw [Repeats, Word.powerOfPrefix_iff, Nat.dvd_iff_mod_eq_zero]
  apply and_congr_right
  intro _
  constructor
  · intro same group inside
    exact same (group + 1) (mem_between.mpr ⟨Nat.le_add_left 1 group, inside⟩)
  · intro same group member
    obtain ⟨positive, inside⟩ := mem_between.mp member
    obtain ⟨earlier, rfl⟩ := Nat.exists_eq_add_of_le' positive
    exact same earlier inside

/-- The search for a number of records ends with the least one whose groups are equal. -/
theorem smallestPattern_least (some_left : recs ≠ []) :
    IsLeast {length | Word.PowerOfPrefix recs length} (smallestPattern recs) := by
  have filled := List.length_pos_iff.mpr some_left
  have positive {length : Nat} (power : Word.PowerOfPrefix recs length) : 1 ≤ length :=
    Nat.pos_of_dvd_of_pos power.1 filled
  rw [smallestPattern]
  cases search : (between 1 (recs.length / 2 + 1)).find? fun div => Repeats recs div with
  | some found =>
      rw [between, List.find?_range'_eq_some] at search
      obtain ⟨repeats, _, none_before⟩ := search
      refine ⟨repeats_iff.mp (of_decide_eq_true repeats), ?_⟩
      intro other power
      by_contra smaller
      have before := none_before other (positive power) (Nat.not_le.mp smaller)
      simp [repeats_iff.mpr power] at before
  | none =>
      rw [between, List.find?_range'_eq_none] at search
      refine ⟨⟨dvd_rfl, by simp [Nat.div_self filled]⟩, ?_⟩
      intro other power
      by_contra smaller
      -- a divisor that is less is at most half
      obtain ⟨count, sized⟩ := power.1
      have several : 2 ≤ count := by
        by_contra few
        have one_or_zero : count = 0 ∨ count = 1 := by omega
        rcases one_or_zero with rfl | rfl
        · omega
        · rw [Nat.mul_one] at sized
          exact smaller sized.le
      have half : other ≤ recs.length / 2 := by
        rw [Nat.le_div_iff_mul_le (by decide), sized]
        exact Nat.mul_le_mul_left other several
      have refused := search other (positive power) (by omega)
      simp [repeats_iff.mpr power] at refused

/-- The period that is found is the least divisor of the length of a slice whose records are the first ones of it,
repeated. -/
theorem findSmallestRepeatingPattern_least {sliceStart : Nat} (inside : sliceStart < detector.historyBuffer.size) :
    ∃ period, detector.findSmallestRepeatingPattern sliceStart = .ok period ∧
      IsLeast {length | Word.PowerOfPrefix (detector.historyBuffer.entries.drop sliceStart) length} period := by
  have made : detector.historyBuffer.makeVector sliceStart detector.historyBuffer.size =
      .ok (detector.historyBuffer.entries.drop sliceStart) := by
    rw [CircularBuffer.makeVector, if_neg (by omega), if_neg (by omega), if_neg (by omega), List.take_of_length_le]
    rw [List.length_drop, CircularBuffer.size]
  have some_left : detector.historyBuffer.entries.drop sliceStart ≠ [] := by
    rw [← List.length_pos_iff, List.length_drop]
    exact Nat.sub_pos_of_lt inside
  refine ⟨_, ?_, smallestPattern_least some_left⟩
  rw [findSmallestRepeatingPattern, if_neg (by omega), if_neg (by omega), Int.toNat_natCast, made]
  rfl

/-- A history of six records from its second one on: the groups are of two. -/
theorem findSmallestRepeatingPattern_least_pair :
    ∃ period, findSmallestRepeatingPattern ⟨⟨8, [7, 1, 2, 1, 2, 1, 2], by decide⟩, 8, -1, -1, 7, fun _ => 0⟩ (1 : Nat) =
        .ok period ∧
      IsLeast {length | Word.PowerOfPrefix [1, 2, 1, 2, 1, 2] length} period :=
  findSmallestRepeatingPattern_least (by decide)

end PeriodicityDetector

end Geopm
