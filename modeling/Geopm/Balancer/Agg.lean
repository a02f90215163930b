import Geopm.Library.Number

namespace Geopm

/-! `Agg`: functions of the numbers among their operands. -/

namespace Agg

open Number (rationals mem_rationals)

/-- `sum`. -/
def sum (operand : List Number) : Number :=
  match rationals operand with
  | [] => .nan
  | first :: rest => .value (first :: rest).sum

/-- `min`. -/
def min (operand : List Number) : Number :=
  match (rationals operand).min? with
  | none => .nan
  | some least => .value least

/-- `max`. -/
def max (operand : List Number) : Number :=
  match (rationals operand).max? with
  | none => .nan
  | some most => .value most

/-- `median`. -/
def median (operand : List Number) : Number :=
  let sorted := (rationals operand).insertionSort (· ≤ ·)
  let middle := sorted.length / 2
  match sorted[middle]? with
  | none => .nan
  | some upper =>
      if sorted.length % 2 = 0 then .value ((upper + sorted.getD (middle - 1) 0) / 2)
      else .value upper

variable {values : List ℚ} {least : ℚ}

theorem min_mem {operand : List Number} (found : min operand = .value least) : .value least ∈ operand := by
  rw [min] at found
  cases smallest : (rationals operand).min? with
  | none => simp [smallest] at found
  | some smaller =>
      rw [smallest] at found
      cases found
      exact mem_rationals.mp (List.min?_eq_some_iff.mp smallest).1

theorem min_le {operand : List Number} {value : ℚ} (found : min operand = .value least)
    (member : .value value ∈ operand) : least ≤ value := by
  rw [min] at found
  cases smallest : (rationals operand).min? with
  | none => simp [smallest] at found
  | some smaller =>
      rw [smallest] at found
      cases found
      exact (List.min?_eq_some_iff.mp smallest).2 value (mem_rationals.mpr member)

end Agg

end Geopm
