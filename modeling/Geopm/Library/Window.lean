import Mathlib.Data.List.Basic

namespace Window

/-! Flat memory that is read and written by ranges. -/

variable {Value : Type}

/-- Consecutive cells, replaced by the values of a list. -/
def put (memory : Nat → Value) (offset : Nat) (values : List Value) : Nat → Value :=
  fun cell => if offset ≤ cell then (values[cell - offset]?).getD (memory cell) else memory cell

/-- Consecutive cells. -/
def read (memory : Nat → Value) (offset count : Nat) : List Value :=
  (List.range count).map fun index => memory (offset + index)

variable {memory other : Nat → Value} {offset start count cell : Nat} {values : List Value}

@[simp] theorem length_read : (read memory offset count).length = count := by
  simp [read]

theorem read_congr (same : ∀ index, index < count → memory (offset + index) = other (offset + index)) :
    read memory offset count = read other offset count := by
  apply List.map_congr_left
  intro index member
  exact same index (List.mem_range.mp member)

theorem read_add {more : Nat} : read memory offset (count + more) =
    read memory offset count ++ read memory (offset + count) more := by
  simp only [read, List.range_add, List.map_append, List.map_map]
  congr 1
  apply List.map_congr_left
  intro index _
  simp [Nat.add_assoc]

theorem take_read {less : Nat} (inside : less ≤ count) :
    (read memory offset count).take less = read memory offset less := by
  obtain ⟨more, rfl⟩ := Nat.exists_eq_add_of_le inside
  rw [read_add, List.take_left' length_read]

theorem drop_read {less : Nat} (inside : less ≤ count) :
    (read memory offset count).drop less = read memory (offset + less) (count - less) := by
  obtain ⟨more, rfl⟩ := Nat.exists_eq_add_of_le inside
  rw [read_add, List.drop_left' length_read, Nat.add_sub_cancel_left]

/-- Cells outside of the range are as they were. -/
theorem put_outside (outside : cell < offset ∨ offset + values.length ≤ cell) :
    put memory offset values cell = memory cell := by
  rcases outside with below | above
  · exact if_neg (by omega)
  · rw [put, if_pos (by omega), List.getElem?_eq_none (by omega)]
    rfl

theorem put_singleton (value : Value) : put memory offset [value] offset = value := by
  simp [put]

theorem read_put : read (put memory offset values) offset values.length = values := by
  apply List.ext_getElem?
  intro index
  by_cases inside : index < values.length
  · simp [read, put, inside]
  · rw [List.getElem?_eq_none (by simpa using inside), List.getElem?_eq_none (by omega)]

theorem read_put_take (inside : count ≤ values.length) :
    read (put memory offset values) offset count = values.take count := by
  rw [← take_read inside, read_put]

/-- A range that does not meet the one that was written. -/
theorem read_put_disjoint (apart : start + count ≤ offset ∨ offset + values.length ≤ start) :
    read (put memory offset values) start count = read memory start count := by
  apply read_congr
  intro index inside
  exact put_outside (by omega)

end Window
