import Mathlib.Data.List.Basic
import Mathlib.Data.List.DropRight

namespace Geopm

/-! `CircularBuffer`: the last values that were inserted, the oldest first. -/

inductive BufferError where
  /-- "CircularBuffer::insert(): Cannot insert into a buffer of 0 size" -/
  | zeroSize
  /-- "CircularBuffer::value(): index is out of bounds" -/
  | indexOutOfBounds
  /-- "CircularBuffer::make_vector(): start is out of bounds" -/
  | startOutOfBounds
  /-- "CircularBuffer::make_vector(): end is out of bounds" -/
  | endOutOfBounds
  /-- "CircularBuffer::make_vector(): end index is smaller than start index" -/
  | endSmaller
deriving Repr, DecidableEq

structure CircularBuffer (Entry : Type) where
  maxSize : Nat
  entries : List Entry
  bounded : entries.length ≤ maxSize

namespace CircularBuffer

variable {Entry : Type}

/-- The constructor. -/
def new (size : Nat) : CircularBuffer Entry := ⟨size, [], Nat.zero_le size⟩

/-- `size`. -/
def size (buffer : CircularBuffer Entry) : Nat := buffer.entries.length

/-- `clear`. -/
def clear (buffer : CircularBuffer Entry) : CircularBuffer Entry :=
  ⟨buffer.maxSize, [], Nat.zero_le _⟩

/-- `set_capacity` of a buffer that holds no values. -/
def setCapacity (_empty : CircularBuffer Entry) (size : Nat) : CircularBuffer Entry := new size

/-- `insert`. -/
def insert (buffer : CircularBuffer Entry) (value : Entry) :
    Except BufferError (CircularBuffer Entry) :=
  if empty : buffer.maxSize < 1 then .error .zeroSize
  else if space : buffer.size < buffer.maxSize then
    .ok ⟨buffer.maxSize, buffer.entries ++ [value], by
      rw [List.length_append]
      exact space⟩
  else
    .ok ⟨buffer.maxSize, buffer.entries.tail ++ [value], by
      have bounded := buffer.bounded
      simp only [List.length_append, List.length_tail, List.length_singleton]
      omega⟩

/-- `value`. -/
def value (buffer : CircularBuffer Entry) (index : Nat) : Except BufferError Entry :=
  match buffer.entries[index]? with
  | some entry => .ok entry
  | none => .error .indexOutOfBounds

/-- `make_vector` with the bounds of a slice. -/
def makeVector (buffer : CircularBuffer Entry) (idxStart idxEnd : Nat) :
    Except BufferError (List Entry) :=
  if idxStart ≥ buffer.size then .error .startOutOfBounds
  else if idxEnd > buffer.size then .error .endOutOfBounds
  else if idxEnd ≤ idxStart then .error .endSmaller
  else .ok ((buffer.entries.drop idxStart).take (idxEnd - idxStart))

variable {buffer next : CircularBuffer Entry} {entry : Entry} {index idxStart : Nat}

/-- A buffer with room for an entry takes any value, and drops at most its oldest. -/
theorem insert_ok (positive : 0 < buffer.maxSize) (entry : Entry) :
    ∃ next, buffer.insert entry = .ok next ∧ next.maxSize = buffer.maxSize ∧
      next.size = min (buffer.size + 1) buffer.maxSize := by
  have bounded := buffer.bounded
  rw [insert, dif_neg (by omega)]
  by_cases space : buffer.size < buffer.maxSize
  · rw [dif_pos space]
    refine ⟨_, rfl, rfl, ?_⟩
    simp only [size, List.length_append, List.length_singleton] at space ⊢
    omega
  · rw [dif_neg space]
    refine ⟨_, rfl, rfl, ?_⟩
    simp only [size, List.length_append, List.length_tail, List.length_singleton] at space ⊢
    omega

/-- The buffer holds the last of the values that were inserted. -/
theorem insert_rtake {values : List Entry} (positive : 0 < buffer.maxSize)
    (holds : buffer.entries = values.rtake buffer.maxSize) (entry : Entry) :
    ∃ next, buffer.insert entry = .ok next ∧ next.maxSize = buffer.maxSize ∧
      next.entries = (values ++ [entry]).rtake buffer.maxSize := by
  obtain ⟨most, sized⟩ : ∃ most, buffer.maxSize = most + 1 := ⟨buffer.maxSize - 1, by omega⟩
  have length : buffer.size = min values.length (most + 1) := by
    rw [size, holds, sized, List.rtake, List.length_drop]
    omega
  rw [insert, dif_neg (by omega)]
  by_cases space : buffer.size < buffer.maxSize
  · rw [dif_pos space]
    refine ⟨_, rfl, rfl, ?_⟩
    change buffer.entries ++ [entry] = _
    have all : values.length ≤ most := by omega
    rw [sized, List.rtake_concat_succ, holds, sized, List.rtake, List.rtake,
      Nat.sub_eq_zero_of_le all, Nat.sub_eq_zero_of_le (by omega)]
  · rw [dif_neg space]
    refine ⟨_, rfl, rfl, ?_⟩
    change buffer.entries.tail ++ [entry] = _
    have dropped : values.length - (most + 1) + 1 = values.length - most := by omega
    rw [sized, List.rtake_concat_succ, holds, sized, List.rtake, List.rtake, List.tail_drop, dropped]

/-- Everything that is held is among the last values. -/
theorem rtake_entries : buffer.entries.rtake buffer.maxSize = buffer.entries := by
  rw [List.rtake, Nat.sub_eq_zero_of_le buffer.bounded, List.drop_zero]

/-- A buffer that has room takes a list of values, and holds the last of all. -/
theorem foldlM_insert {before values : List Entry} (positive : 0 < buffer.maxSize)
    (holds : buffer.entries = before.rtake buffer.maxSize) :
    ∃ next, values.foldlM insert buffer = .ok next ∧ next.maxSize = buffer.maxSize ∧
      next.entries = (before ++ values).rtake buffer.maxSize := by
  induction values generalizing buffer before with
  | nil =>
      refine ⟨buffer, rfl, rfl, ?_⟩
      rwa [List.append_nil]
  | cons value rest ih =>
      obtain ⟨middle, inserted, sized, entries⟩ := insert_rtake positive holds value
      rw [← sized] at entries positive
      obtain ⟨next, others, kept, final⟩ := ih positive entries
      refine ⟨next, ?_, kept.trans sized, ?_⟩
      · rw [List.foldlM_cons, inserted]
        exact others
      · rw [List.append_cons, final, sized]

theorem value_ok (inside : index < buffer.size) : ∃ entry, buffer.value index = .ok entry := by
  rw [value, List.getElem?_eq_getElem inside]
  exact ⟨_, rfl⟩

theorem makeVector_ok (inside : idxStart < buffer.size) :
    ∃ entries, buffer.makeVector idxStart buffer.size = .ok entries := by
  rw [makeVector, if_neg (by omega), if_neg (by omega), if_neg (by omega)]
  exact ⟨_, rfl⟩

end CircularBuffer

end Geopm
