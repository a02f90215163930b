import Geopm.EpochFilter.CircularBuffer
import Mathlib.Data.List.Induction

namespace Geopm

/-! `CircularBuffer` as it lies in memory: a vector, the index of the oldest value
and the number of values. -/

section Copy

variable {Entry : Type} {result values : List Entry} {offset index : Nat}

/-- `std::copy` of values into a vector. -/
def copyTo (result : List Entry) (offset : Nat) (values : List Entry) : List Entry :=
  result.take offset ++ values ++ result.drop (offset + values.length)

/-- Around the end of the vector. -/
theorem wrap (position size : Nat) (less : position < size + size) :
    position % size = if position < size then position else position - size := by
  by_cases inside : position < size
  · rw [if_pos inside, Nat.mod_eq_of_lt inside]
  · rw [if_neg inside, Nat.mod_eq_sub_mod (by omega), Nat.mod_eq_of_lt (by omega)]

theorem length_copyTo (inside : offset + values.length ≤ result.length) :
    (copyTo result offset values).length = result.length := by
  simp only [copyTo, List.length_append, List.length_take, List.length_drop]
  omega

theorem getElem?_copyTo (inside : offset + values.length ≤ result.length) :
    (copyTo result offset values)[index]? =
      if offset ≤ index ∧ index < offset + values.length then values[index - offset]?
      else result[index]? := by
  have front : (result.take offset).length = offset := by
    rw [List.length_take]
    omega
  rw [copyTo, List.append_assoc]
  by_cases before : index < offset
  · rw [List.getElem?_append_left (by omega), List.getElem?_take, if_pos before, if_neg (by omega)]
  · rw [List.getElem?_append_right (by omega), front]
    by_cases within : index < offset + values.length
    · rw [List.getElem?_append_left (by omega), if_pos ⟨by omega, within⟩]
    · rw [List.getElem?_append_right (by omega), List.getElem?_drop, if_neg (by omega)]
      congr 1
      omega

/-- A copy of a part of a vector. -/
theorem copyTo_straight (source : List Entry) (start : Nat) {length : Nat}
    (sized : result.length = length) (inside : start + length ≤ source.length) :
    (copyTo result 0 ((source.drop start).take length)).length = length ∧
      ∀ index, index < length →
        (copyTo result 0 ((source.drop start).take length))[index]? = source[start + index]? := by
  have room : 0 + ((source.drop start).take length).length ≤ result.length := by
    rw [List.length_take, List.length_drop]
    omega
  refine ⟨by rw [length_copyTo room, sized], fun index less => ?_⟩
  rw [getElem?_copyTo room, List.length_take, List.length_drop, if_pos (by omega),
    List.getElem?_take, if_pos (by omega), List.getElem?_drop]
  congr 1

/-- A copy of the end of a vector and behind it of its beginning. -/
theorem copyTo_around (source : List Entry) (start stop : Nat) {length : Nat}
    (sized : result.length = length) (first : start < source.length) (last : stop ≤ start)
    (enough : length = source.length - start + stop) :
    (copyTo (copyTo result 0 (source.drop start)) (source.length - start)
        (source.take stop)).length = length ∧
      ∀ index, index < length →
        (copyTo (copyTo result 0 (source.drop start)) (source.length - start)
          (source.take stop))[index]? = source[(start + index) % source.length]? := by
  have upper : 0 + (source.drop start).length ≤ result.length := by
    rw [List.length_drop]
    omega
  have lower : source.length - start + (source.take stop).length ≤
      (copyTo result 0 (source.drop start)).length := by
    rw [length_copyTo upper, List.length_take]
    omega
  refine ⟨by rw [length_copyTo lower, length_copyTo upper, sized], fun index less => ?_⟩
  rw [getElem?_copyTo lower, List.length_take, wrap _ _ (by omega)]
  by_cases wrapped : start + index < source.length
  · rw [if_neg (by omega), getElem?_copyTo upper, if_pos (by rw [List.length_drop]; omega),
      List.getElem?_drop, if_pos wrapped]
    congr 1
  · rw [if_pos (by omega), List.getElem?_take, if_pos (by omega), if_neg wrapped]
    congr 1
    omega

end Copy

structure Ring (Entry : Type) where
  buffer : List Entry
  head : Nat
  count : Nat
  maxSize : Nat
deriving Repr, DecidableEq

namespace Ring

variable {Entry : Type}

/-- `size`. -/
def size (ring : Ring Entry) : Nat := ring.count

/-- `clear`. -/
def clear (ring : Ring Entry) : Ring Entry := { ring with head := 0, count := 0 }

/-- `insert`. -/
def insert (ring : Ring Entry) (value : Entry) : Except BufferError (Ring Entry) :=
  if ring.maxSize < 1 then .error .zeroSize
  else if ring.count < ring.maxSize then
    .ok { ring with buffer := ring.buffer.set ring.count value, count := ring.count + 1 }
  else
    .ok { ring with
      buffer := ring.buffer.set ring.head value
      head := (ring.head + 1) % ring.maxSize }

variable [Inhabited Entry]

/-- The constructor. -/
def new (size : Nat) : Ring Entry := ⟨List.replicate size default, 0, 0, size⟩

/-- `value`. -/
def value (ring : Ring Entry) (index : Nat) : Except BufferError Entry :=
  if index ≥ ring.count then .error .indexOutOfBounds
  else .ok (ring.buffer.getD ((ring.head + index) % ring.maxSize) default)

/-- `make_vector` without arguments. -/
def makeVector (ring : Ring Entry) : List Entry :=
  let result := List.replicate ring.size default
  if ring.head = 0 then copyTo result 0 (ring.buffer.take ring.count)
  else
    copyTo (copyTo result 0 (ring.buffer.drop ring.head)) (ring.size - ring.head)
      (ring.buffer.take ring.head)

/-- `make_vector` with the bounds of a slice. -/
def makeSlice (ring : Ring Entry) (idxStart idxEnd : Nat) : Except BufferError (List Entry) :=
  if idxStart ≥ ring.size then .error .startOutOfBounds
  else if idxEnd > ring.size then .error .endOutOfBounds
  else if idxEnd ≤ idxStart then .error .endSmaller
  else
    let result := List.replicate (idxEnd - idxStart) default
    let start := (ring.head + idxStart) % ring.maxSize
    let stop := (ring.head + idxEnd - 1) % ring.maxSize + 1
    if stop > start then .ok (copyTo result 0 ((ring.buffer.drop start).take (stop - start)))
    else
      .ok (copyTo (copyTo result 0 (ring.buffer.drop start)) (ring.maxSize - start)
        (ring.buffer.take stop))

omit [Inhabited Entry]

/-- The values of a buffer, the oldest first, lie in the vector from the head on and
around its end. -/
structure Represents (ring : Ring Entry) (buffer : CircularBuffer Entry) : Prop where
  sized : ring.buffer.length = ring.maxSize
  capacity : ring.maxSize = buffer.maxSize
  counted : ring.count = buffer.entries.length
  inside : ring.head < ring.maxSize ∨ ring.head = 0
  start : ring.head = 0 ∨ ring.count = ring.maxSize
  entry : ∀ index, index < ring.count →
    ring.buffer[(ring.head + index) % ring.maxSize]? = buffer.entries[index]?

namespace Represents

variable {ring next : Ring Entry} {buffer : CircularBuffer Entry} {index idxStart idxEnd : Nat}

theorem bounded (represents : ring.Represents buffer) : ring.count ≤ ring.maxSize := by
  rw [represents.counted, represents.capacity]
  exact buffer.bounded

theorem new [Inhabited Entry] (size : Nat) :
    (Ring.new size : Ring Entry).Represents (CircularBuffer.new size) := by
  refine ⟨List.length_replicate, rfl, rfl, .inr rfl, .inl rfl, ?_⟩
  intro index inside
  exact absurd inside (Nat.not_lt_zero index)

theorem clear (represents : ring.Represents buffer) : ring.clear.Represents buffer.clear := by
  refine ⟨represents.sized, represents.capacity, rfl, .inr rfl, .inl rfl, ?_⟩
  intro index inside
  exact absurd inside (Nat.not_lt_zero index)

theorem insert (represents : ring.Represents buffer) (positive : 0 < ring.maxSize)
    (value : Entry) : ∃ next after, ring.insert value = .ok next ∧
      buffer.insert value = .ok after ∧ next.Represents after := by
  obtain ⟨sized, capacity, counted, inside, start, entry⟩ := represents
  have head : ring.head < ring.maxSize := by omega
  rw [Ring.insert, CircularBuffer.insert, if_neg (by omega), dif_neg (by omega)]
  by_cases space : ring.count < ring.maxSize
  · rw [if_pos space, dif_pos (by rw [CircularBuffer.size]; omega)]
    have zero : ring.head = 0 := by omega
    refine ⟨_, _, rfl, rfl, ?_, capacity, ?_, inside, .inl zero, fun index less => ?_⟩
    · simpa using sized
    · simpa using counted
    · simp only [zero, Nat.zero_add] at entry less ⊢
      rw [Nat.mod_eq_of_lt (by omega)]
      by_cases last : index = ring.count
      · subst last
        rw [List.getElem?_set_self (by omega), List.getElem?_append_right (by omega), counted]
        simp
      · have known := entry index (by omega)
        rw [Nat.mod_eq_of_lt (by omega)] at known
        rw [List.getElem?_set_ne (by omega), known, List.getElem?_append_left (by omega)]
  · rw [if_neg space, dif_neg (by rw [CircularBuffer.size]; omega)]
    have full : ring.count = ring.maxSize := by
      have bounded := buffer.bounded
      omega
    refine ⟨_, _, rfl, rfl, ?_, capacity, ?_, .inl (Nat.mod_lt _ positive), .inr full,
      fun index less => ?_⟩
    · simpa using sized
    · simp only [List.length_append, List.length_tail, List.length_singleton]
      omega
    · simp only at less ⊢
      rw [Nat.mod_add_mod]
      by_cases last : index + 1 = ring.count
      · -- the new value has replaced the oldest one
        have place : (ring.head + 1 + index) % ring.maxSize = ring.head := by
          rw [wrap _ _ (by omega), if_neg (by omega)]
          omega
        rw [place, List.getElem?_set_self (by omega),
          List.getElem?_append_right (by rw [List.length_tail]; omega), List.length_tail]
        have zero : index - (buffer.entries.length - 1) = 0 := by omega
        rw [zero]
        rfl
      · have known := entry (index + 1) (by omega)
        have other : (ring.head + (index + 1)) % ring.maxSize ≠ ring.head := by
          rw [wrap _ _ (by omega)]
          by_cases short : ring.head + (index + 1) < ring.maxSize
          · rw [if_pos short]
            omega
          · rw [if_neg short]
            omega
        rw [show ring.head + 1 + index = ring.head + (index + 1) by omega,
          List.getElem?_set_ne other.symm, known,
          List.getElem?_append_left (by rw [List.length_tail]; omega), List.getElem?_tail]

/-- Entries of the vector in order are a slice of the buffer. -/
theorem slice (represents : ring.Represents buffer) (inside : idxEnd ≤ ring.count)
    {result : List Entry} (sized : result.length = idxEnd - idxStart)
    (each : ∀ index, index < idxEnd - idxStart → result[index]? =
      ring.buffer[(ring.head + (idxStart + index)) % ring.maxSize]?) :
    result = (buffer.entries.drop idxStart).take (idxEnd - idxStart) := by
  apply List.ext_getElem?
  intro index
  rw [List.getElem?_take]
  by_cases less : index < idxEnd - idxStart
  · rw [if_pos less, List.getElem?_drop, each index less, represents.entry _ (by omega)]
  · rw [if_neg less, List.getElem?_eq_none (by omega)]

variable [Inhabited Entry]

theorem value (represents : ring.Represents buffer) : ring.value index = buffer.value index := by
  rw [Ring.value, CircularBuffer.value]
  by_cases inside : index < ring.count
  · have known := represents.entry index inside
    have counted := represents.counted
    rw [if_neg (by omega), List.getD_eq_getElem?_getD, known,
      List.getElem?_eq_getElem (by omega)]
    rfl
  · have counted := represents.counted
    rw [if_pos (by omega), List.getElem?_eq_none (by omega)]

theorem makeVector (represents : ring.Represents buffer) : ring.makeVector = buffer.entries := by
  have bounded := represents.bounded
  have counted := represents.counted
  have sized := represents.sized
  have inside := represents.inside
  have start := represents.start
  have whole : buffer.entries = (buffer.entries.drop 0).take (ring.count - 0) := by
    rw [List.drop_zero, Nat.sub_zero, counted, List.take_length]
  have room : (List.replicate ring.count (default : Entry)).length = ring.count :=
    List.length_replicate
  rw [whole, Ring.makeVector, Ring.size]
  by_cases first : ring.head = 0
  · rw [if_pos first]
    have copied := copyTo_straight ring.buffer 0 room (by omega)
    rw [List.drop_zero] at copied
    apply represents.slice (Nat.le_refl _) (by rw [copied.1, Nat.sub_zero])
    intro index less
    rw [copied.2 index (by omega), first, Nat.mod_eq_of_lt (by omega)]
    congr 1
    omega
  · rw [if_neg first, show ring.count - ring.head = ring.buffer.length - ring.head by omega]
    have copied := copyTo_around ring.buffer ring.head ring.head room (by omega) (by omega) (by omega)
    apply represents.slice (Nat.le_refl _) (by rw [copied.1, Nat.sub_zero])
    intro index less
    rw [copied.2 index (by omega), sized, Nat.zero_add]

theorem makeSlice (represents : ring.Represents buffer) :
    ring.makeSlice idxStart idxEnd = buffer.makeVector idxStart idxEnd := by
  have bounded := represents.bounded
  have counted := represents.counted
  have sized := represents.sized
  have inside := represents.inside
  rw [Ring.makeSlice, CircularBuffer.makeVector, Ring.size, CircularBuffer.size, ← counted]
  by_cases late : idxStart ≥ ring.count
  · rw [if_pos late, if_pos late]
  rw [if_neg late, if_neg late]
  by_cases long : idxEnd > ring.count
  · rw [if_pos long, if_pos long]
  rw [if_neg long, if_neg long]
  by_cases reversed : idxEnd ≤ idxStart
  · rw [if_pos reversed, if_pos reversed]
  rw [if_neg reversed, if_neg reversed]
  have first := wrap (ring.head + idxStart) ring.maxSize (by omega)
  have last := wrap (ring.head + idxEnd - 1) ring.maxSize (by omega)
  have starts : (ring.head + idxStart) % ring.maxSize < ring.maxSize := Nat.mod_lt _ (by omega)
  have stops : (ring.head + idxEnd - 1) % ring.maxSize < ring.maxSize := Nat.mod_lt _ (by omega)
  have place : ∀ index, (ring.head + (idxStart + index)) % ring.maxSize =
      ((ring.head + idxStart) % ring.maxSize + index) % ring.maxSize := by
    intro index
    rw [Nat.mod_add_mod, Nat.add_assoc]
  have room : List.length (List.replicate (idxEnd - idxStart) (default : Entry)) =
      idxEnd - idxStart := List.length_replicate
  simp only
  generalize (ring.head + idxStart) % ring.maxSize = start at *
  generalize (ring.head + idxEnd - 1) % ring.maxSize = stop at *
  by_cases straight : stop + 1 > start
  · rw [if_pos straight]
    have length : stop + 1 - start = idxEnd - idxStart := by
      split at first <;> split at last <;> omega
    rw [length]
    have copied := copyTo_straight ring.buffer start room (by omega)
    congr 1
    apply represents.slice (by omega) copied.1
    intro index less
    rw [copied.2 index less, place, Nat.mod_eq_of_lt (by omega)]
  · rw [if_neg straight, ← sized]
    have length : idxEnd - idxStart = ring.buffer.length - start + (stop + 1) := by
      split at first <;> split at last <;> omega
    have copied := copyTo_around ring.buffer start (stop + 1) room (by omega) (by omega) length
    congr 1
    apply represents.slice (by omega) copied.1
    intro index less
    rw [copied.2 index less, place, sized]

end Represents

section Runs

/-- A call that changes a buffer. -/
inductive Change (Entry : Type) where
  | insert (value : Entry)
  | clear

/-- What has been inserted since the last `clear`. -/
def Change.keep (items : List Entry) : Change Entry → List Entry
  | .insert value => items ++ [value]
  | .clear => []

def sinceClear (changes : List (Change Entry)) : List Entry := changes.foldl Change.keep []

/-- The last items, as many as there is room for. -/
def window (capacity : Nat) (items : List Entry) : List Entry :=
  items.drop (items.length - capacity)

def change (ring : Ring Entry) : Change Entry → Except BufferError (Ring Entry)
  | .insert value => ring.insert value
  | .clear => .ok ring.clear

variable {capacity : Nat} {items : List Entry} {ring : Ring Entry} {buffer : CircularBuffer Entry}

theorem length_window : (window capacity items).length = min items.length capacity := by
  rw [window, List.length_drop]
  omega

/-- The entries of a buffer are the last items. -/
def Recent (buffer : CircularBuffer Entry) (capacity : Nat) (items : List Entry) : Prop :=
  buffer.maxSize = capacity ∧ buffer.entries = window capacity items

theorem Recent.insert {after : CircularBuffer Entry} {value : Entry}
    (recent : Recent buffer capacity items) (inserted : buffer.insert value = .ok after) :
    Recent after capacity (items ++ [value]) := by
  obtain ⟨room, entries⟩ := recent
  have sized : buffer.size = min items.length capacity := by
    rw [CircularBuffer.size, entries, length_window]
  rw [CircularBuffer.insert] at inserted
  by_cases empty : buffer.maxSize < 1
  · simp [empty] at inserted
  rw [dif_neg empty] at inserted
  by_cases space : buffer.size < buffer.maxSize
  · rw [dif_pos space] at inserted
    cases inserted
    refine ⟨room, ?_⟩
    have few : items.length < capacity := by omega
    simp only [entries, window, List.length_append, List.length_singleton]
    rw [show items.length - capacity = 0 by omega, show items.length + 1 - capacity = 0 by omega,
      List.drop_zero, List.drop_zero]
  · rw [dif_neg space] at inserted
    cases inserted
    refine ⟨room, ?_⟩
    simp only [entries, window, List.length_append, List.length_singleton]
    rw [List.tail_drop, List.drop_append_of_le_length (by omega)]
    congr 2
    omega

/-- What a buffer holds after any changes. -/
theorem run_represents [Inhabited Entry] (positive : 1 ≤ capacity) (changes : List (Change Entry)) :
    ∃ ring buffer, changes.foldlM change (Ring.new capacity) = .ok ring ∧
      ring.Represents buffer ∧ Recent buffer capacity (sinceClear changes) := by
  induction changes using List.reverseRecOn with
  | nil => exact ⟨_, _, rfl, Represents.new capacity, rfl, List.drop_nil.symm⟩
  | append_singleton earlier last ih =>
      obtain ⟨ring, buffer, reached, represents, recent⟩ := ih
      rw [List.foldlM_append, reached, sinceClear, List.foldl_append]
      cases last with
      | insert value =>
          have room : 0 < ring.maxSize := by
            rw [represents.capacity, recent.1]
            exact positive
          obtain ⟨next, after, inserted, abstract, represents⟩ := represents.insert room value
          refine ⟨next, after, ?_, represents, recent.insert abstract⟩
          change (ring.insert value >>= pure) = _
          rw [inserted]
          rfl
      | clear =>
          exact ⟨ring.clear, buffer.clear, rfl, represents.clear, recent.1, List.drop_nil.symm⟩

/-- However often the head has gone around the vector, the accessors show the items that were
inserted last. -/
theorem run_window [Inhabited Entry] (capacity : Nat) (positive : 1 ≤ capacity)
    (changes : List (Change Entry)) :
    ∃ ring, changes.foldlM change (Ring.new capacity) = .ok ring ∧
      ring.size = min (sinceClear changes).length capacity ∧
      (∀ index, index < ring.size → ∃ entry, ring.value index = .ok entry ∧
        (window capacity (sinceClear changes))[index]? = some entry) ∧
      ring.makeVector = window capacity (sinceClear changes) ∧
      ∀ idxStart idxEnd, idxStart < idxEnd → idxEnd ≤ ring.size →
        ring.makeSlice idxStart idxEnd =
          .ok (((window capacity (sinceClear changes)).drop idxStart).take (idxEnd - idxStart)) := by
  obtain ⟨ring, buffer, reached, represents, room, entries⟩ := run_represents positive changes
  have sized : ring.size = buffer.size := represents.counted
  refine ⟨ring, reached, ?_, ?_, ?_, ?_⟩
  · rw [sized, CircularBuffer.size, entries, length_window]
  · intro index inside
    rw [sized] at inside
    rw [represents.value, CircularBuffer.value, ← entries, List.getElem?_eq_getElem inside]
    exact ⟨_, rfl, rfl⟩
  · rw [represents.makeVector, entries]
  · intro idxStart idxEnd order inside
    rw [sized] at inside
    rw [represents.makeSlice, CircularBuffer.makeVector, if_neg (by omega), if_neg (by omega),
      if_neg (by omega), entries]

/-- Two slots that have been filled three times around a `clear`. -/
theorem run_window_twoSlots :
    (1 ≤ 2) ∧ ∃ ring, [Change.insert 5, .clear, .insert 6, .insert 7, .insert 8].foldlM change
      (Ring.new 2) = .ok ring ∧ ring.makeVector = [7, 8] := by
  obtain ⟨ring, reached, _, _, whole, _⟩ :=
    run_window 2 (by decide) [Change.insert 5, .clear, .insert 6, .insert 7, .insert 8]
  exact ⟨by decide, ring, reached, whole⟩

end Runs

end Ring

end Geopm
