import Geopm.EpochFilter.RingBuffer

namespace Geopm

/-! `CircularBuffer::set_capacity` of a buffer that may hold values. -/

theorem CircularBuffer.insert_room {Entry : Type} {buffer : CircularBuffer Entry}
    (space : buffer.size < buffer.maxSize) (entry : Entry) :
    ∃ bounded, buffer.insert entry = .ok ⟨buffer.maxSize, buffer.entries ++ [entry], bounded⟩ := by
  rw [CircularBuffer.insert, dif_neg (by omega), dif_pos space]
  exact ⟨_, rfl⟩

namespace Ring

inductive ResizeError where
  /-- the vector is read outside of its bounds -/
  | outOfRange
  /-- the loop goes on after it has been all around the vector -/
  | endless
deriving DecidableEq

variable {Entry : Type}

/-- The loop that copies values, from an index on around the end of the vector up to
another index. -/
def newest (buffer : List Entry) (maxSize stop : Nat) : Nat → Nat → Except ResizeError (List Entry)
  | 0, _ => .error .endless
  | fuel + 1, index =>
      if index = stop then .ok []
      else
        match buffer[index]? with
        | none => .error .outOfRange
        | some value =>
            match newest buffer maxSize stop fuel ((index + 1) % maxSize) with
            | .ok values => .ok (value :: values)
            | .error reason => .error reason

section Resize

variable [Inhabited Entry]

/-- `resize` of a vector. -/
def resize (values : List Entry) (size : Nat) : List Entry :=
  values.take size ++ List.replicate (size - values.length) default

/-- `set_capacity`. -/
def setCapacity (ring : Ring Entry) (size : Nat) : Except ResizeError (Ring Entry) :=
  if size < ring.count ∧ 0 < ring.maxSize then
    match newest ring.buffer ring.maxSize ((ring.head + ring.count) % ring.maxSize)
        (ring.maxSize + 1) (ring.head + (ring.count - size)) with
    | .ok temp => .ok ⟨temp, 0, size, size⟩
    | .error reason => .error reason
  else .ok ⟨resize ring.buffer size, 0, ring.count, size⟩

end Resize

/-- A call of the buffer. -/
inductive Call (Entry : Type) where
  | insert (value : Entry)
  | clear
  | setCapacity (size : Nat)

section Observe

variable [Inhabited Entry]

/-- The buffer after a call, which an exception leaves as it was. After a read outside
of the vector it may be anything. -/
def call (ring : Ring Entry) : Call Entry → Option (Ring Entry)
  | .insert value =>
      match ring.insert value with
      | .ok next => some next
      | .error _ => some ring
  | .clear => some ring.clear
  | .setCapacity size =>
      match ring.setCapacity size with
      | .ok next => some next
      | .error _ => none

/-- Two buffers show the same values. -/
structure Alike (ring other : Ring Entry) : Prop where
  size : ring.size = other.size
  capacity : ring.maxSize = other.maxSize
  value : ∀ index, ring.value index = other.value index
  vector : ring.makeVector = other.makeVector
  slice : ∀ idxStart idxEnd, ring.makeSlice idxStart idxEnd = other.makeSlice idxStart idxEnd

/-- Two calls throw the same, or leave buffers that are alike. -/
def Agree : Except BufferError (Ring Entry) → Except BufferError (Ring Entry) → Prop
  | .ok ring, .ok other => ring.Alike other
  | .error reason, .error other => reason = other
  | _, _ => False

/-- Two buffers cannot be told apart by later calls. -/
def BehavesAs (ring other : Ring Entry) : Prop :=
  ∀ changes : List (Change Entry), Agree (changes.foldlM change ring) (changes.foldlM change other)

/-- The newest values stay, in a buffer like a fresh one into which they are inserted. -/
def Keeps (ring : Ring Entry) (size : Nat) : Prop :=
  ∃ after fresh, ring.setCapacity size = .ok after ∧ after.maxSize = size ∧
    after.makeVector = window size ring.makeVector ∧
    (window size ring.makeVector).foldlM insert (Ring.new size) = .ok fresh ∧ after.BehavesAs fresh

end Observe

/-- Fewer values are kept, and the oldest of them lies before the end of the vector; or
all are kept, and they lie in order from the beginning of the vector on. -/
def Straight (ring : Ring Entry) (size : Nat) : Prop :=
  if size < ring.count then ring.head + (ring.count - size) < ring.maxSize
  else ∀ index, index < ring.count →
    ring.buffer[index]? = ring.buffer[(ring.head + index) % ring.maxSize]?

instance [DecidableEq Entry] (ring : Ring Entry) (size : Nat) : Decidable (ring.Straight size) :=
  inferInstanceAs (Decidable (if size < ring.count then _ else _))

variable {ring after other : Ring Entry} {buffer : CircularBuffer Entry} {size : Nat}

/-- The loop copies what lies between two indices when both are in the vector. -/
theorem newest_ok {values : List Entry} {maxSize fuel index length : Nat}
    (sized : values.length = maxSize) (inside : index < maxSize) (short : length < maxSize)
    (enough : length < fuel) :
    ∃ result, newest values maxSize ((index + length) % maxSize) fuel index = .ok result ∧
      result.length = length ∧
      ∀ place, place < length → result[place]? = values[(index + place) % maxSize]? := by
  induction length generalizing fuel index with
  | zero =>
      obtain ⟨fuel, rfl⟩ := Nat.exists_eq_add_of_lt enough
      refine ⟨[], ?_, rfl, fun place less => absurd less (Nat.not_lt_zero place)⟩
      rw [Nat.add_zero, Nat.mod_eq_of_lt inside, newest, if_pos rfl]
  | succ length ih =>
      obtain ⟨fuel, rfl⟩ := Nat.exists_eq_add_of_lt (Nat.zero_lt_of_lt enough)
      have going : index ≠ (index + (length + 1)) % maxSize := by
        rw [wrap _ _ (by omega)]
        split <;> omega
      have next : (index + 1) % maxSize < maxSize := Nat.mod_lt _ (by omega)
      have stop : ((index + 1) % maxSize + length) % maxSize = (index + (length + 1)) % maxSize := by
        rw [Nat.mod_add_mod]
        congr 1
        omega
      obtain ⟨result, copied, sizes, each⟩ := ih next (by omega) (by omega : length < 0 + fuel)
      rw [stop] at copied
      refine ⟨values[index] :: result, ?_, by rw [List.length_cons, sizes], fun place less => ?_⟩
      · rw [newest, if_neg going, List.getElem?_eq_getElem (by omega)]
        simp only [copied]
      · cases place with
        | zero => rw [List.getElem?_cons_zero, Nat.add_zero, Nat.mod_eq_of_lt inside,
            List.getElem?_eq_getElem]
        | succ place =>
            rw [List.getElem?_cons_succ, each place (by omega), Nat.mod_add_mod]
            congr 2
            omega

namespace Represents

variable [Inhabited Entry]

theorem shrink_ok (represents : ring.Represents buffer) (fewer : size < ring.count)
    (straight : ring.head + (ring.count - size) < ring.maxSize) :
    ∃ after, ring.setCapacity size = .ok after ∧
      after.Represents ⟨size, window size buffer.entries, by rw [length_window]; omega⟩ := by
  have bounded := represents.bounded
  have counted := represents.counted
  obtain ⟨temp, copied, sized, each⟩ := newest_ok represents.sized straight (by omega : size < ring.maxSize)
    (by omega : size < ring.maxSize + 1)
  have stop : ring.head + (ring.count - size) + size = ring.head + ring.count := by omega
  rw [stop] at copied
  refine ⟨⟨temp, 0, size, size⟩, ?_, sized, rfl, ?_, .inr rfl, .inl rfl, fun index less => ?_⟩
  · rw [setCapacity, if_pos ⟨fewer, by omega⟩]
    simp only [copied]
  · rw [length_window]
    simp only
    omega
  · simp only at less ⊢
    rw [Nat.zero_add, Nat.mod_eq_of_lt less, each index less, Nat.add_assoc,
      represents.entry _ (by omega), window, List.getElem?_drop, ← counted]

theorem shrink_error (represents : ring.Represents buffer) (fewer : size < ring.count)
    (crooked : ring.maxSize ≤ ring.head + (ring.count - size)) :
    ring.setCapacity size = .error .outOfRange := by
  have bounded := represents.bounded
  have sized := represents.sized
  have stop : (ring.head + ring.count) % ring.maxSize < ring.maxSize := Nat.mod_lt _ (by omega)
  rw [setCapacity, if_pos ⟨fewer, by omega⟩, newest, if_neg (by omega),
    List.getElem?_eq_none (by omega)]

theorem grow_ok (represents : ring.Represents buffer) (enough : ring.count ≤ size) :
    ∃ after, ring.setCapacity size = .ok after ∧
      after.Represents ⟨size, ring.buffer.take ring.count, by rw [List.length_take]; omega⟩ := by
  have bounded := represents.bounded
  have sized := represents.sized
  refine ⟨⟨resize ring.buffer size, 0, ring.count, size⟩, ?_, ?_, rfl, ?_, .inr rfl, .inl rfl,
    fun index less => ?_⟩
  · rw [setCapacity, if_neg (by omega)]
  · simp only [resize, List.length_append, List.length_take, List.length_replicate]
    omega
  · simp only [List.length_take]
    omega
  · simp only at less ⊢
    rw [Nat.zero_add, Nat.mod_eq_of_lt (by omega), List.getElem?_take, if_pos less, resize,
      List.getElem?_append_left (by rw [List.length_take]; omega), List.getElem?_take,
      if_pos (by omega)]

theorem alike (one : ring.Represents buffer) (two : other.Represents buffer) : ring.Alike other where
  size := one.counted.trans two.counted.symm
  capacity := one.capacity.trans two.capacity.symm
  value _ := one.value.trans two.value.symm
  vector := one.makeVector.trans two.makeVector.symm
  slice _ _ := one.makeSlice.trans two.makeSlice.symm

omit [Inhabited Entry] in
/-- A change of two buffers that represent the same values. -/
theorem changed (one : ring.Represents buffer) (two : other.Represents buffer)
    (call : Change Entry) : (∃ reason, change ring call = .error reason ∧ change other call = .error reason) ∨
      ∃ next last common, change ring call = .ok next ∧ change other call = .ok last ∧
        next.Represents common ∧ last.Represents common := by
  cases call with
  | clear => exact .inr ⟨_, _, _, rfl, rfl, one.clear, two.clear⟩
  | insert value =>
      have capacity : ring.maxSize = other.maxSize := one.capacity.trans two.capacity.symm
      by_cases empty : ring.maxSize < 1
      · refine .inl ⟨.zeroSize, ?_, ?_⟩
        · rw [change, Ring.insert, if_pos empty]
        · rw [change, Ring.insert, if_pos (capacity ▸ empty)]
      · obtain ⟨next, common, inserted, abstract, kept⟩ := one.insert (by omega) value
        obtain ⟨last, same, stored, again, holds⟩ := two.insert (by omega) value
        obtain rfl : common = same := Except.ok.inj (abstract.symm.trans again)
        exact .inr ⟨next, last, common, inserted, stored, kept, holds⟩

theorem behaves (one : ring.Represents buffer) (two : other.Represents buffer) :
    ring.BehavesAs other := by
  intro changes
  induction changes generalizing ring other buffer with
  | nil => exact one.alike two
  | cons first rest ih =>
      rw [List.foldlM_cons, List.foldlM_cons]
      rcases one.changed two first with ⟨reason, thrown, also⟩ | ⟨next, last, common, done, same, kept, holds⟩
      · rw [thrown, also]
        exact rfl
      · rw [done, same]
        exact ih kept holds

/-- A fresh buffer into which as many values are inserted as it has room for. -/
theorem fresh {items : List Entry} (fits : items.length ≤ size) :
    ∃ fresh, items.foldlM Ring.insert (Ring.new size) = .ok fresh ∧ fresh.Represents ⟨size, items, fits⟩ := by
  induction items using List.reverseRecOn with
  | nil => exact ⟨_, rfl, .new size⟩
  | append_singleton earlier last ih =>
      have room : earlier.length + 1 ≤ size := by simpa using fits
      have less : earlier.length ≤ size := by omega
      obtain ⟨ring, reached, represents⟩ := ih less
      have capacity : ring.maxSize = size := represents.capacity
      obtain ⟨next, after, inserted, abstract, holds⟩ := represents.insert (by omega) last
      refine ⟨next, ?_, ?_⟩
      · rw [List.foldlM_append, reached]
        change (ring.insert last >>= pure) = _
        rw [inserted]
        rfl
      · let buffer : CircularBuffer Entry := ⟨size, earlier, less⟩
        have space : buffer.size < buffer.maxSize := room
        obtain ⟨_, added⟩ := CircularBuffer.insert_room space last
        exact Except.ok.inj (abstract.symm.trans added) ▸ holds

theorem keeps_of {entries : List Entry} {bounded : entries.length ≤ size}
    (represents : ring.Represents buffer) (done : ring.setCapacity size = .ok after)
    (holds : after.Represents ⟨size, entries, bounded⟩) :
    ring.Keeps size ↔ entries = window size buffer.entries := by
  rw [Keeps, represents.makeVector]
  constructor
  · rintro ⟨same, fresh, again, _, vector, _⟩
    obtain rfl : after = same := Except.ok.inj (done.symm.trans again)
    exact holds.makeVector.symm.trans vector
  · rintro rfl
    obtain ⟨fresh, inserted, alike⟩ := Represents.fresh bounded
    exact ⟨after, fresh, done, holds.capacity, holds.makeVector, inserted, holds.behaves alike⟩

/-- The newest values stay just when the vector is straight. -/
theorem keeps_iff_straight (represents : ring.Represents buffer) : ring.Keeps size ↔ ring.Straight size := by
  by_cases fewer : size < ring.count
  · rw [Straight, if_pos fewer]
    by_cases straight : ring.head + (ring.count - size) < ring.maxSize
    · obtain ⟨after, done, holds⟩ := represents.shrink_ok fewer straight
      exact iff_of_true ((represents.keeps_of done holds).mpr rfl) straight
    · refine iff_of_false ?_ straight
      rintro ⟨after, fresh, done, _⟩
      rw [represents.shrink_error fewer (by omega)] at done
      cases done
  · rw [Straight, if_neg fewer]
    obtain ⟨after, done, holds⟩ := represents.grow_ok (Nat.not_lt.mp fewer)
    rw [represents.keeps_of done holds]
    have counted := represents.counted
    have all : window size buffer.entries = buffer.entries := by
      rw [window, Nat.sub_eq_zero_of_le (by omega), List.drop_zero]
    rw [all]
    constructor
    · intro same index less
      rw [represents.entry index less, ← same, List.getElem?_take, if_pos less]
    · intro same
      apply List.ext_getElem?
      intro index
      rw [List.getElem?_take]
      by_cases less : index < ring.count
      · rw [if_pos less, same index less, represents.entry index less]
      · rw [if_neg less, List.getElem?_eq_none (by omega)]

/-- A call that does not read outside of the vector leaves a buffer. -/
theorem call {action : Call Entry} (represents : ring.Represents buffer)
    (done : ring.call action = some after) : ∃ next, after.Represents next := by
  cases action with
  | insert value =>
      by_cases empty : ring.maxSize < 1
      · have thrown : ring.insert value = .error .zeroSize := by
          rw [Ring.insert, if_pos empty]
        rw [Ring.call, thrown] at done
        exact ⟨buffer, Option.some.inj done ▸ represents⟩
      · obtain ⟨next, common, inserted, _, holds⟩ := represents.insert (by omega) value
        rw [Ring.call, inserted] at done
        exact ⟨common, Option.some.inj done ▸ holds⟩
  | clear => exact ⟨buffer.clear, Option.some.inj done ▸ represents.clear⟩
  | setCapacity size =>
      by_cases fewer : size < ring.count
      · by_cases straight : ring.head + (ring.count - size) < ring.maxSize
        · obtain ⟨next, resized, holds⟩ := represents.shrink_ok fewer straight
          rw [Ring.call, resized] at done
          exact ⟨_, Option.some.inj done ▸ holds⟩
        · rw [Ring.call, represents.shrink_error fewer (by omega)] at done
          cases done
      · obtain ⟨next, resized, holds⟩ := represents.grow_ok (Nat.not_lt.mp fewer)
        rw [Ring.call, resized] at done
        exact ⟨_, Option.some.inj done ▸ holds⟩

theorem run {calls : List (Call Entry)} (represents : ring.Represents buffer)
    (done : calls.foldlM Ring.call ring = some after) : ∃ next, after.Represents next := by
  induction calls generalizing ring buffer with
  | nil => exact ⟨buffer, Option.some.inj done ▸ represents⟩
  | cons first rest ih =>
      rw [List.foldlM_cons] at done
      obtain ⟨middle, called, later⟩ := Option.bind_eq_some_iff.mp done
      obtain ⟨next, holds⟩ := represents.call called
      exact ih holds later

end Represents

/-- Of every buffer that calls have led to, `set_capacity` keeps the newest values just
when these lie in the vector from their first place on without going around its end. -/
theorem setCapacity_keeps_iff [Inhabited Entry] {capacity : Nat} {calls : List (Call Entry)}
    (reached : calls.foldlM call (Ring.new capacity) = some ring) (size : Nat) :
    ring.Keeps size ↔ ring.Straight size := by
  obtain ⟨buffer, represents⟩ := (Represents.new capacity).run reached
  exact represents.keeps_iff_straight

/-- A wrapped buffer that loses its oldest value. -/
theorem setCapacity_keeps_shrunk :
    [Call.insert 5, .insert 6, .insert 7, .insert 8].foldlM call (Ring.new 3) =
      some ⟨[8, 6, 7], 1, 3, 3⟩ ∧ (⟨[8, 6, 7], 1, 3, 3⟩ : Ring Nat).Keeps 2 :=
  ⟨rfl, (setCapacity_keeps_iff (rfl : [Call.insert 5, .insert 6, .insert 7, .insert 8].foldlM call
    (Ring.new 3) = _) 2).mpr (by decide)⟩

/-- A wrapped buffer with new room behind its vector. -/
theorem not_setCapacity_keeps : ¬ ∀ (capacity : Nat) (calls : List (Call Nat)) (ring : Ring Nat),
    calls.foldlM call (Ring.new capacity) = some ring → ∀ size, ring.Keeps size := by
  intro always
  obtain ⟨after, _, done, _, vector, _⟩ :=
    always 2 [.insert 5, .insert 6, .insert 7] ⟨[7, 6], 1, 2, 2⟩ rfl 3
  cases done
  exact absurd vector (by decide)

end Ring

end Geopm
