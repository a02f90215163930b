import Mathlib.Data.List.Basic

namespace Table

/-! Fixed-size tables whose first slots are in use.

A program keeps such a table with a counter: it writes at the counter to
append, and rewrites slots below the counter in place.  The list of the slots
in use is the semantic model.
-/

variable {Entry : Type} {size count index : Nat} {table : Vector Entry size}

/-- The slots in use when the first `count` of them are. -/
def used (table : Vector Entry size) (count : Nat) : List Entry := table.toList.take count

/-- Rewrite one slot in place. -/
def modify (table : Vector Entry size) (index : Nat) (bound : index < size)
    (change : Entry → Entry) : Vector Entry size :=
  table.set index (change table[index])

@[simp] theorem used_zero : used table 0 = [] := rfl

theorem length_used (bound : count ≤ size) : (used table count).length = count := by
  simp [used, bound]

theorem used_set_end (entry : Entry) (bound : count < size) :
    used (table.set count entry bound) (count + 1) = used table count ++ [entry] := by
  have within : count < table.toList.length := by simpa using bound
  simp only [used, Vector.toList_set]
  rw [List.take_add_one, List.getElem?_set_self within, List.take_set_of_le (Nat.le_refl _)]
  rfl

theorem used_modify (change : Entry → Entry) (bound : index < size) (inUse : index < count) :
    used (modify table index bound change) count = (used table count).modify index change := by
  apply List.ext_getElem?
  intro position
  simp only [used, modify, Vector.toList_set, List.getElem?_modify, List.getElem?_take,
    List.getElem?_set]
  by_cases same : index = position
  · subst same
    simp [inUse, bound]
  · simp [same]

theorem split_of_getElem? {entries : List Entry} {entry : Entry}
    (found : entries[index]? = some entry) :
    entries = entries.take index ++ entry :: entries.drop (index + 1) := by
  obtain ⟨bound, same⟩ := List.getElem?_eq_some_iff.mp found
  rw [← same, ← List.drop_eq_getElem_cons bound, List.take_append_drop]

theorem modify_of_getElem? {entries : List Entry} {entry : Entry}
    (found : entries[index]? = some entry) (change : Entry → Entry) :
    entries.modify index change = entries.take index ++ change entry :: entries.drop (index + 1) := by
  obtain ⟨bound, same⟩ := List.getElem?_eq_some_iff.mp found
  rw [List.modify_eq_take_cons_drop bound, same]

/-- An entry behind a position is at a later position. -/
theorem getElem?_of_mem_drop {entries : List Entry} {entry : Entry}
    (member : entry ∈ entries.drop (index + 1)) :
    ∃ position, index < position ∧ entries[position]? = some entry := by
  obtain ⟨offset, there⟩ := List.mem_iff_getElem?.mp member
  rw [List.getElem?_drop] at there
  exact ⟨index + 1 + offset, by omega, there⟩

theorem modify_concat (entries : List Entry) (entry : Entry) (change : Entry → Entry) :
    (entries ++ [entry]).modify entries.length change = entries ++ [change entry] := by
  rw [List.modify_eq_take_cons_drop (by simp)]
  simp

/-- Rewriting a slot keeps what the rewriting does not touch. -/
theorem map_modify {Part : Type} {entries : List Entry} {change : Entry → Entry}
    {part : Entry → Part} (kept : ∀ entry, part (change entry) = part entry) :
    (entries.modify index change).map part = entries.map part := by
  apply List.ext_getElem?
  intro position
  rw [List.getElem?_map, List.getElem?_map, List.getElem?_modify]
  cases entries[position]? with
  | none => rfl
  | some entry =>
      by_cases same : index = position
      · simp [same, kept]
      · simp [same]

/-- An entry after one slot was rewritten is an old one, or the rewritten one. -/
theorem mem_modify {entries : List Entry} {change : Entry → Entry} {entry : Entry}
    (member : entry ∈ entries.modify index change) :
    (∃ position, position ≠ index ∧ entries[position]? = some entry) ∨
      ∃ old, entries[index]? = some old ∧ entry = change old := by
  obtain ⟨position, found⟩ := List.mem_iff_getElem?.mp member
  rw [List.getElem?_modify] at found
  by_cases same : index = position
  · subst same
    simp only [if_true, Option.map_eq_map] at found
    obtain ⟨old, there, rfl⟩ := Option.map_eq_some_iff.mp found
    exact .inr ⟨old, there, rfl⟩
  · left
    exact ⟨position, fun reversed => same reversed.symm, by simpa [same] using found⟩

theorem getElem?_concat_iff {entries : List Entry} {entry other : Entry} :
    (entries ++ [entry])[index]? = some other ↔
      entries[index]? = some other ∨ (index = entries.length ∧ entry = other) := by
  rw [List.getElem?_append]
  split
  · rename_i inside
    constructor
    · exact .inl
    · rintro (found | ⟨same, _⟩)
      · exact found
      · omega
  · rename_i outside
    rw [List.getElem?_eq_none (by omega : entries.length ≤ index), List.getElem?_singleton]
    by_cases same : index = entries.length
    · simp [same]
    · have beyond : ¬ index - entries.length = 0 := by omega
      simp [same, beyond]

theorem forall_mem_modify {property : Entry → Prop} {entries : List Entry}
    {change : Entry → Entry} (all : ∀ entry ∈ entries, property entry)
    (kept : ∀ entry, property entry → property (change entry)) :
    ∀ entry ∈ entries.modify index change, property entry := by
  intro entry member
  obtain ⟨position, found⟩ := List.mem_iff_getElem?.mp member
  rw [List.getElem?_modify] at found
  cases stored : entries[position]? with
  | none => simp [stored] at found
  | some old =>
      have holds := all old (List.mem_of_getElem? stored)
      by_cases same : index = position
      · simp only [stored, same, if_true, Option.map_eq_map, Option.map_some,
          Option.some.injEq] at found
        exact found ▸ kept old holds
      · simp only [stored, same, if_false, Option.map_eq_map, Option.map_some,
          Option.some.injEq] at found
        exact found ▸ holds

/-- Two changes of a table, slot by slot, are one. -/
theorem forall₂_trans {relation : Entry → Entry → Prop} {first second third : List Entry}
    (trans : ∀ one two three, relation one two → relation two three → relation one three)
    (before : List.Forall₂ relation first second) (after : List.Forall₂ relation second third) :
    List.Forall₂ relation first third := by
  induction before generalizing third with
  | nil => exact after
  | cons head _ ih =>
      cases after with
      | cons next rest => exact .cons (trans _ _ _ head next) (ih rest)

theorem getElem?_of_forall₂ {relation : Entry → Entry → Prop} {before after : List Entry}
    {entry : Entry} (related : List.Forall₂ relation before after) (found : after[index]? = some entry) :
    ∃ old, before[index]? = some old ∧ relation old entry := by
  induction related generalizing index with
  | nil => simp at found
  | cons head _ ih =>
      cases index with
      | zero => exact ⟨_, rfl, Option.some.inj found ▸ head⟩
      | succ index => exact ih found

end Table
