import Mathlib.Data.List.Induction
import Mathlib.Data.List.Nodup

/-! Maps as lists of entries with distinct keys, the last assigned first. -/

namespace Assoc

variable {Key Value Other : Type*} [DecidableEq Key]

/-- The entry of a key is replaced, or made. -/
def assign (key : Key) (value : Value) (entries : List (Key × Value)) : List (Key × Value) :=
  (key, value) :: entries.filter fun entry => entry.1 ≠ key

/-- The value of a key. -/
def lookup (key : Key) (entries : List (Key × Value)) : Option Value :=
  (entries.find? fun entry => entry.1 = key).map Prod.snd

/-- The entry of a key is removed. -/
def erase (key : Key) (entries : List (Key × Value)) : List (Key × Value) :=
  entries.filter fun entry => entry.1 ≠ key

/-- The value of a key is changed. -/
def adjust (key : Key) (change : Value → Value) (entries : List (Key × Value)) : List (Key × Value) :=
  entries.map fun entry => if entry.1 = key then (entry.1, change entry.2) else entry

/-- The entry of a key is replaced, or made in the order of the keys. -/
def place [LT Key] [DecidableLT Key] (key : Key) (value : Value) : List (Key × Value) → List (Key × Value)
  | [] => [(key, value)]
  | entry :: rest =>
      if key < entry.1 then (key, value) :: entry :: rest
      else if key = entry.1 then (key, value) :: rest
      else entry :: place key value rest

/-- Assignments, one after the other. -/
def assignAll (assignments entries : List (Key × Value)) : List (Key × Value) :=
  assignments.foldl (fun entries assignment => assign assignment.1 assignment.2 entries) entries

/-- An assignment whose key is not assigned again. -/
def Kept (assignments : List (Key × Value)) (entry : Key × Value) : Prop :=
  ∃ before after, assignments = before ++ entry :: after ∧ ∀ later ∈ after, later.1 ≠ entry.1

variable {assignments more entries : List (Key × Value)} {entry assignment : Key × Value} {key : Key}
  {value : Value}

theorem mem_assign : entry ∈ assign key value entries ↔
    entry = (key, value) ∨ entry ∈ entries ∧ entry.1 ≠ key := by
  rw [assign, List.mem_cons, List.mem_filter, decide_eq_true_iff]

theorem mem_of_lookup (found : lookup key entries = some value) : (key, value) ∈ entries := by
  obtain ⟨other, known, rfl⟩ := Option.map_eq_some_iff.mp found
  have same := List.find?_some known
  rw [decide_eq_true_iff] at same
  rw [← same]
  exact List.mem_of_find?_eq_some known

theorem lookup_eq_none (absent : key ∉ entries.map Prod.fst) : lookup key entries = none := by
  rw [lookup, Option.map_eq_none_iff, List.find?_eq_none]
  intro entry member same
  exact absent (List.mem_map.mpr ⟨entry, member, of_decide_eq_true same⟩)

/-- Where the keys are distinct, an entry is the one that is found. -/
theorem lookup_of_mem (distinct : (entries.map Prod.fst).Nodup) (member : entry ∈ entries) :
    lookup entry.1 entries = some entry.2 := by
  induction entries with
  | nil => cases member
  | cons head rest ih =>
      rw [List.map_cons, List.nodup_cons] at distinct
      rcases List.mem_cons.mp member with rfl | later
      · simp [lookup]
      · have different : ¬ head.1 = entry.1 := by
          intro same
          exact distinct.1 (List.mem_map.mpr ⟨entry, later, same.symm⟩)
        rw [lookup, List.find?_cons_of_neg (by simpa using different), ← lookup, ih distinct.2 later]

/-- A map of all the values of a function. -/
theorem lookup_tabulate {keys : List Key} (valueOf : Key → Value) (member : key ∈ keys) :
    lookup key (keys.map fun key => (key, valueOf key)) = some (valueOf key) := by
  induction keys with
  | nil => cases member
  | cons head rest ih =>
      by_cases same : head = key
      · simp [lookup, same]
      · have later : key ∈ rest := (List.mem_cons.mp member).resolve_left (Ne.symm same)
        rw [List.map_cons, lookup, List.find?_cons_of_neg (by simpa using same), ← lookup, ih later]

theorem adjust_tabulate {keys : List Key} {change : Value → Value} (valueOf : Key → Value) :
    adjust key change (keys.map fun key => (key, valueOf key)) =
      keys.map fun other => (other, if other = key then change (valueOf other) else valueOf other) := by
  rw [adjust, List.map_map]
  apply List.map_congr_left
  intro other _
  simp only [Function.comp]
  split <;> rfl

@[simp] theorem lookup_assign : lookup key (assign key value entries) = some value := by
  simp [lookup, assign]

/-- A change is one of a single key. -/
theorem lookup_adjust {other : Key} {change : Value → Value} : lookup other (adjust key change entries) =
    if other = key then (lookup other entries).map change else lookup other entries := by
  induction entries with
  | nil => simp [lookup, adjust]
  | cons head rest ih =>
      by_cases found : head.1 = other
      case pos =>
          by_cases same : other = key
          · simp [lookup, adjust, found, same]
          · simp [lookup, adjust, found, same]
      case neg =>
          rw [adjust, List.map_cons, ← adjust, lookup, List.find?_cons_of_neg, ← lookup, ih, lookup, lookup,
            List.find?_cons_of_neg (by simpa using found)]
          split <;> simpa using found

/-- What holds of each entry of a map holds of each after another is made. -/
theorem forall_place [LT Key] [DecidableLT Key] {holds : Key × Value → Prop} (new : holds (key, value))
    (each : ∀ entry ∈ entries, holds entry) : ∀ entry ∈ place key value entries, holds entry := by
  induction entries with
  | nil => simpa [place] using new
  | cons head rest ih =>
      rw [List.forall_mem_cons] at each
      rw [place]
      split
      · simp only [List.forall_mem_cons]
        exact ⟨new, each⟩
      · split
        · rw [List.forall_mem_cons]
          exact ⟨new, each.2⟩
        · rw [List.forall_mem_cons]
          exact ⟨each.1, ih each.2⟩

@[simp] theorem lookup_erase : lookup key (erase key entries) = none := by
  apply lookup_eq_none
  intro member
  obtain ⟨entry, kept, same⟩ := List.mem_map.mp member
  exact of_decide_eq_true (List.mem_filter.mp kept).2 same

theorem lookup_erase_ne {other : Key} (different : other ≠ key) :
    lookup other (erase key entries) = lookup other entries := by
  rw [erase, lookup, List.find?_filter, lookup]
  congr 2
  ext entry
  by_cases same : entry.1 = other
  · simp [same, different]
  · simp [same]

theorem lookup_assign_ne {other : Key} (different : other ≠ key) :
    lookup other (assign key value entries) = lookup other entries := by
  rw [lookup, assign, List.find?_cons_of_neg (by simpa using different.symm), ← lookup]
  exact lookup_erase_ne different

theorem nodup_assign (distinct : (entries.map Prod.fst).Nodup) :
    ((assign key value entries).map Prod.fst).Nodup := by
  rw [assign, List.map_cons, List.nodup_cons]
  constructor
  · intro member
    obtain ⟨other, known, same⟩ := List.mem_map.mp member
    have different := (List.mem_filter.mp known).2
    rw [decide_eq_true_iff] at different
    exact different same
  · exact distinct.sublist (List.filter_sublist.map _)

theorem assignAll_append : assignAll (assignments ++ more) entries =
    assignAll more (assignAll assignments entries) := List.foldl_append

theorem nodup_assignAll (distinct : (entries.map Prod.fst).Nodup) :
    ((assignAll assignments entries).map Prod.fst).Nodup := by
  induction assignments generalizing entries with
  | nil => exact distinct
  | cons head rest ih => exact ih (nodup_assign distinct)

theorem map_assign (change : Value → Other) :
    (assign key value entries).map (fun entry => (entry.1, change entry.2)) =
      assign key (change value) (entries.map fun entry => (entry.1, change entry.2)) := by
  rw [assign, assign, List.map_cons, List.filter_map]
  rfl

omit [DecidableEq Key] in
theorem kept_concat : Kept (assignments ++ [assignment]) entry ↔
    entry = assignment ∨ Kept assignments entry ∧ entry.1 ≠ assignment.1 := by
  constructor
  · rintro ⟨before, after, parts, unassigned⟩
    rcases List.eq_nil_or_concat after with rfl | ⟨init, last, rfl⟩
    · exact .inl (List.cons.inj (List.append_inj' parts rfl).2).1.symm
    · rw [List.concat_eq_append, ← List.cons_append, ← List.append_assoc] at parts
      obtain ⟨same, last_eq⟩ := List.append_inj' parts rfl
      cases last_eq
      rw [List.concat_eq_append] at unassigned
      refine .inr ⟨⟨before, init, same, fun later member => unassigned later (by simp [member])⟩, ?_⟩
      exact (unassigned assignment (by simp)).symm
  · rintro (rfl | ⟨⟨before, after, rfl, unassigned⟩, different⟩)
    · exact ⟨assignments, [], rfl, by simp⟩
    · refine ⟨before, after ++ [assignment], by simp, ?_⟩
      intro later member
      rcases List.mem_append.mp member with known | last
      · exact unassigned later known
      · rw [List.mem_singleton.mp last]
        exact different.symm

omit [DecidableEq Key] in
theorem kept_map {Item : Type*} {items : List Item} {entryOf : Item → Key × Value} :
    Kept (items.map entryOf) entry ↔ ∃ before item after, items = before ++ item :: after ∧
      entryOf item = entry ∧ ∀ later ∈ after, (entryOf later).1 ≠ entry.1 := by
  constructor
  · rintro ⟨before, after, parts, unassigned⟩
    obtain ⟨left, right, rfl, rfl, mapped⟩ := List.map_eq_append_iff.mp parts
    obtain ⟨item, rest, rfl, rfl, rfl⟩ := List.map_eq_cons_iff.mp mapped
    exact ⟨left, item, rest, rfl, rfl, fun later member => unassigned _ (List.mem_map_of_mem member)⟩
  · rintro ⟨before, item, after, rfl, rfl, unassigned⟩
    refine ⟨before.map entryOf, after.map entryOf, by rw [List.map_append, List.map_cons], ?_⟩
    intro other member
    obtain ⟨later, known, rfl⟩ := List.mem_map.mp member
    exact unassigned later known

omit [DecidableEq Key] in
theorem Kept.mem (kept : Kept assignments entry) : entry ∈ assignments := by
  obtain ⟨before, after, rfl, _⟩ := kept
  exact List.mem_append_right before List.mem_cons_self

/-- The entries of a map that was empty are the assignments that have not been replaced. -/
theorem mem_assignAll : entry ∈ assignAll assignments [] ↔ Kept assignments entry := by
  induction assignments using List.reverseRecOn with
  | nil =>
      rw [assignAll, List.foldl_nil]
      constructor
      · exact fun member => absurd member List.not_mem_nil
      · rintro ⟨before, after, parts, _⟩
        simp at parts
  | append_singleton earlier last ih =>
      rw [assignAll_append, kept_concat, ← ih]
      exact mem_assign

/-- Every key that was assigned is there. -/
theorem key_mem_assignAll : key ∈ (assignAll assignments entries).map Prod.fst ↔
    key ∈ assignments.map Prod.fst ∨ key ∈ entries.map Prod.fst := by
  induction assignments generalizing entries with
  | nil => simp [assignAll]
  | cons head rest ih =>
      have next : key ∈ (assign head.1 head.2 entries).map Prod.fst ↔
          key = head.1 ∨ key ∈ entries.map Prod.fst := by
        simp only [List.mem_map, mem_assign]
        constructor
        · rintro ⟨other, rfl | ⟨known, _⟩, rfl⟩
          · exact .inl rfl
          · exact .inr ⟨other, known, rfl⟩
        · rintro (rfl | ⟨other, known, rfl⟩)
          · exact ⟨head, .inl rfl, rfl⟩
          · by_cases same : other.1 = head.1
            · exact ⟨head, .inl rfl, same.symm⟩
            · exact ⟨other, .inr ⟨known, same⟩, rfl⟩
      rw [assignAll, List.foldl_cons, ← assignAll, ih, next, List.map_cons, List.mem_cons]
      exact or_left_comm.trans (or_assoc.symm.trans Iff.rfl)

/-- Assignments to distinct keys come before what was there. -/
theorem lookup_assignAll (distinct : (assignments.map Prod.fst).Nodup) :
    lookup key (assignAll assignments entries) = (lookup key assignments).or (lookup key entries) := by
  induction assignments generalizing entries with
  | nil => rfl
  | cons head rest ih =>
      rw [List.map_cons, List.nodup_cons] at distinct
      rw [assignAll, List.foldl_cons, ← assignAll, ih distinct.2]
      by_cases same : head.1 = key
      · rw [← same, lookup_eq_none distinct.1, lookup_assign]
        simp [lookup]
      · have later : lookup key (head :: rest) = lookup key rest := by
          rw [lookup, List.find?_cons_of_neg (by simpa using same), ← lookup]
        rw [lookup_assign_ne (Ne.symm same), later]

end Assoc
