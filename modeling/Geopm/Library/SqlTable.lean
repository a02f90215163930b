import Mathlib.Data.List.Sort

namespace SqlTable

/-! Tables with a primary key, as lists of rows. -/

variable {Row Key : Type*} [DecidableEq Key]

/-- `INSERT`, which fails on a key that is taken. -/
def insert (primaryKey : Row → Key) (row : Row) (rows : List Row) : Option (List Row) :=
  if primaryKey row ∈ rows.map primaryKey then none else some (rows ++ [row])

/-- `DELETE` of the rows with a property. -/
def delete (wanted : Row → Prop) [DecidablePred wanted] (rows : List Row) : List Row :=
  rows.filter fun row => ¬ wanted row

/-- `SELECT` of the rows with a property, in an order. -/
def select (before : Row → Row → Prop) [DecidableRel before] (wanted : Row → Prop) [DecidablePred wanted]
    (rows : List Row) : List Row :=
  (rows.filter fun row => wanted row).insertionSort before

variable {primaryKey : Row → Key} {row : Row} {rows : List Row} {before : Row → Row → Prop} [DecidableRel before]
  {wanted other : Row → Prop} [DecidablePred wanted] [DecidablePred other]

theorem insert_new (absent : ∀ held ∈ rows, primaryKey held ≠ primaryKey row) :
    insert primaryKey row rows = some (rows ++ [row]) := by
  refine if_neg fun taken => ?_
  obtain ⟨held, member, same⟩ := List.mem_map.mp taken
  exact absent held member same

/-- Rows of another kind are not deleted. -/
theorem filter_delete_other (apart : ∀ row, other row → ¬ wanted row) :
    ((delete wanted rows).filter fun row => other row) = rows.filter fun row => other row := by
  rw [delete, List.filter_filter]
  refine List.filter_congr fun row _ => ?_
  by_cases held : other row
  · simp [held, apart row held]
  · simp [held]

theorem filter_delete_self : ((delete wanted rows).filter fun row => wanted row) = [] := by
  rw [delete, List.filter_filter]
  simp

/-- Rows that are held in the order of a selection. -/
theorem select_sorted (sorted : (rows.filter fun row => wanted row).Pairwise before) :
    select before wanted rows = rows.filter fun row => wanted row := sorted.insertionSort_eq

end SqlTable
