import Mathlib.Algebra.Order.Field.Rat
import Mathlib.Algebra.BigOperators.Ring.List
import Mathlib.Algebra.Order.BigOperators.Group.List
import Mathlib.Tactic.FieldSimp
import Mathlib.Tactic.Linarith
import Mathlib.Tactic.Ring

/-! How an amount is shared among rooms: evenly up to the least room, and what is left in proportion to the rooms
that are left. -/

namespace Sharing

variable {bound amount room : ℚ} {rooms : List ℚ}

/-- The least of the rooms, or the bound. -/
def least (bound : ℚ) (rooms : List ℚ) : ℚ := rooms.foldl min bound

/-- The part that each room gets first. -/
def even (bound amount : ℚ) (rooms : List ℚ) : ℚ :=
  if amount / rooms.length < least bound rooms then amount / rooms.length else least bound rooms

/-- What the even parts leave. -/
def rest (bound amount : ℚ) (rooms : List ℚ) : ℚ :=
  if amount / rooms.length < least bound rooms then 0 else amount - least bound rooms * rooms.length

/-- The room that the even parts leave. -/
def left (bound amount : ℚ) (rooms : List ℚ) : ℚ := (rooms.map fun room => room - even bound amount rooms).sum

/-- The part of a room in what the even parts leave. -/
def factor (bound amount : ℚ) (rooms : List ℚ) (room : ℚ) : ℚ :=
  if left bound amount rooms = 0 then 1 else (room - even bound amount rooms) / left bound amount rooms

def share (bound amount : ℚ) (rooms : List ℚ) (room : ℚ) : ℚ :=
  even bound amount rooms + factor bound amount rooms room * rest bound amount rooms

theorem least_le_bound : least bound rooms ≤ bound := by
  induction rooms generalizing bound with
  | nil => exact le_refl bound
  | cons head tail ih => exact ih.trans (min_le_left bound head)

theorem least_le (member : room ∈ rooms) : least bound rooms ≤ room := by
  induction rooms generalizing bound with
  | nil => cases member
  | cons head tail ih =>
      cases member with
      | head => exact (@least_le_bound (min bound room) tail).trans (min_le_right bound room)
      | tail _ later => exact ih later

theorem le_least {lower : ℚ} (below : lower ≤ bound) (each : ∀ room ∈ rooms, lower ≤ room) :
    lower ≤ least bound rooms := by
  induction rooms generalizing bound with
  | nil => exact below
  | cons head tail ih =>
      rw [List.forall_mem_cons] at each
      exact ih (le_min below each.1) each.2

theorem even_le (member : room ∈ rooms) : even bound amount rooms ≤ room := by
  rw [even]
  split
  · next less => exact less.le.trans (least_le member)
  · exact least_le member

theorem left_eq : left bound amount rooms = rooms.sum - rooms.length * even bound amount rooms := by
  rw [left]
  generalize even bound amount rooms = part
  induction rooms with
  | nil => simp
  | cons head tail ih =>
      rw [List.map_cons, List.sum_cons, ih, List.sum_cons, List.length_cons]
      push_cast
      ring

section Fits

variable (some_room : rooms ≠ []) (positive : 0 ≤ bound) (each : ∀ room ∈ rooms, 0 ≤ room) (nonneg : 0 ≤ amount)
  (fits : amount ≤ rooms.sum)

include some_room in
/-- The even parts and what they leave are the amount. -/
theorem even_add_rest : rooms.length * even bound amount rooms + rest bound amount rooms = amount := by
  have length : (rooms.length : ℚ) ≠ 0 := by
    rw [Nat.cast_ne_zero]
    exact mt List.length_eq_zero_iff.mp some_room
  rw [even, rest]
  split
  · field_simp
    ring
  · ring

include positive each nonneg in
theorem even_nonneg : 0 ≤ even bound amount rooms := by
  rw [even]
  split
  · exact div_nonneg nonneg (Nat.cast_nonneg _)
  · exact le_least positive each

include some_room in
theorem rest_nonneg : 0 ≤ rest bound amount rooms := by
  have length : (0 : ℚ) < rooms.length := by
    rw [Nat.cast_pos]
    exact List.length_pos_iff.mpr some_room
  rw [rest]
  split
  · exact le_refl 0
  · next enough =>
      rw [not_lt, le_div_iff₀ length] at enough
      exact sub_nonneg.mpr enough

theorem left_nonneg : 0 ≤ left bound amount rooms := by
  apply List.sum_nonneg
  intro part member
  obtain ⟨room, among, rfl⟩ := List.mem_map.mp member
  exact sub_nonneg.mpr (even_le among)

include some_room fits in
/-- There is room for what the even parts leave. -/
theorem rest_le_left : rest bound amount rooms ≤ left bound amount rooms := by
  have whole := @even_add_rest bound amount rooms some_room
  rw [left_eq]
  linarith

include some_room fits in
/-- The parts in what the even parts leave are all of it. -/
theorem sum_factor : (rooms.map fun room => factor bound amount rooms room * rest bound amount rooms).sum =
    rest bound amount rooms := by
  have room_left := @rest_le_left bound amount rooms some_room fits
  have some_left := @rest_nonneg bound amount rooms some_room
  rw [List.sum_map_mul_right]
  by_cases full : left bound amount rooms = 0
  · have nothing : rest bound amount rooms = 0 := le_antisymm (room_left.trans full.le) some_left
    rw [nothing, mul_zero]
  · have parts : (rooms.map fun room => factor bound amount rooms room).sum = 1 := by
      simp only [factor, if_neg full, div_eq_mul_inv]
      rw [List.sum_map_mul_right]
      exact mul_inv_cancel₀ full
    rw [parts, one_mul]

include some_room fits in
/-- The shares are all of the amount. -/
theorem sum_share : (rooms.map (share bound amount rooms)).sum = amount := by
  have whole := @even_add_rest bound amount rooms some_room
  have parts := @sum_factor bound amount rooms some_room fits
  have split : (rooms.map (share bound amount rooms)).sum = rooms.length * even bound amount rooms +
      (rooms.map fun room => factor bound amount rooms room * rest bound amount rooms).sum := by
    change (rooms.map fun room => even bound amount rooms + factor bound amount rooms room * rest bound amount rooms).sum =
      _
    rw [List.sum_map_add, List.map_const', List.sum_replicate, nsmul_eq_mul]
  rw [split, parts, whole]

include some_room positive each nonneg in
theorem share_nonneg (member : room ∈ rooms) : 0 ≤ share bound amount rooms room := by
  have factor_nonneg : 0 ≤ factor bound amount rooms room := by
    rw [factor]
    split
    · exact zero_le_one
    · exact div_nonneg (sub_nonneg.mpr (even_le member)) left_nonneg
  exact add_nonneg (even_nonneg positive each nonneg) (mul_nonneg factor_nonneg (rest_nonneg some_room))

include some_room fits in
/-- No share is more than its room. -/
theorem share_le (member : room ∈ rooms) : share bound amount rooms room ≤ room := by
  have room_left := @rest_le_left bound amount rooms some_room fits
  have some_left := @rest_nonneg bound amount rooms some_room
  have first := @even_le bound amount room rooms member
  by_cases full : left bound amount rooms = 0
  · have nothing : rest bound amount rooms = 0 := le_antisymm (room_left.trans full.le) some_left
    rw [share, nothing, mul_zero, add_zero]
    exact first
  · have positive_left : 0 < left bound amount rooms := lt_of_le_of_ne left_nonneg (Ne.symm full)
    have part : factor bound amount rooms room * rest bound amount rooms ≤ room - even bound amount rooms := by
      rw [factor, if_neg full, div_mul_eq_mul_div, div_le_iff₀ positive_left]
      exact mul_le_mul_of_nonneg_left room_left (sub_nonneg.mpr first)
    rw [share]
    linarith

end Fits

end Sharing
