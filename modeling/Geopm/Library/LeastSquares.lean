import Mathlib.Algebra.Order.Field.Basic
import Mathlib.Algebra.BigOperators.Group.List.Basic
import Mathlib.Tactic.FieldSimp
import Mathlib.Tactic.Linarith
import Mathlib.Tactic.Positivity
import Mathlib.Tactic.Ring

namespace LeastSquares

/-! Lines through points, with the least sum of squared errors. -/

variable {Scalar : Type*} [Field Scalar]

/-- The sum of a quantity over the points. -/
def total (quantity : Scalar × Scalar → Scalar) (points : List (Scalar × Scalar)) : Scalar :=
  (points.map quantity).sum

/-- The squared errors of a line. -/
def error (points : List (Scalar × Scalar)) (slope intercept : Scalar) : Scalar :=
  total (fun point => (point.2 - (intercept + slope * point.1)) ^ 2) points

/-- The corrected sum of squares. -/
def sxx (points : List (Scalar × Scalar)) : Scalar :=
  total (fun point => point.1 * point.1) points - total Prod.fst points * total Prod.fst points / points.length

/-- The corrected sum of products. -/
def sxy (points : List (Scalar × Scalar)) : Scalar :=
  total (fun point => point.1 * point.2) points - total Prod.fst points * total Prod.snd points / points.length

/-- The points as seen from another origin. -/
def shift (origin : Scalar × Scalar) (points : List (Scalar × Scalar)) : List (Scalar × Scalar) :=
  points.map fun point => (point.1 - origin.1, point.2 - origin.2)

variable {points : List (Scalar × Scalar)} {slope intercept : Scalar} {origin : Scalar × Scalar}

@[simp] theorem total_nil (quantity : Scalar × Scalar → Scalar) : total quantity [] = 0 := rfl

@[simp] theorem total_cons (quantity : Scalar × Scalar → Scalar) (point : Scalar × Scalar) :
    total quantity (point :: points) = quantity point + total quantity points := rfl

/-- The squared errors are a quadratic form in the slope and the intercept. -/
theorem error_eq : error points slope intercept =
    total (fun point => point.2 * point.2) points - 2 * intercept * total Prod.snd points -
        2 * slope * total (fun point => point.1 * point.2) points + points.length * intercept ^ 2 +
      2 * intercept * slope * total Prod.fst points + slope ^ 2 * total (fun point => point.1 * point.1) points := by
  rw [error]
  induction points with
  | nil => simp
  | cons point rest ih =>
      simp only [total_cons, ih, List.length_cons, Nat.cast_add, Nat.cast_one]
      ring

/-- Another origin is another intercept. -/
theorem error_shift : error (shift origin points) slope intercept =
    error points slope (intercept + origin.2 - slope * origin.1) := by
  rw [error, error]
  induction points with
  | nil => rfl
  | cons point rest ih =>
      simp only [shift, List.map_cons, total_cons] at ih ⊢
      rw [ih]
      ring

variable [LinearOrder Scalar] [IsStrictOrderedRing Scalar]

/-- The slope of a line whose squared errors are the least. -/
def IsSlope (points : List (Scalar × Scalar)) (slope : Scalar) : Prop :=
  ∃ intercept, ∀ otherSlope otherIntercept, error points slope intercept ≤ error points otherSlope otherIntercept

theorem total_sq_nonneg (quantity : Scalar × Scalar → Scalar) : 0 ≤ total (fun point => quantity point ^ 2) points := by
  induction points with
  | nil => exact le_refl 0
  | cons point rest ih => exact add_nonneg (sq_nonneg _) ih

theorem total_sq_pos (quantity : Scalar × Scalar → Scalar) {point : Scalar × Scalar} (member : point ∈ points)
    (nonzero : quantity point ≠ 0) : 0 < total (fun point => quantity point ^ 2) points := by
  induction points with
  | nil => cases member
  | cons head rest ih =>
      rw [total_cons]
      rcases List.mem_cons.mp member with rfl | later
      · exact add_pos_of_pos_of_nonneg (sq_pos_iff.mpr nonzero) (total_sq_nonneg quantity)
      · exact add_pos_of_nonneg_of_pos (sq_nonneg _) (ih later)

/-- The slope has a meaning as soon as two points are not above each other. -/
theorem sxx_pos (apart : ∃ first ∈ points, ∃ second ∈ points, first.1 ≠ second.1) : 0 < sxx points := by
  obtain ⟨first, firstMember, second, secondMember, apart⟩ := apart
  have some_points : (points.length : Scalar) ≠ 0 :=
    Nat.cast_ne_zero.mpr (List.length_pos_of_mem firstMember).ne'
  have deviations (center : Scalar) : total (fun point => (point.1 - center) ^ 2) points =
      total (fun point => point.1 * point.1) points - 2 * center * total Prod.fst points + points.length * center ^ 2 := by
    clear firstMember secondMember some_points
    induction points with
    | nil => simp
    | cons point rest ih =>
        simp only [total_cons, ih, List.length_cons, Nat.cast_add, Nat.cast_one]
        ring
  have corrected : sxx points = total (fun point => (point.1 - total Prod.fst points / points.length) ^ 2) points := by
    rw [deviations, sxx]
    field_simp
    ring
  rw [corrected]
  -- one of the two points is off the mean
  by_cases mean : first.1 - total Prod.fst points / points.length = 0
  · refine total_sq_pos (fun point => point.1 - total Prod.fst points / points.length) secondMember ?_
    intro other
    exact apart (by linarith)
  · exact total_sq_pos (fun point => point.1 - total Prod.fst points / points.length) firstMember mean

/-- How far the errors of a line are above the least ones. -/
theorem error_excess (some_points : (points.length : Scalar) ≠ 0) (spread : sxx points ≠ 0) :
    error points slope intercept =
      error points (sxy points / sxx points)
          ((total Prod.snd points - sxy points / sxx points * total Prod.fst points) / points.length) +
        points.length * (intercept - (total Prod.snd points - slope * total Prod.fst points) / points.length) ^ 2 +
        sxx points * (slope - sxy points / sxx points) ^ 2 := by
  have split : total (fun point => point.1 * point.1) points =
      sxx points + total Prod.fst points * total Prod.fst points / points.length := by
    rw [sxx]
    ring
  have product : total (fun point => point.1 * point.2) points =
      sxy points + total Prod.fst points * total Prod.snd points / points.length := by
    rw [sxy]
    ring
  rw [error_eq, error_eq, split, product]
  generalize sxx points = spreads at *
  field_simp
  ring

/-- There is exactly one slope of least squares. -/
theorem isSlope_iff (apart : ∃ first ∈ points, ∃ second ∈ points, first.1 ≠ second.1) :
    IsSlope points slope ↔ slope = sxy points / sxx points := by
  have spread := sxx_pos apart
  obtain ⟨first, member, _⟩ := apart
  have some_points : (0 : Scalar) < points.length := Nat.cast_pos.mpr (List.length_pos_of_mem member)
  have excess (slope intercept : Scalar) := @error_excess _ _ points slope intercept _ _ some_points.ne' spread.ne'
  constructor
  · intro least
    obtain ⟨intercept, least⟩ := least
    have best := least (sxy points / sxx points)
      ((total Prod.snd points - sxy points / sxx points * total Prod.fst points) / points.length)
    rw [excess slope intercept] at best
    by_contra other
    have away : 0 < sxx points * (slope - sxy points / sxx points) ^ 2 :=
      mul_pos spread (sq_pos_iff.mpr (sub_ne_zero.mpr other))
    have lower : 0 ≤ (points.length : Scalar) *
        (intercept - (total Prod.snd points - slope * total Prod.fst points) / points.length) ^ 2 :=
      mul_nonneg some_points.le (sq_nonneg _)
    linarith
  · intro same
    refine ⟨(total Prod.snd points - sxy points / sxx points * total Prod.fst points) / points.length,
      fun otherSlope otherIntercept => ?_⟩
    rw [same, excess otherSlope otherIntercept]
    have first := mul_nonneg some_points.le
      (sq_nonneg (otherIntercept - (total Prod.snd points - otherSlope * total Prod.fst points) / points.length))
    have second := mul_nonneg spread.le (sq_nonneg (otherSlope - sxy points / sxx points))
    linarith

omit [IsStrictOrderedRing Scalar] in
theorem isSlope_shift : IsSlope (shift origin points) slope ↔ IsSlope points slope := by
  constructor
  · intro least
    obtain ⟨intercept, least⟩ := least
    refine ⟨intercept + origin.2 - slope * origin.1, fun otherSlope otherIntercept => ?_⟩
    have compared := least otherSlope (otherIntercept - origin.2 + otherSlope * origin.1)
    rw [error_shift, error_shift] at compared
    ring_nf at compared ⊢
    exact compared
  · intro least
    obtain ⟨intercept, least⟩ := least
    refine ⟨intercept - origin.2 + slope * origin.1, fun otherSlope otherIntercept => ?_⟩
    have compared := least otherSlope (otherIntercept + origin.2 - otherSlope * origin.1)
    rw [error_shift, error_shift]
    ring_nf at compared ⊢
    exact compared

/-- Points on a line have its slope. -/
theorem isSlope_line (line : ∀ point ∈ points, point.2 = intercept + slope * point.1) : IsSlope points slope := by
  have none : error points slope intercept = 0 := by
    rw [error]
    induction points with
    | nil => rfl
    | cons point rest ih =>
        rw [List.forall_mem_cons] at line
        rw [total_cons, ih line.2, line.1, sub_self, zero_pow two_ne_zero, add_zero]
  exact ⟨intercept, fun otherSlope otherIntercept => none.trans_le (total_sq_nonneg _)⟩

end LeastSquares
