import Mathlib.Data.Rat.Defs
import Mathlib.Algebra.Order.Field.Rat
import Mathlib.Data.List.Sort

/-- A rational number, or none: exact arithmetic in which an operand that is not a
number makes the result one that is not. -/
inductive Number where
  | nan
  | value (rational : ℚ)
deriving Repr, DecidableEq

namespace Number

def lift (operation : ℚ → ℚ → ℚ) : Number → Number → Number
  | .value left, .value right => .value (operation left right)
  | _, _ => .nan

instance : Add Number := ⟨lift (· + ·)⟩

instance : Sub Number := ⟨lift (· - ·)⟩

instance : Mul Number := ⟨lift (· * ·)⟩

instance : Div Number := ⟨lift (· / ·)⟩

/-- Nothing compares with what is not a number, not even that itself. -/
def compares (relation : ℚ → ℚ → Bool) : Number → Number → Bool
  | .value left, .value right => relation left right
  | _, _ => false

def eq : Number → Number → Bool := compares fun left right => decide (left = right)

def lt : Number → Number → Bool := compares fun left right => decide (left < right)

def isNan (number : Number) : Bool := !number.eq number

/-- The number, or another where there is none. -/
def getD : Number → ℚ → ℚ
  | .nan, other => other
  | .value rational, _ => rational

/-- The second number where it is less, else the first. -/
def least (first second : Number) : Number := if second.lt first then second else first

/-- The second number where it is more, else the first. -/
def most (first second : Number) : Number := if first.lt second then second else first

def rationals (numbers : List Number) : List ℚ :=
  numbers.filterMap fun number => match number with
    | .nan => none
    | .value rational => some rational

variable {left right : ℚ} {number : Number}

@[simp] theorem value_add : value left + value right = value (left + right) := rfl

@[simp] theorem value_sub : value left - value right = value (left - right) := rfl

@[simp] theorem value_mul : value left * value right = value (left * right) := rfl

@[simp] theorem value_div : value left / value right = value (left / right) := rfl

@[simp] theorem eq_value : (value left).eq (value right) = decide (left = right) := rfl

@[simp] theorem lt_value : (value left).lt (value right) = decide (left < right) := rfl

@[simp] theorem nan_eq : nan.eq number = false := rfl

@[simp] theorem eq_nan : number.eq nan = false := by
  cases number <;> rfl

theorem of_eq {left right : Number} (same : left.eq right = true) : left = right := by
  cases left with
  | nan => cases same
  | value first =>
      cases right with
      | nan => cases same
      | value second => exact congrArg value (of_decide_eq_true same)

@[simp] theorem nan_lt : nan.lt number = false := rfl

@[simp] theorem lt_nan : number.lt nan = false := by
  cases number <;> rfl

@[simp] theorem isNan_nan : nan.isNan = true := rfl

@[simp] theorem isNan_value : (value left).isNan = false := by
  simp [isNan]

theorem nan_of_isNan {number : Number} (missing : number.isNan = true) : number = nan := by
  cases number with
  | nan => rfl
  | value rational =>
      rw [isNan_value] at missing
      cases missing

@[simp] theorem least_value : (value left).least (value right) = value (min left right) := by
  by_cases less : right < left
  · simp [least, less, less.le]
  · simp [least, less, not_lt.mp less]

@[simp] theorem most_value : (value left).most (value right) = value (max left right) := by
  by_cases less : left < right
  · simp [most, less, less.le]
  · simp [most, less, not_lt.mp less]

instance : Zero Number := ⟨.value 0⟩

theorem zero_eq : (0 : Number) = value 0 := rfl

/-- What is not a number absorbs in every sum. -/
instance : AddCommMonoid Number where
  add_assoc first second third := by
    cases first <;> cases second <;> cases third <;> first | rfl | exact congrArg value (add_assoc _ _ _)
  zero_add number := by
    cases number
    · rfl
    · exact congrArg value (zero_add _)
  add_zero number := by
    cases number
    · rfl
    · exact congrArg value (add_zero _)
  add_comm first second := by
    cases first <;> cases second <;> first | rfl | exact congrArg value (add_comm _ _)
  nsmul := nsmulRec

theorem mem_rationals {numbers : List Number} {rational : ℚ} :
    rational ∈ rationals numbers ↔ .value rational ∈ numbers := by
  rw [rationals, List.mem_filterMap]
  constructor
  · intro found
    obtain ⟨number, member, same⟩ := found
    cases number with
    | nan => cases same
    | value other =>
        cases same
        exact member
  · intro member
    exact ⟨_, member, rfl⟩

theorem rationals_value (values : List ℚ) : rationals (values.map value) = values := by
  induction values with
  | nil => rfl
  | cons head rest ih =>
      simp only [rationals] at ih
      simp [rationals, ih]

end Number
