import Mathlib.Data.List.Basic

namespace Transition

/-! Runs of a labelled transition system whose step is a total function.

A run is a list of actions.  What an environment promises about it is a
predicate on each action and the state in which the action is executed.
-/

variable {State Action : Type*} {step : State → Action → State}
  {permit : State → Action → Prop} {state : State} {actions left right : List Action}

/-- The state reached by executing `actions` in order. -/
def run (step : State → Action → State) (state : State) (actions : List Action) : State :=
  actions.foldl step state

/-- Every action of the run is permitted in the state in which it is executed. -/
def Permitted (step : State → Action → State) (permit : State → Action → Prop) :
    State → List Action → Prop
  | _, [] => True
  | state, action :: rest => permit state action ∧ Permitted step permit (step state action) rest

instance [∀ state action, Decidable (permit state action)] :
    ∀ state actions, Decidable (Permitted step permit state actions)
  | _, [] => inferInstanceAs (Decidable True)
  | _, _ :: rest => @instDecidableAnd _ _ _ (instDecidablePermitted _ rest)

@[simp] theorem run_nil : run step state [] = state := rfl

@[simp] theorem run_cons (action : Action) :
    run step state (action :: actions) = run step (step state action) actions := rfl

theorem run_append : run step state (left ++ right) = run step (run step state left) right :=
  List.foldl_append

theorem run_concat (action : Action) :
    run step state (actions ++ [action]) = step (run step state actions) action := by
  rw [run_append, run_cons, run_nil]

@[simp] theorem permitted_nil : Permitted step permit state [] := trivial

theorem permitted_append :
    Permitted step permit state (left ++ right) ↔
      Permitted step permit state left ∧ Permitted step permit (run step state left) right := by
  induction left generalizing state with
  | nil => simp
  | cons action rest ih => simp only [List.cons_append, Permitted, run_cons, ih, and_assoc]

theorem permitted_concat (action : Action) :
    Permitted step permit state (actions ++ [action]) ↔
      Permitted step permit state actions ∧ permit (run step state actions) action := by
  simp [permitted_append, Permitted]

/-- A condition on actions alone may be checked action by action. -/
theorem permitted_and {property : Action → Prop}
    (permitted : Permitted step permit state actions)
    (each : ∀ action ∈ actions, property action) :
    Permitted step (fun state action => permit state action ∧ property action) state actions := by
  induction actions generalizing state with
  | nil => trivial
  | cons action rest ih =>
      have others := fun later member => each later (List.mem_cons_of_mem action member)
      exact ⟨⟨permitted.1, each action (by simp)⟩, ih permitted.2 others⟩

/-- What one permitted step preserves, a whole permitted run preserves. -/
theorem invariant_run {invariant : State → Prop}
    (preserved : ∀ state action, invariant state → permit state action →
      invariant (step state action))
    (initial : invariant state) (permitted : Permitted step permit state actions) :
    invariant (run step state actions) := by
  induction actions generalizing state with
  | nil => exact initial
  | cons action rest ih => exact ih (preserved state action initial permitted.1) permitted.2

/-- Two conditions on runs agree when they agree step by step wherever the run
has met one of them so far. -/
theorem permitted_congr {invariant : State → Prop} {other : State → Action → Prop}
    (preserved : ∀ state action, invariant state → permit state action →
      invariant (step state action))
    (same : ∀ state action, invariant state → (permit state action ↔ other state action))
    (initial : invariant state) :
    Permitted step permit state actions ↔ Permitted step other state actions := by
  induction actions generalizing state with
  | nil => rfl
  | cons action rest ih =>
      simp only [Permitted, ← same state action initial]
      exact and_congr_right fun permitted => ih (preserved state action initial permitted)

/-- A computation that succeeds has succeeded so far. -/
theorem ok_of_bind {Error Value Result : Type*} {value : Except Error Value}
    {rest : Value → Except Error Result} {result : Result}
    (done : value.bind rest = .ok result) : ∃ middle, value = .ok middle ∧ rest middle = .ok result := by
  cases value with
  | error reason => simp [Except.bind] at done
  | ok middle => exact ⟨middle, rfl, done⟩

/-- A loop whose every step succeeds and keeps an invariant does so as well. -/
theorem ok_foldlM {Error Value Item : Type*} {invariant : Value → Prop}
    {body : Value → Item → Except Error Value} {items : List Item} {value : Value}
    (steps : ∀ value, ∀ item ∈ items, invariant value →
      ∃ next, body value item = .ok next ∧ invariant next) (initial : invariant value) :
    ∃ final, items.foldlM body value = .ok final ∧ invariant final := by
  induction items generalizing value with
  | nil => exact ⟨value, rfl, initial⟩
  | cons item rest ih =>
      obtain ⟨next, done, kept⟩ := steps value item (by simp) initial
      obtain ⟨final, others, holds⟩ :=
        ih (fun value other member => steps value other (by simp [member])) kept
      refine ⟨final, ?_, holds⟩
      rw [List.foldlM_cons, done]
      exact others

/-- A loop over consecutive numbers, with an invariant that says how far it has come. -/
theorem ok_range' {Error Value : Type*} {invariant : Nat → Value → Prop}
    {body : Value → Nat → Except Error Value} {first count : Nat} {value : Value}
    (steps : ∀ index value, first ≤ index → index < first + count → invariant index value →
      ∃ next, body value index = .ok next ∧ invariant (index + 1) next)
    (initial : invariant first value) :
    ∃ final, (List.range' first count).foldlM body value = .ok final ∧ invariant (first + count) final := by
  induction count generalizing first value with
  | zero => exact ⟨value, rfl, initial⟩
  | succ count ih =>
      obtain ⟨next, done, kept⟩ := steps first value (Nat.le_refl _) (by omega) initial
      obtain ⟨final, others, holds⟩ := ih (fun index value after before =>
        steps index value (by omega) (by omega)) kept
      refine ⟨final, ?_, by rwa [← Nat.add_right_comm, Nat.add_assoc] at holds⟩
      rw [List.range'_succ, List.foldlM_cons, done]
      exact others

end Transition
