import Mathlib.Data.List.Basic

namespace Outcome

/-! Computations that end with a good value or with an error that is to be expected. -/

universe valueLevel

variable {Error : Type*} {Value Result : Type valueLevel} {expected : Error → Prop} {good : Value → Prop}
  {accepted : Result → Prop}

def Keeps (expected : Error → Prop) (good : Value → Prop) : Except Error Value → Prop
  | .ok value => good value
  | .error reason => expected reason

theorem Keeps.mono {other : Value → Prop} {outcome : Except Error Value} (keeps : Keeps expected good outcome)
    (implies : ∀ value, good value → other value) : Keeps expected other outcome := by
  cases outcome with
  | error reason => exact keeps
  | ok value => exact implies value keeps

theorem Keeps.bind {outcome : Except Error Value} {rest : Value → Except Error Result}
    (keeps : Keeps expected good outcome) (others : ∀ value, good value → Keeps expected accepted (rest value)) :
    Keeps expected accepted (outcome >>= rest) := by
  cases outcome with
  | error reason => exact keeps
  | ok value => exact others value keeps

/-- Any error is expected. -/
theorem keeps_of_ok {outcome : Except Error Value} (each : ∀ value, outcome = .ok value → good value) :
    Keeps (fun _ => True) good outcome := by
  cases outcome with
  | error reason => exact trivial
  | ok value => exact each value rfl

/-- What is known of the value is known of it where it is used. -/
theorem keeps_bind {outcome : Except Error Value} {rest : Value → Except Error Result}
    (failed : ∀ reason, outcome = .error reason → expected reason)
    (others : ∀ value, outcome = .ok value → Keeps expected accepted (rest value)) :
    Keeps expected accepted (outcome >>= rest) := by
  cases outcome with
  | error reason => exact failed reason rfl
  | ok value => exact others value rfl

/-- A loop over the numbers below a bound, upwards. -/
theorem keeps_range {invariant : Nat → Value → Prop} {body : Value → Nat → Except Error Value} {bound : Nat}
    {value : Value} (initial : invariant 0 value)
    (steps : ∀ index reached, index < bound → (List.range index).foldlM body value = .ok reached →
      invariant index reached → Keeps expected (invariant (index + 1)) (body reached index)) :
    Keeps expected (invariant bound) ((List.range bound).foldlM body value) := by
  induction bound with
  | zero => exact initial
  | succ bound ih =>
      have before := ih fun index reached below => steps index reached (Nat.lt_succ_of_lt below)
      rw [List.range_succ, List.foldlM_append]
      cases ran : (List.range bound).foldlM body value with
      | error reason =>
          rw [ran] at before
          exact before
      | ok reached =>
          rw [ran] at before
          have last := steps bound reached (Nat.lt_succ_self bound) ran before
          change Keeps expected _ ([bound].foldlM body reached)
          rw [List.foldlM_cons]
          exact last.bind fun _ holds => holds

/-- A loop over the numbers below a bound, downwards. -/
theorem keeps_range_reverse {invariant : Nat → Value → Prop} {body : Value → Nat → Except Error Value}
    {bound : Nat} {value : Value} (initial : invariant bound value)
    (steps : ∀ index value, index < bound → invariant (index + 1) value →
      Keeps expected (invariant index) (body value index)) :
    Keeps expected (invariant 0) ((List.range bound).reverse.foldlM body value) := by
  induction bound generalizing value with
  | zero => exact initial
  | succ bound ih =>
      rw [List.range_succ, List.reverse_append, List.reverse_singleton, List.singleton_append, List.foldlM_cons]
      refine (steps bound value (Nat.lt_succ_self bound) initial).bind fun reached holds => ?_
      exact ih holds fun index value below => steps index value (Nat.lt_succ_of_lt below)

/-- A loop whose every step keeps an invariant, or ends with an error that is to be expected. -/
theorem keeps_foldlM {Item : Type*} {body : Value → Item → Except Error Value} {items : List Item} {value : Value}
    (steps : ∀ value item, good value → Keeps expected good (body value item)) (initial : good value) :
    Keeps expected good (items.foldlM body value) := by
  induction items generalizing value with
  | nil => exact initial
  | cons item rest ih =>
      rw [List.foldlM_cons]
      exact (steps value item initial).bind fun _ holds => ih holds

/-- A loop that collects a result for each item. -/
theorem keeps_mapM {Item : Type valueLevel} {body : Item → Except Error Value} {items : List Item}
    (each : ∀ item ∈ items, Keeps expected good (body item)) :
    Keeps expected (fun values => ∀ value ∈ values, good value) (items.mapM body) := by
  induction items with
  | nil =>
      intro value member
      cases member
  | cons item rest ih =>
      rw [List.forall_mem_cons] at each
      rw [List.mapM_cons]
      refine each.1.bind fun value holds => (ih each.2).bind fun values others => ?_
      change ∀ other ∈ value :: values, good other
      rw [List.forall_mem_cons]
      exact ⟨holds, others⟩

/-- The error that a computation ends with. -/
def failure : Except Error Value → Option Error
  | .ok _ => none
  | .error reason => some reason

theorem error_of_failure {outcome : Except Error Value} {reason : Error} (failed : failure outcome = some reason) :
    outcome = .error reason := by
  cases outcome with
  | ok value => cases failed
  | error other =>
      cases failed
      rfl

instance decidableForallOk {outcome : Except Error Value} [∀ value, Decidable (good value)] :
    Decidable (∀ value, outcome = .ok value → good value) :=
  match outcome with
  | .error _ => isTrue fun _ failed => nomatch failed
  | .ok value => decidable_of_iff (good value)
      ⟨fun holds _ same => Except.ok.inj same ▸ holds, fun each => each value rfl⟩

/-- What holds of each result of a loop holds of all that it collects. -/
theorem forall_mapM {body : Value → Except Error Result} {items : List Value} {results : List Result}
    (done : items.mapM body = .ok results)
    (each : ∀ item ∈ items, ∀ result, body item = .ok result → accepted result) :
    ∀ result ∈ results, accepted result := by
  induction items generalizing results with
  | nil =>
      cases done
      intro result member
      cases member
  | cons item rest ih =>
      rw [List.mapM_cons] at done
      cases first : body item with
      | error reason =>
          rw [first] at done
          cases done
      | ok result =>
          cases others : rest.mapM body with
          | error reason =>
              rw [first, others] at done
              cases done
          | ok collected =>
              rw [first, others] at done
              cases done
              rw [List.forall_mem_cons]
              exact ⟨each item (by simp) result first,
                ih others fun later member => each later (List.mem_cons_of_mem item member)⟩

/-- A loop that finds a result for each item has found these. -/
theorem map_eq_of_mapM {Item Found : Type*} {find : Item → Option Found} {items : List Item} {results : List Found}
    (done : items.mapM find = some results) : items.map find = results.map some := by
  induction items generalizing results with
  | nil =>
      cases done
      rfl
  | cons item rest ih =>
      rw [List.mapM_cons] at done
      cases first : find item with
      | none =>
          rw [first] at done
          cases done
      | some result =>
          cases others : rest.mapM find with
          | none =>
              rw [first, others] at done
              cases done
          | some collected =>
              rw [first, others] at done
              cases done
              rw [List.map_cons, List.map_cons, first, ih others]

end Outcome
