namespace Stateful

/-! Computations that change a state and may throw, where a throw keeps the
changes made before it. -/

variable {Error State Value Result : Type} {before after : State} {reason : Error}

@[simp] theorem run_throw (reason : Error) (state : State) :
    EStateM.run (throw reason : EStateM Error State Value) state = .error reason state := rfl

@[simp] theorem run_ite (condition : Prop) [Decidable condition]
    (first second : EStateM Error State Value) (state : State) :
    (if condition then first else second).run state =
      if condition then first.run state else second.run state := by
  split <;> rfl

@[simp] theorem run_map (change : Value → Result) (computation : EStateM Error State Value)
    (state : State) : (change <$> computation).run state =
      match computation.run state with
      | .ok value next => .ok (change value) next
      | .error reason next => .error reason next := rfl

/-- The computation does not throw. -/
def returns (computation : EStateM Error State Value) (state : State) : Bool :=
  match computation.run state with
  | .ok _ _ => true
  | .error _ _ => false

theorem ok_of_returns {computation : EStateM Error State Value}
    (succeeds : returns computation before = true) :
    ∃ value after, computation.run before = .ok value after := by
  unfold returns at succeeds
  split at succeeds
  · exact ⟨_, _, by assumption⟩
  · simp at succeeds

theorem value_of_ok {computation : EStateM Error State Value} {value : Value}
    (done : computation.run before = .ok value after) : computation.run' before = some value := by
  change (match computation.run before with
    | .ok value _ => some value
    | .error _ _ => none) = some value
  rw [done]

theorem value_of_error {computation : EStateM Error State Value}
    (thrown : computation.run before = .error reason after) : computation.run' before = none := by
  change (match computation.run before with
    | .ok value _ => some value
    | .error _ _ => none) = none
  rw [thrown]

/-- The state that a computation leaves, whether it returns or throws. -/
def leaves (computation : EStateM Error State Value) (state : State) : State :=
  match computation.run state with
  | .ok _ next => next
  | .error _ next => next

theorem leaves_of_ok {computation : EStateM Error State Value} {value : Value}
    (done : computation.run before = .ok value after) : leaves computation before = after := by
  rw [leaves, done]

theorem leaves_of_error {computation : EStateM Error State Value}
    (thrown : computation.run before = .error reason after) :
    leaves computation before = after := by
  rw [leaves, thrown]

/-- What holds after the first part holds after a throw of it; after a return
the rest decides. -/
theorem leaves_bind (property : State → Prop) {first : EStateM Error State Value}
    {rest : Value → EStateM Error State Result} (kept : property (leaves first before))
    (later : ∀ value middle, first.run before = .ok value middle → property middle →
      property (leaves (rest value) middle)) : property (leaves (first >>= rest) before) := by
  cases ran : first.run before with
  | error reason middle =>
      rw [leaves_of_error ran] at kept
      rwa [leaves, EStateM.run_bind, ran]
  | ok value middle =>
      rw [leaves_of_ok ran] at kept
      have reached := later value middle ran kept
      rw [leaves] at reached
      rwa [leaves, EStateM.run_bind, ran]

/-- After a first part that returns, the rest decides. -/
theorem run_bind_ok {first : EStateM Error State Value} {rest : Value → EStateM Error State Result}
    {value : Value} {middle : State} (done : first.run before = .ok value middle) :
    (first >>= rest).run before = (rest value).run middle := by
  rw [EStateM.run_bind, done]

/-- After a first part that throws, there is no rest. -/
theorem run_bind_error {first : EStateM Error State Value} {rest : Value → EStateM Error State Result}
    (thrown : first.run before = .error reason after) :
    (first >>= rest).run before = .error reason after := by
  rw [EStateM.run_bind, thrown]

/-- A computation that returns has returned so far. -/
theorem ok_of_bind {first : EStateM Error State Value} {rest : Value → EStateM Error State Result}
    {result : Result} (done : (first >>= rest).run before = .ok result after) :
    ∃ value middle, first.run before = .ok value middle ∧
      (rest value).run middle = .ok result after := by
  rw [EStateM.run_bind] at done
  cases ran : first.run before with
  | error reason middle => simp [ran] at done
  | ok value middle =>
      rw [ran] at done
      exact ⟨value, middle, rfl, done⟩

/-- A throw comes from the first part, or from the rest after the first part has returned. -/
theorem error_of_bind {first : EStateM Error State Value}
    {rest : Value → EStateM Error State Result}
    (thrown : (first >>= rest).run before = .error reason after) :
    first.run before = .error reason after ∨
      ∃ value middle, first.run before = .ok value middle ∧
        (rest value).run middle = .error reason after := by
  rw [EStateM.run_bind] at thrown
  cases ran : first.run before with
  | error other middle =>
      simp only [ran, EStateM.Result.error.injEq] at thrown
      obtain ⟨rfl, rfl⟩ := thrown
      exact .inl rfl
  | ok value middle =>
      rw [ran] at thrown
      exact .inr ⟨value, middle, rfl, thrown⟩

/-- However the computation ends, it keeps a property; what it returns has another one. -/
def Ends (computation : EStateM Error State Value) (before : State) (kept : State → Prop)
    (returned : Value → State → Prop) : Prop :=
  match computation.run before with
  | .ok value after => kept after ∧ returned value after
  | .error _ after => kept after

section Ends

variable {kept weaker : State → Prop} {returned : Value → State → Prop} {answered : Result → State → Prop}
  {computation : EStateM Error State Value}

theorem Ends.leaves (ends : Ends computation before kept returned) : kept (leaves computation before) := by
  cases ran : computation.run before with
  | error reason after =>
      rw [Ends, ran] at ends
      rwa [leaves_of_error ran]
  | ok value after =>
      rw [Ends, ran] at ends
      rw [leaves_of_ok ran]
      exact ends.1

theorem Ends.ok {value : Value} (ends : Ends computation before kept returned)
    (done : computation.run before = .ok value after) : kept after ∧ returned value after := by
  rwa [Ends, done] at ends

theorem ends_of_ok {value : Value} (done : computation.run before = .ok value after) (keeps : kept after)
    (property : returned value after) : Ends computation before kept returned := by
  rw [Ends, done]
  exact ⟨keeps, property⟩

theorem ends_of_error (thrown : computation.run before = .error reason after) (keeps : kept after) :
    Ends computation before kept returned := by
  rw [Ends, thrown]
  exact keeps

theorem Ends.of_run_eq {other : EStateM Error State Value} (ends : Ends other before kept returned)
    (same : computation.run before = other.run before) : Ends computation before kept returned := by
  rwa [Ends, same]

theorem Ends.mono {other : Value → State → Prop} (ends : Ends computation before kept returned)
    (keeps : ∀ state, kept state → weaker state)
    (returns : ∀ value state, kept state → returned value state → other value state) :
    Ends computation before weaker other := by
  cases ran : computation.run before with
  | error reason after =>
      rw [Ends, ran] at ends
      exact ends_of_error ran (keeps after ends)
  | ok value after =>
      rw [Ends, ran] at ends
      exact ends_of_ok ran (keeps after ends.1) (returns value after ends.1 ends.2)

theorem Ends.bind {rest : Value → EStateM Error State Result} (first : Ends computation before kept returned)
    (second : ∀ value middle, kept middle → returned value middle → Ends (rest value) middle kept answered) :
    Ends (computation >>= rest) before kept answered := by
  unfold Ends
  rw [EStateM.run_bind]
  cases ran : computation.run before with
  | error reason middle =>
      rw [Ends, ran] at first
      exact first
  | ok value middle =>
      obtain ⟨keeps, property⟩ := first.ok ran
      exact second value middle keeps property

end Ends

/-- A result that does not depend on the state. -/
def ofExcept (result : Except Error Value) : EStateM Error State Value :=
  match result with
  | .ok value => pure value
  | .error reason => throw reason

theorem run_ofExcept_ok {result : Except Error Value} {value : Value} (done : result = .ok value) :
    (ofExcept result).run before = .ok value before := by
  rw [done]
  rfl

theorem run_ofExcept_error {result : Except Error Value} (thrown : result = .error reason) :
    (ofExcept result).run before = .error reason before := by
  rw [thrown]
  rfl

section Loops

variable {Item : Type} {items : List Item} {body : Item → EStateM Error State Unit}

theorem run_forM_cons {item : Item} (ran : (body item).run before = .ok () after) (rest : List Item) :
    ((item :: rest).forM body).run before = (rest.forM body).run after := by
  rw [List.forM_eq_forM, List.forM_cons, run_bind_ok ran]

/-- A property holds of each state in which a pass of the loop starts. -/
def Throughout (body : Item → EStateM Error State Unit) (property : State → Prop) (state : State)
    (items : List Item) : Prop :=
  ∀ done item after, done ++ [item] <+: items → (done.forM body).run state = .ok () after → property after

theorem Throughout.now {property : State → Prop} {item : Item}
    (holds : Throughout body property before (item :: items)) : property before :=
  holds [] item before (List.prefix_append [item] items) rfl

theorem Throughout.later {property : State → Prop} {item : Item}
    (holds : Throughout body property before (item :: items))
    (ran : (body item).run before = .ok () after) : Throughout body property after items := by
  intro done other last begun reached
  apply holds (item :: done) other last
  · rw [List.cons_append]
    exact List.prefix_cons_inj item |>.mpr begun
  · rw [run_forM_cons ran]
    exact reached

theorem Throughout.of_append {property : State → Prop} {later : List Item}
    (holds : Throughout body property before (items ++ later)) : Throughout body property before items :=
  fun done item last begun reached => holds done item last (begun.trans (List.prefix_append items later)) reached

/-- Whether the property holds throughout, found by running the passes. -/
def checkThroughout (body : Item → EStateM Error State Unit) (property : State → Bool) (state : State) :
    List Item → Bool
  | [] => true
  | item :: rest =>
      property state &&
        match (body item).run state with
        | .ok _ next => checkThroughout body property next rest
        | .error _ _ => true

theorem checkThroughout_sound {property : State → Bool}
    (checked : checkThroughout body property before items = true) :
    Throughout body (fun state => property state = true) before items := by
  induction items generalizing before with
  | nil =>
      intro done item last begun
      simp at begun
  | cons head rest ih =>
      rw [checkThroughout, Bool.and_eq_true] at checked
      intro done item last begun reached
      cases done with
      | nil =>
          cases reached
          exact checked.1
      | cons first done =>
          rw [List.cons_append, List.cons_prefix_cons] at begun
          obtain ⟨rfl, begun⟩ := begun
          rw [List.forM_eq_forM, List.forM_cons] at reached
          obtain ⟨_, next, ran, later⟩ := ok_of_bind reached
          have others := checked.2
          rw [ran] at others
          exact ih others done item last begun later

/-- A loop whose every pass returns. -/
theorem forM_returns {change : State → Item → State}
    (each : ∀ item ∈ items, ∀ state, (body item).run state = .ok () (change state item)) :
    (items.forM body).run before = .ok () (items.foldl change before) := by
  induction items generalizing before with
  | nil => rfl
  | cons item rest ih =>
      rw [List.forM_eq_forM, List.forM_cons, run_bind_ok (each item (by simp) before)]
      exact ih fun other member => each other (by simp [member])

/-- A loop over numbers whose every pass returns, with an invariant that says how far it has come. -/
theorem forM_range {invariant : Nat → State → Prop} {body : Nat → EStateM Error State Unit} {count : Nat}
    (steps : ∀ index < count, ∀ state, invariant index state →
      ∃ next, (body index).run state = .ok () next ∧ invariant (index + 1) next)
    (initial : invariant 0 before) :
    ∃ after, ((List.range count).forM body).run before = .ok () after ∧ invariant count after := by
  induction count with
  | zero => exact ⟨before, rfl, initial⟩
  | succ count ih =>
      obtain ⟨middle, ran, holds⟩ := ih fun index less => steps index (Nat.lt_succ_of_lt less)
      obtain ⟨after, last, kept⟩ := steps count (Nat.lt_succ_self count) middle holds
      refine ⟨after, ?_, kept⟩
      rw [List.forM_eq_forM, List.range_succ, List.forM_append, ← List.forM_eq_forM, run_bind_ok ran,
        run_forM_cons last]
      rfl

/-- A loop with a pass that throws in every state. -/
theorem forM_throws {item : Item} (member : item ∈ items)
    (throws : ∀ state, ∃ reason after, (body item).run state = .error reason after) :
    ∃ reason after, (items.forM body).run before = .error reason after := by
  induction items generalizing before with
  | nil => exact absurd member List.not_mem_nil
  | cons head rest ih =>
      rw [List.forM_eq_forM, List.forM_cons, EStateM.run_bind]
      cases ran : (body head).run before with
      | error reason after => exact ⟨reason, after, rfl⟩
      | ok value middle =>
          rcases List.mem_cons.mp member with rfl | later
          · obtain ⟨reason, after, thrown⟩ := throws before
            rw [ran] at thrown
            cases thrown
          · exact ih later

end Loops

end Stateful
