import Geopm.Library.Stateful
import Mathlib.Data.List.Basic

namespace Objects

/-! Methods of objects that share a state. -/

open Stateful (leaves leaves_of_ok leaves_of_error)

variable {Error Reason State Part Value : Type}

/-- A computation on a part of the state, with its errors renamed. -/
def within (part : State → Part) (put : State → Part → State) (raise : Reason → Error)
    (computation : EStateM Reason Part Value) : EStateM Error State Value :=
  fun state =>
    match computation.run (part state) with
    | .ok value after => .ok value (put state after)
    | .error reason after => .error (raise reason) (put state after)

section Within

variable {part : State → Part} {put : State → Part → State} {raise : Reason → Error}
  {computation : EStateM Reason Part Value} {before after : State} {value : Value}

theorem within_returned {inner : Part} (ran : computation.run (part before) = .ok value inner) :
    (within part put raise computation).run before = .ok value (put before inner) := by
  simp only [within, EStateM.run] at ran ⊢
  rw [ran]

theorem within_thrown {reason : Reason} {inner : Part}
    (ran : computation.run (part before) = .error reason inner) :
    (within part put raise computation).run before = .error (raise reason) (put before inner) := by
  simp only [within, EStateM.run] at ran ⊢
  rw [ran]

theorem ends_within {kept : Part → Prop} {returned : Value → Part → Prop} {keeps : State → Prop}
    {returns : Value → State → Prop} (ends : Stateful.Ends computation (part before) kept returned)
    (one : ∀ inner, kept inner → keeps (put before inner))
    (other : ∀ value inner, kept inner → returned value inner → returns value (put before inner)) :
    Stateful.Ends (within part put raise computation) before keeps returns := by
  cases ran : computation.run (part before) with
  | error reason inner =>
      rw [Stateful.Ends, ran] at ends
      exact Stateful.ends_of_error (within_thrown ran) (one inner ends)
  | ok value inner =>
      obtain ⟨kept, property⟩ := ends.ok ran
      exact Stateful.ends_of_ok (within_returned ran) (one inner kept) (other value inner kept property)

theorem leaves_within : leaves (within part put raise computation) before =
    put before (leaves computation (part before)) := by
  cases ran : computation.run (part before) with
  | ok value inner =>
      rw [leaves_of_ok ran]
      exact leaves_of_ok (within_returned ran)
  | error reason inner =>
      rw [leaves_of_error ran]
      exact leaves_of_error (within_thrown ran)

theorem within_ok : (within part put raise computation).run before = .ok value after ↔
    ∃ inner, computation.run (part before) = .ok value inner ∧ put before inner = after := by
  cases ran : computation.run (part before) with
  | ok other inner =>
      rw [within_returned ran]
      constructor
      · intro same
        obtain ⟨rfl, rfl⟩ := EStateM.Result.ok.inj same
        exact ⟨inner, rfl, rfl⟩
      · rintro ⟨_, same, rfl⟩
        obtain ⟨rfl, rfl⟩ := EStateM.Result.ok.inj same
        rfl
  | error reason inner =>
      rw [within_thrown ran]
      simp

end Within

variable {Shared Object Label : Type}

/-- A method of each object in turn, until one throws. -/
def each (method : EStateM Error (Shared × Object) Unit) :
    Shared → List Object → EStateM.Result Error (Shared × List Object) Unit
  | shared, [] => .ok () (shared, [])
  | shared, object :: rest =>
      match method.run (shared, object) with
      | .error reason (next, changed) => .error reason (next, changed :: rest)
      | .ok _ (next, changed) =>
          match each method next rest with
          | .error reason (last, others) => .error reason (last, changed :: others)
          | .ok _ (last, others) => .ok () (last, changed :: others)

/-- The same as a method of the list. -/
def onEach (method : EStateM Error (Shared × Object) Unit) :
    EStateM Error (Shared × List Object) Unit :=
  fun (shared, objects) => each method shared objects

section OnEach

variable {method : EStateM Error (Shared × Object) Unit} {shared last : Shared} {object : Object}
  {rest changed : List Object}

theorem onEach_nil : (onEach method).run (shared, []) = .ok () (shared, []) := rfl

theorem onEach_cons : (onEach method).run (shared, object :: rest) =
    match method.run (shared, object) with
    | .error reason (next, changed) => .error reason (next, changed :: rest)
    | .ok _ (next, changed) =>
        match (onEach method).run (next, rest) with
        | .error reason (last, others) => .error reason (last, changed :: others)
        | .ok _ (last, others) => .ok () (last, changed :: others) := rfl

theorem onEach_cons_ok (done : (onEach method).run (shared, object :: rest) = .ok () (last, changed)) :
    ∃ next first others, method.run (shared, object) = .ok () (next, first) ∧
      (onEach method).run (next, rest) = .ok () (last, others) ∧ changed = first :: others := by
  rw [onEach_cons] at done
  cases ran : method.run (shared, object) with
  | error reason state => simp [ran] at done
  | ok _ state =>
      obtain ⟨next, first⟩ := state
      cases later : (onEach method).run (next, rest) with
      | error reason state => simp [ran, later] at done
      | ok _ state =>
          simp only [ran, later, EStateM.Result.ok.injEq, Prod.mk.injEq, true_and] at done
          obtain ⟨rfl, rfl⟩ := done
          exact ⟨next, first, _, rfl, later, rfl⟩

/-- What each method keeps, however it ends, the whole keeps. A fact about an object may
depend on the shared state, if it survives the changes to it. -/
theorem leaves_onEach {holds : Shared → Prop} {grows : Shared → Shared → Prop}
    {sound : Shared → Object → Prop} {label : Object → Label}
    (refl : ∀ shared, grows shared shared)
    (trans : ∀ {first second third}, grows first second → grows second third → grows first third)
    (mono : ∀ {first second object}, grows first second → sound first object → sound second object)
    (one : ∀ {shared object}, holds shared → sound shared object →
      let after := leaves method (shared, object)
      holds after.1 ∧ grows shared after.1 ∧ sound after.1 after.2 ∧ label after.2 = label object)
    {objects : List Object} (start : holds shared) (all : ∀ object ∈ objects, sound shared object) :
    let after := leaves (onEach method) (shared, objects)
    holds after.1 ∧ grows shared after.1 ∧ (∀ object ∈ after.2, sound after.1 object) ∧
      after.2.map label = objects.map label := by
  induction objects generalizing shared with
  | nil => exact ⟨start, refl shared, all, rfl⟩
  | cons object rest ih =>
      have first := one start (all object (by simp))
      have others : ∀ other ∈ rest, sound shared other := fun other member =>
        all other (List.mem_cons_of_mem object member)
      cases ran : method.run (shared, object) with
      | error reason state =>
          obtain ⟨next, changed⟩ := state
          rw [leaves_of_error ran] at first
          obtain ⟨kept, grown, fits, same⟩ := first
          have thrown : (onEach method).run (shared, object :: rest) =
              .error reason (next, changed :: rest) := by
            rw [onEach_cons, ran]
          rw [leaves_of_error thrown]
          refine ⟨kept, grown, ?_, by rw [List.map_cons, List.map_cons, same]⟩
          intro other member
          rcases List.mem_cons.mp member with rfl | old
          · exact fits
          · exact mono grown (others other old)
      | ok _ state =>
          obtain ⟨next, changed⟩ := state
          rw [leaves_of_ok ran] at first
          obtain ⟨kept, grown, fits, same⟩ := first
          have later := ih kept fun other member => mono grown (others other member)
          have combined : ∀ {last : Shared} {ending : List Object},
              leaves (onEach method) (next, rest) = (last, ending) →
              holds last ∧ grows shared last ∧ (∀ other ∈ changed :: ending, sound last other) ∧
                (changed :: ending).map label = (object :: rest).map label := by
            intro last ending reached
            rw [reached] at later
            obtain ⟨holding, growing, sounds, labels⟩ := later
            refine ⟨holding, trans grown growing, ?_, ?_⟩
            · intro other member
              rcases List.mem_cons.mp member with rfl | old
              · exact mono growing fits
              · exact sounds other old
            · rw [List.map_cons, List.map_cons, same, labels]
          cases finished : (onEach method).run (next, rest) with
          | error reason state =>
              obtain ⟨last, ending⟩ := state
              have thrown : (onEach method).run (shared, object :: rest) =
                  .error reason (last, changed :: ending) := by
                rw [onEach_cons, ran]
                simp only [finished]
              rw [leaves_of_error thrown]
              exact combined (leaves_of_error finished)
          | ok _ state =>
              obtain ⟨last, ending⟩ := state
              have done : (onEach method).run (shared, object :: rest) =
                  .ok () (last, changed :: ending) := by
                rw [onEach_cons, ran]
                simp only [finished]
              rw [leaves_of_ok done]
              exact combined (leaves_of_ok finished)

/-- Methods that all return. -/
theorem onEach_ok {holds : Shared → Prop} {ready : Object → Prop} {sound : Shared → Object → Prop}
    (mono : ∀ {first second object}, holds first → holds second → sound first object →
      sound second object)
    (one : ∀ {shared object next changed}, holds shared → ready object →
      method.run (shared, object) = .ok () (next, changed) → holds next ∧ sound next changed)
    {objects : List Object} (start : holds shared) (all : ∀ object ∈ objects, ready object)
    (done : (onEach method).run (shared, objects) = .ok () (last, changed)) :
    holds last ∧ ∀ object ∈ changed, sound last object := by
  induction objects generalizing shared changed with
  | nil =>
      rw [onEach_nil] at done
      simp only [EStateM.Result.ok.injEq, Prod.mk.injEq, true_and] at done
      obtain ⟨rfl, rfl⟩ := done
      exact ⟨start, by simp⟩
  | cons object rest ih =>
      obtain ⟨next, first, others, ran, later, rfl⟩ := onEach_cons_ok done
      obtain ⟨middle, sound⟩ := one start (all object (by simp)) ran
      obtain ⟨ending, sounds⟩ :=
        ih middle (fun other member => all other (List.mem_cons_of_mem object member)) later
      refine ⟨ending, fun other member => ?_⟩
      rcases List.mem_cons.mp member with rfl | old
      · exact mono middle ending sound
      · exact sounds other old

end OnEach

/-- What every step of a loop keeps, the loop keeps. -/
theorem leaves_forM (property : State → Prop) {Item : Type} {items : List Item}
    {step : Item → EStateM Error State PUnit} {before : State}
    (one : ∀ item ∈ items, ∀ state, property state → property (leaves (step item) state))
    (start : property before) : property (leaves (items.forM step) before) := by
  induction items generalizing before with
  | nil => exact start
  | cons item rest ih =>
      change property (leaves (step item >>= fun _ => rest.forM step) before)
      refine Stateful.leaves_bind property (one item (by simp) before start)
        fun _ middle _ kept => ?_
      exact ih (fun other member => one other (List.mem_cons_of_mem item member)) kept

end Objects
