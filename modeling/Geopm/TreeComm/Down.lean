import Geopm.Library.Run
import Geopm.TreeComm.Level

namespace Geopm

open Double (beq_symm beq_trans)

/-! Policies on their way down: skipping a policy equal to the last one that was
sent is not observable. -/

variable {Value : Type} [Double Value]

section Vectors

variable {first second third : List Value}

theorem vectors_symm (equal : (first == second) = true) : (second == first) = true := by
  induction first generalizing second with
  | nil => cases second <;> simp_all
  | cons value rest ih =>
      cases second with
      | nil => simp at equal
      | cons other others =>
          simp only [List.cons_beq_cons, Bool.and_eq_true] at equal ⊢
          exact ⟨beq_symm equal.1, ih equal.2⟩

theorem vectors_trans (left : (first == second) = true) (right : (second == third) = true) :
    (first == third) = true := by
  induction first generalizing second third with
  | nil => cases second <;> cases third <;> simp_all
  | cons value rest ih =>
      cases second with
      | nil => simp at left
      | cons other others =>
          cases third with
          | nil => simp at right
          | cons last lasts =>
              simp only [List.cons_beq_cons, Bool.and_eq_true] at left right ⊢
              exact ⟨beq_trans left.1 right.1, ih left.2 right.2⟩

theorem vectors_refl (nanFree : NanFree first) : (first == first) = true := by
  induction first with
  | nil => rfl
  | cons value rest ih =>
      have same := nanFree value (by simp)
      simp only [isNan, bne, Bool.not_eq_false'] at same
      simp only [List.cons_beq_cons, Bool.and_eq_true]
      exact ⟨same, ih fun other member => nanFree other (by simp [member])⟩

/-- A value that equals anything is no nan. -/
theorem nanFree_of_beq (equal : (first == second) = true) : NanFree first := by
  induction first generalizing second with
  | nil => simp [NanFree]
  | cons value rest ih =>
      cases second with
      | nil => simp at equal
      | cons other others =>
          simp only [List.cons_beq_cons, Bool.and_eq_true] at equal
          intro this member
          rcases List.mem_cons.mp member with rfl | later
          · simp [isNan, bne, beq_trans equal.1 (beq_symm equal.1)]
          · exact ih equal.2 this later

theorem beq_nan (value : Value) : (value == Double.nan) = false := by
  cases equal : value == Double.nan with
  | false => rfl
  | true => simpa [Double.nan_beq] using beq_symm equal

/-- No policy equals the history that the constructor makes. -/
theorem vectors_nan {count : Nat} (positive : 0 < count) (values : List Value) :
    (values == List.replicate count Double.nan) = false := by
  cases count with
  | zero => omega
  | succ count =>
      cases values with
      | nil => rfl
      | cons value rest => simp [List.replicate_succ, beq_nan]

end Vectors

/-- A level on which rank 0 may be in the loop of `send_down`, with the policies
that were sent last. -/
structure Downward (Value : Type) where
  level : Level Value
  /-- what the loop has left to do -/
  pending : List (List Value × Nat)
  sent : Nat → Option (List Value)

namespace Downward

inductive Action (Value : Type) where
  /-- a call of `send_down`, up to its loop -/
  | sendDown (policy : List (List Value))
  /-- one round of the loop -/
  | serve

def initial (size numSendUp numSendDown : Nat) : Downward Value where
  level := .new size numSendUp numSendDown
  pending := []
  sent _ := none

/-- One step of rank 0, where `transmit` is what the loop does for a child. Calls
of `receive_down` may come before and after every step, and change nothing. -/
def step (transmit : Level Value → List Value → Nat → Level Value) (state : Downward Value) :
    Action Value → Downward Value
  | .sendDown policy =>
      match state.level.startDown policy with
      | .error _ => state
      | .ok (level, pending) =>
          { level, pending, sent := Function.update state.sent 0 (some (policy.headD [])) }
  | .serve =>
      match state.pending with
      | [] => state
      | (policy, child) :: rest =>
          { level := transmit state.level policy child
            pending := rest
            sent := Function.update state.sent child (some policy) }

/-- Rank 0 makes one call after the other, and sends no nan. -/
def Permits (state : Downward Value) : Action Value → Prop
  | .sendDown policy => state.pending = [] ∧ ∀ values ∈ policy, NanFree values
  | .serve => True

/-- The window of a rank holds what was sent to it. -/
def Holds (level : Level Value) (rank : Nat) : Option (List Value) → Prop
  | none => level.policyMailbox rank 0 = 0
  | some policy => level.policyMailbox rank 0 = 1 ∧ policy.length = level.numSendDown ∧
      (Window.read (level.policyMailbox rank) 1 level.numSendDown == policy) = true

/-- What is left to do is in order. -/
structure Ready (state : Downward Value) : Prop where
  sized : ∀ entry ∈ state.pending, entry.1.length = state.level.numSendDown
  nanFree : ∀ entry ∈ state.pending, NanFree entry.1
  remote : ∀ entry ∈ state.pending, entry.2 ≠ 0

variable {level : Level Value} {state other : Downward Value} {policy : List Value}
  {rank child : Nat}

theorem holds_deliver (sized : policy.length = level.numSendDown) (nanFree : NanFree policy) :
    Holds (level.deliver rank policy) rank (some policy) := by
  refine ⟨?_, sized, ?_⟩
  · simp only [Level.deliver, Function.update_self]
    rw [Window.put_outside (by omega)]
    exact Window.put_singleton 1
  · simp only [Level.deliver, Function.update_self, ← sized, Window.read_put]
    exact vectors_refl nanFree

theorem holds_other {sent : Option (List Value)} (different : rank ≠ child)
    (holds : Holds level rank sent) : Holds (level.deliver child policy) rank sent := by
  cases sent <;> simpa only [Holds, Level.deliver_other different, Level.deliver_numSendDown]

/-- The invariant of the unconditional protocol. -/
structure Delivered (state : Downward Value) : Prop where
  holds : ∀ rank, Holds state.level rank (state.sent rank)
  ready : state.Ready

/-- The history of rank 0 is what is in the windows. -/
def Remembers (level : Level Value) (child : Nat) : Option (List Value) → Prop
  | none => level.policyLast child = List.replicate level.numSendDown Double.nan
  | some _ => level.policyLast child =
      Window.read (level.policyMailbox child) 1 level.numSendDown

theorem startDown_ok {policy : List (List Value)} {pending : List (List Value × Nat)}
    {next : Level Value} (started : level.startDown policy = .ok (next, pending)) :
    level.size = policy.length ∧ (∀ values ∈ policy, values.length = level.numSendDown) ∧
      next = level.deliver 0 (policy.headD []) ∧ pending = policy.zipIdx.tail := by
  simp only [Level.startDown] at started
  split at started
  · simp at started
  · rename_i sized
    rw [not_or, not_not] at sized
    obtain ⟨rfl, rfl⟩ := Prod.mk.inj (Except.ok.inj started)
    refine ⟨sized.1, fun values member => ?_, rfl, rfl⟩
    by_contra wrong
    exact sized.2 (List.any_eq_true.mpr ⟨values, member, by simpa using wrong⟩)

/-- The loop of `send_down` is about the other ranks. -/
theorem ready_zipIdx {policy : List (List Value)} {sent : Nat → Option (List Value)}
    (sized : ∀ values ∈ policy, values.length = level.numSendDown)
    (nanFree : ∀ values ∈ policy, NanFree values) :
    Ready ⟨level, policy.zipIdx.tail, sent⟩ := by
  have member : ∀ entry ∈ policy.zipIdx.tail, entry.1 ∈ policy := fun entry present =>
    List.fst_mem_of_mem_zipIdx (List.mem_of_mem_tail present)
  refine ⟨fun entry present => sized _ (member entry present),
    fun entry present => nanFree _ (member entry present), ?_⟩
  cases policy with
  | nil => simp
  | cons first rest =>
      rintro ⟨values, index⟩ present
      simp only [List.zipIdx_cons, List.tail_cons] at present
      have later := List.le_snd_of_mem_zipIdx present
      simp only at later ⊢
      omega

theorem Delivered.started {policy : List (List Value)} {next : Level Value}
    {pending : List (List Value × Nat)} (delivered : state.Delivered)
    (nonempty : 0 < state.level.size) (nanFree : ∀ values ∈ policy, NanFree values)
    (started : state.level.startDown policy = .ok (next, pending)) :
    Delivered ⟨next, pending, Function.update state.sent 0 (some (policy.headD []))⟩ := by
  obtain ⟨size, sized, rfl, rfl⟩ := startDown_ok started
  have first : policy.headD [] ∈ policy := by
    cases policy with
    | nil => simp at size; omega
    | cons values rest => simp
  refine ⟨fun rank => ?_, ready_zipIdx (by simpa using sized) nanFree⟩
  by_cases same : rank = 0
  · subst same
    simp only [Function.update_self]
    exact holds_deliver (sized _ first) (nanFree _ first)
  · simp only [Function.update_of_ne same]
    exact holds_other same (delivered.holds rank)

/-- A policy that is put into the window of a child. -/
theorem Delivered.served {rest : List (List Value × Nat)} (delivered : state.Delivered)
    (next : state.pending = (policy, child) :: rest) {level : Level Value}
    (numSendDown : level.numSendDown = state.level.numSendDown)
    (holds : Holds level child (some policy))
    (others : ∀ other, other ≠ child →
      level.policyMailbox other = state.level.policyMailbox other) :
    Delivered ⟨level, rest, Function.update state.sent child (some policy)⟩ := by
  have ready := delivered.ready
  have later : ∀ entry ∈ rest, entry ∈ state.pending := fun entry member => by simp [next, member]
  refine ⟨fun rank => ?_, ⟨fun entry member => ?_, fun entry member => ?_, fun entry member => ?_⟩⟩
  · by_cases same : rank = child
    · subst same
      simpa only [Function.update_self] using holds
    · have before := delivered.holds rank
      simp only [Function.update_of_ne same]
      cases sent : state.sent rank <;>
        simpa only [Holds, others rank same, numSendDown, sent] using before
  · rw [numSendDown]
    exact ready.sized entry (later entry member)
  · exact ready.nanFree entry (later entry member)
  · exact ready.remote entry (later entry member)

/-- The invariant of the code. -/
structure Suppressed (state : Downward Value) : Prop where
  delivered : state.Delivered
  remembers : ∀ child, child ≠ 0 → Remembers state.level child (state.sent child)

theorem Suppressed.serve {rest : List (List Value × Nat)} (positive : 0 < state.level.numSendDown)
    (suppressed : state.Suppressed) (next : state.pending = (policy, child) :: rest) :
    Suppressed ⟨state.level.serve policy child, rest,
      Function.update state.sent child (some policy)⟩ := by
  obtain ⟨delivered, remembers⟩ := suppressed
  have ready := delivered.ready
  have member : (policy, child) ∈ state.pending := by simp [next]
  have sized := ready.sized _ member
  have nanFree := ready.nanFree _ member
  have before := remembers child (ready.remote _ member)
  by_cases equal : (policy == state.level.policyLast child) = true
  · -- skipped: the window holds a policy equal to this one
    have skipped : state.level.serve policy child = state.level := by
      simp [Level.serve, bne, equal]
    rw [skipped]
    cases sent : state.sent child with
    | none =>
        rw [sent] at before
        rw [before, vectors_nan positive] at equal
        simp at equal
    | some last =>
        have holds := delivered.holds child
        rw [sent] at before holds
        obtain ⟨flag, _, _⟩ := holds
        rw [before] at equal
        refine ⟨delivered.served next rfl ⟨flag, sized, vectors_symm equal⟩ fun _ _ => rfl, ?_⟩
        intro other remote
        by_cases same : other = child
        · subst same
          simp only [Function.update_self]
          exact before
        · simp only [Function.update_of_ne same]
          exact remembers other remote
  · have put : state.level.serve policy child =
        { state.level.deliver child policy with
          policyLast := Function.update state.level.policyLast child policy } := by
      simp [Level.serve, bne, equal]
    rw [put]
    refine ⟨delivered.served next rfl (holds_deliver sized nanFree) fun other different =>
      Level.deliver_other different, ?_⟩
    intro other remote
    by_cases same : other = child
    · subst same
      simp only [Function.update_self, Remembers, Level.deliver]
      exact (sized ▸ Window.read_put).symm
    · have kept := remembers other remote
      simp only [Function.update_of_ne same]
      cases sent : state.sent other <;>
        simpa only [Remembers, Level.deliver_other same, Function.update_of_ne same,
          Level.deliver_numSendDown, sent] using kept

/-- What no step changes. -/
theorem step_level (transmit : Level Value → List Value → Nat → Level Value)
    (same : ∀ level policy child, (transmit level policy child).size = level.size ∧
      (transmit level policy child).numSendDown = level.numSendDown) (action : Action Value) :
    (state.step transmit action).level.size = state.level.size ∧
      (state.step transmit action).level.numSendDown = state.level.numSendDown := by
  cases action with
  | sendDown policy =>
      simp only [step]
      cases started : state.level.startDown policy with
      | error reason => exact ⟨rfl, rfl⟩
      | ok result =>
          obtain ⟨next, pending⟩ := result
          obtain ⟨_, _, rfl, _⟩ := startDown_ok started
          exact ⟨rfl, rfl⟩
  | serve =>
      simp only [step]
      cases state.pending with
      | nil => exact ⟨rfl, rfl⟩
      | cons entry rest => exact same _ _ _

/-- Every policy is put, equal or not. -/
def unconditional (level : Level Value) (policy : List Value) (child : Nat) : Level Value :=
  level.deliver child policy

/-- Two states in which rank 0 has made the same calls. -/
structure Alike (state other : Downward Value) : Prop where
  pending : state.pending = other.pending
  sent : state.sent = other.sent
  size : state.level.size = other.level.size
  numSendDown : state.level.numSendDown = other.level.numSendDown

theorem serve_same (level : Level Value) (policy : List Value) (child : Nat) :
    (level.serve policy child).size = level.size ∧
      (level.serve policy child).numSendDown = level.numSendDown := by
  simp only [Level.serve]
  split <;> exact ⟨rfl, rfl⟩

theorem Alike.step (alike : Alike state other) (action : Action Value) :
    Alike (state.step Level.serve action) (other.step unconditional action) := by
  have levels := @step_level _ _ state Level.serve serve_same action
  have others := @step_level _ _ other unconditional (fun _ _ _ => ⟨rfl, rfl⟩) action
  obtain ⟨pending, sent, size, numSendDown⟩ := alike
  refine ⟨?_, ?_, by rw [levels.1, others.1, size], by rw [levels.2, others.2, numSendDown]⟩
  · cases action with
    | sendDown policy =>
        simp only [Downward.step, Level.startDown, size, numSendDown]
        by_cases sized : other.level.size ≠ policy.length ∨
            policy.any (·.length ≠ other.level.numSendDown)
        · simpa only [if_pos sized] using pending
        · simp only [if_neg sized]
    | serve =>
        simp only [Downward.step, pending]
        cases next : other.pending with
        | nil => simpa only [next] using pending
        | cons entry rest => rfl
  · cases action with
    | sendDown policy =>
        simp only [Downward.step, Level.startDown, size, numSendDown]
        by_cases sized : other.level.size ≠ policy.length ∨
            policy.any (·.length ≠ other.level.numSendDown)
        · simpa only [if_pos sized] using sent
        · simp only [if_neg sized, sent]
    | serve =>
        simp only [Downward.step, pending]
        cases other.pending with
        | nil => exact sent
        | cons entry rest => simp only [sent]

/-- What both protocols keep in lockstep. -/
structure Related (state other : Downward Value) : Prop where
  nonempty : 0 < state.level.size
  positive : 0 < state.level.numSendDown
  suppressed : state.Suppressed
  delivered : other.Delivered
  alike : Alike state other

theorem initial_delivered (size numSendUp numSendDown : Nat) :
    (initial size numSendUp numSendDown : Downward Value).Delivered where
  holds _ := rfl
  ready := ⟨by simp [initial], by simp [initial], by simp [initial]⟩

theorem Related.step {action : Action Value} (related : Related state other)
    (permits : state.Permits action) :
    Related (state.step Level.serve action) (other.step unconditional action) := by
  have levels := @step_level _ _ state Level.serve serve_same action
  obtain ⟨nonempty, positive, suppressed, delivered, alike⟩ := related
  refine ⟨by rw [levels.1]; exact nonempty, by rw [levels.2]; exact positive, ?_, ?_,
    alike.step action⟩
  · cases action with
    | sendDown policy =>
        cases started : state.level.startDown policy with
        | error reason => simpa only [Downward.step, started] using suppressed
        | ok result =>
            obtain ⟨next, pending⟩ := result
            simp only [Downward.step, started]
            refine ⟨suppressed.delivered.started nonempty permits.2 started, ?_⟩
            intro child remote
            have kept := suppressed.remembers child remote
            obtain ⟨_, _, rfl, _⟩ := startDown_ok started
            simp only [Function.update_of_ne remote]
            cases sent : state.sent child <;>
              simpa only [Remembers, Level.deliver_other remote, Level.deliver_policyLast,
                Level.deliver_numSendDown, sent] using kept
    | serve =>
        cases next : state.pending with
        | nil => simpa only [Downward.step, next] using suppressed
        | cons entry rest =>
            simp only [Downward.step, next]
            exact suppressed.serve positive next
  · cases action with
    | sendDown policy =>
        cases started : other.level.startDown policy with
        | error reason => simpa only [Downward.step, started] using delivered
        | ok result =>
            obtain ⟨next, pending⟩ := result
            simp only [Downward.step, started]
            exact delivered.started (alike.size ▸ nonempty) permits.2 started
    | serve =>
        cases next : other.pending with
        | nil => simpa only [Downward.step, next] using delivered
        | cons entry rest =>
            have member : entry ∈ other.pending := by simp [next]
            simp only [Downward.step, next]
            exact delivered.served next rfl
              (holds_deliver (delivered.ready.sized _ member) (delivered.ready.nanFree _ member))
              fun _ different => Level.deliver_other different

theorem Related.run {actions : List (Action Value)} (related : Related state other)
    (permitted : Transition.Permitted (Downward.step Level.serve) Permits state actions) :
    Related (Transition.run (Downward.step Level.serve) state actions)
      (Transition.run (Downward.step unconditional) other actions) := by
  induction actions generalizing state other with
  | nil => exact related
  | cons action rest ih => exact ih (related.step permitted.1) permitted.2

/-- What a child receives from a window that holds what was sent. -/
theorem receiveDown_holds {sent : Option (List Value)} (holds : Holds level rank sent)
    (policy : List Value) :
    (sent = none ∧ level.receiveDown rank policy = (false, policy)) ∨
      ∃ last received, sent = some last ∧ level.receiveDown rank policy = (true, received) ∧
        (received == last) = true := by
  cases sent with
  | none =>
      left
      refine ⟨rfl, ?_⟩
      rw [Level.receiveDown, show level.policyMailbox rank 0 = 0 from holds, Double.zero_beq_one]
      rfl
  | some last =>
      right
      obtain ⟨flag, _, equal⟩ := holds
      refine ⟨last, _, rfl, ?_, equal⟩
      rw [Level.receiveDown, flag, Double.one_beq_one, if_pos rfl]
      refine Prod.ext ?_ rfl
      rw [List.all_eq_true]
      intro value member
      simp [nanFree_of_beq equal value member]

/-- The same success, and equal policies after it. -/
def Agree (result other : Bool × List Value) : Prop :=
  result.1 = other.1 ∧ if result.1 then (result.2 == other.2) = true else result.2 = other.2

/-- At any point of any run, a call of `receive_down` succeeds if and only if a
policy has been sent to the rank, and then returns the last one; so it does
where every policy is put. -/
theorem receiveDown_run (size numSendUp numSendDown : Nat) (nonempty : 0 < size)
    (positive : 0 < numSendDown) (actions : List (Action Value))
    (permitted : Transition.Permitted (step Level.serve) Permits
      (initial size numSendUp numSendDown) actions) (rank : Nat) (policy : List Value) :
    let state := Transition.run (step Level.serve) (initial size numSendUp numSendDown) actions
    let other := Transition.run (step unconditional) (initial size numSendUp numSendDown) actions
    (state.sent rank = none → state.level.receiveDown rank policy = (false, policy)) ∧
    (∀ last, state.sent rank = some last → ∃ received,
      state.level.receiveDown rank policy = (true, received) ∧ (received == last) = true) ∧
    Agree (state.level.receiveDown rank policy) (other.level.receiveDown rank policy) := by
  intro state other
  have start : Related (initial size numSendUp numSendDown : Downward Value)
      (initial size numSendUp numSendDown) :=
    ⟨nonempty, positive, ⟨initial_delivered size numSendUp numSendDown, fun _ _ => rfl⟩,
      initial_delivered size numSendUp numSendDown, ⟨rfl, rfl, rfl, rfl⟩⟩
  have related : Related state other := start.run permitted
  have here := receiveDown_holds (related.suppressed.delivered.holds rank) policy
  have there := receiveDown_holds (related.delivered.holds rank) policy
  rw [← related.alike.sent] at there
  rcases here with ⟨none, failed⟩ | ⟨last, received, some, succeeded, equal⟩
  · rcases there with ⟨_, otherFailed⟩ | ⟨_, _, some, _⟩
    · refine ⟨fun _ => failed, fun last some => by simp [none] at some, ?_⟩
      rw [failed, otherFailed]
      exact ⟨rfl, rfl⟩
    · simp [none] at some
  · rcases there with ⟨none, _⟩ | ⟨other, got, same, otherSucceeded, otherEqual⟩
    · simp [none] at some
    · obtain rfl : last = other := Option.some.inj (some.symm.trans same)
      refine ⟨fun none => by simp [none] at some, fun this sent => ?_, ?_⟩
      · obtain rfl : last = this := Option.some.inj (some.symm.trans sent)
        exact ⟨received, succeeded, equal⟩
      · rw [succeeded, otherSucceeded]
        exact ⟨rfl, vectors_trans equal (vectors_symm otherEqual)⟩

/-- The second call sends rank 1 an equal policy, and rank 2 another one. -/
def repeated : List (Action Approximate) :=
  [.sendDown [[.finite 1], [.finite 2], [.finite 3]], .serve, .serve,
    .sendDown [[.finite 1], [.finite 2], [.finite 4]], .serve]

theorem receiveDown_run_repeated :
    let state := Transition.run (step Level.serve) (initial 3 1 1) repeated
    (∃ received, state.level.receiveDown 1 [] = (true, received) ∧
      (received == [.finite 2]) = true) ∧
    ∃ received, state.level.receiveDown 2 [] = (true, received) ∧
      (received == [.finite 3]) = true := by
  have permitted : Transition.Permitted (step Level.serve) Permits (initial 3 1 1) repeated := by
    refine ⟨⟨rfl, ?_⟩, trivial, trivial, ⟨rfl, ?_⟩, trivial, trivial⟩ <;> decide +kernel
  exact ⟨(receiveDown_run 3 1 1 (by decide) (by decide) repeated permitted 1 []).2.1 _ rfl,
    (receiveDown_run 3 1 1 (by decide) (by decide) repeated permitted 2 []).2.1 _ rfl⟩

end Downward

end Geopm
