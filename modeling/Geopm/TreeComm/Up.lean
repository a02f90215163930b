import Geopm.Library.Run
import Geopm.TreeComm.Level

namespace Geopm

/-! Samples on their way up: what rank 0 collects from the children. -/

variable {Value : Type} [Double Value]

/-- A level on which rank 0 may be between the two locks of `receive_up`. -/
structure Upward (Value : Type) where
  level : Level Value
  /-- the flags have been found complete and the samples not yet been taken -/
  collecting : Bool
  /-- the sample that each child sent last -/
  latest : Nat → Option (List Value)
  /-- the child has sent since its sample was taken last -/
  fresh : Nat → Bool

namespace Upward

inductive Action (Value : Type) where
  | sendUp (rank : Nat) (sample : List Value)
  /-- the test of the flags in `receive_up`, which fails or goes on to the copy -/
  | check
  /-- the copy of the samples, after which `receive_up` returns -/
  | collect

def initial (size numSendUp numSendDown : Nat) : Upward Value where
  level := .new size numSendUp numSendDown
  collecting := false
  latest _ := none
  fresh _ := false

def step (state : Upward Value) : Action Value → Upward Value
  | .sendUp rank sample =>
      match state.level.sendUp rank sample with
      | .error _ => state
      | .ok level =>
          { state with
            level
            latest := Function.update state.latest rank (some sample)
            fresh := Function.update state.fresh rank true }
  | .check => { state with collecting := state.level.isComplete }
  | .collect =>
      { state with
        level := (state.level.takeSamples (List.range state.level.size)).2
        collecting := false
        fresh := fun rank => state.fresh rank && decide (state.level.size ≤ rank) }

/-- Each process makes one call after the other, and sends no nan. -/
def Permits (state : Upward Value) : Action Value → Prop
  | .sendUp rank sample =>
      rank < state.level.size ∧ (rank = 0 → state.collecting = false) ∧ NanFree sample
  | .check => state.collecting = false
  | .collect => state.collecting = true

/-- What `receive_up` returns once it has gone on to the copy. -/
def received (state : Upward Value) : Bool × List (List Value) :=
  let samples := (state.level.takeSamples (List.range state.level.size)).1
  (samples.all (·.all fun value => !isNan value), samples)

end Upward

namespace Level

variable {level : Level Value} {rank child : Nat} {sample : List Value}

/-- The flag of a child and its sample. -/
def slot (level : Level Value) (child : Nat) : Value × List Value :=
  (level.sampleMailbox (level.sampleBase child),
    Window.read level.sampleMailbox (level.sampleBase child + 1) level.numSendUp)

omit [Double Value] in
/-- The slots of two children do not overlap. -/
theorem sampleBase_apart (different : rank ≠ child) :
    level.sampleBase rank + level.numSendUp < level.sampleBase child ∨
      level.sampleBase child + level.numSendUp < level.sampleBase rank := by
  simp only [sampleBase]
  rcases Nat.lt_or_gt_of_ne different with before | after
  · left
    have grown := Nat.mul_le_mul_right (level.numSendUp + 1) before
    rw [Nat.succ_mul] at grown
    omega
  · right
    have grown := Nat.mul_le_mul_right (level.numSendUp + 1) after
    rw [Nat.succ_mul] at grown
    omega

theorem sendUp_ok {next : Level Value} (sent : level.sendUp rank sample = .ok next) :
    next.size = level.size ∧ next.numSendUp = level.numSendUp ∧
      sample.length = level.numSendUp ∧ next.slot rank = (1, sample) ∧
      ∀ other, other ≠ rank → next.slot other = level.slot other := by
  simp only [sendUp] at sent
  split at sent
  · simp at sent
  · rename_i sized
    rw [not_not] at sized
    obtain rfl := Except.ok.inj sent
    refine ⟨rfl, rfl, sized, ?_, fun other different => ?_⟩
    · simp only [slot, sampleBase, ← sized, Window.read_put]
      rw [Window.put_outside (by omega), Window.put_singleton]
    · have apart := @sampleBase_apart _ level _ _ different
      simp only [slot, sampleBase] at apart ⊢
      rw [Window.put_outside (by omega), Window.put_outside (by simp only [List.length_singleton]; omega),
        Window.read_put_disjoint (by omega),
        Window.read_put_disjoint (by simp only [List.length_singleton]; omega)]

theorem takeSample_slot (level : Level Value) (child : Nat) :
    (level.takeSample child).1 = (level.slot child).2 ∧
      (level.takeSample child).2.size = level.size ∧
      (level.takeSample child).2.numSendUp = level.numSendUp ∧
      (level.takeSample child).2.slot child = (0, (level.slot child).2) ∧
      ∀ other, other ≠ child → (level.takeSample child).2.slot other = level.slot other := by
  refine ⟨rfl, rfl, rfl, ?_, fun other different => ?_⟩
  · simp only [takeSample, slot, sampleBase]
    rw [Window.put_singleton, Window.read_put_disjoint (by simp only [List.length_singleton]; omega)]
  · have apart := @sampleBase_apart _ level _ _ different
    simp only [takeSample, slot, sampleBase] at apart ⊢
    rw [Window.put_outside (by simp only [List.length_singleton]; omega),
      Window.read_put_disjoint (by simp only [List.length_singleton]; omega)]

/-- The loop takes the sample of each child, and resets the flags of these children only. -/
theorem takeSamples_slots {children : List Nat} (distinct : children.Nodup) :
    (level.takeSamples children).1 = children.map (fun child => (level.slot child).2) ∧
      (level.takeSamples children).2.size = level.size ∧
      (level.takeSamples children).2.numSendUp = level.numSendUp ∧
      (∀ child ∈ children,
        (level.takeSamples children).2.slot child = (0, (level.slot child).2)) ∧
      ∀ other, other ∉ children → (level.takeSamples children).2.slot other = level.slot other := by
  induction children generalizing level with
  | nil => simp [takeSamples]
  | cons child rest ih =>
      obtain ⟨fresh, others⟩ := List.nodup_cons.mp distinct
      obtain ⟨sample, size, numSendUp, reset, kept⟩ := takeSample_slot level child
      obtain ⟨samples, lastSize, lastNum, resets, untouched⟩ := @ih (level.takeSample child).2 others
      have before : ∀ other ∈ rest, (level.takeSample child).2.slot other = level.slot other :=
        fun other member => kept other fun same => fresh (same ▸ member)
      refine ⟨?_, lastSize.trans size, lastNum.trans numSendUp, fun other member => ?_,
        fun other absent => ?_⟩
      · simp only [takeSamples, List.map_cons, samples, sample]
        congr 1
        exact List.map_congr_left fun other member => by rw [before other member]
      · rcases List.mem_cons.mp member with rfl | later
        · exact (untouched other fresh).trans reset
        · exact (resets other later).trans (by rw [before other later])
      · rw [List.mem_cons, not_or] at absent
        exact (untouched other absent.2).trans (kept other absent.1)

theorem isComplete_iff : level.isComplete = true ↔
    ∀ child < level.size, ((level.slot child).1 == 0) = false := by
  simp [isComplete, slot]

end Level

namespace Upward

variable {state : Upward Value} {action : Action Value}

/-- The slot of a child holds what it sent last, and its flag says whether it is fresh. -/
structure Holds (state : Upward Value) (child : Nat) : Prop where
  stale : state.fresh child = false → (state.level.slot child).1 = 0
  fresh : state.fresh child = true → (state.level.slot child).1 = 1
  latest : ∀ sample, state.latest child = some sample →
    (state.level.slot child).2 = sample ∧ NanFree sample
  sent : state.fresh child = true → (state.latest child).isSome = true

structure Sound (state : Upward Value) : Prop where
  holds : ∀ child, state.Holds child
  /-- a flag that was found set stays set until rank 0 resets it -/
  complete : state.collecting = true → ∀ child < state.level.size, state.fresh child = true

theorem initial_sound (size numSendUp numSendDown : Nat) :
    (initial size numSendUp numSendDown : Upward Value).Sound where
  holds _ := ⟨fun _ => rfl, by simp [initial], by simp [initial], by simp [initial]⟩
  complete := by simp [initial]

theorem Holds.of_eq {next : Upward Value} {child : Nat} (holds : state.Holds child)
    (slot : next.level.slot child = state.level.slot child)
    (latest : next.latest child = state.latest child)
    (fresh : next.fresh child = state.fresh child) : next.Holds child := by
  obtain ⟨stale, set, last, sent⟩ := holds
  exact ⟨by rwa [slot, fresh], by rwa [slot, fresh], by rwa [slot, latest], by rwa [latest, fresh]⟩

theorem Sound.fresh_of_complete (sound : state.Sound) (complete : state.level.isComplete = true)
    {child : Nat} (inside : child < state.level.size) : state.fresh child = true := by
  cases fresh : state.fresh child with
  | true => rfl
  | false =>
      have set := Level.isComplete_iff.mp complete child inside
      simp [(sound.holds child).stale fresh, Double.zero_beq_zero] at set

theorem Sound.step (sound : state.Sound) (permits : state.Permits action) :
    (state.step action).Sound := by
  cases action with
  | sendUp rank sample =>
      cases sent : state.level.sendUp rank sample with
      | error reason => simpa only [Upward.step, sent] using sound
      | ok level =>
          obtain ⟨size, _, _, slot, others⟩ := Level.sendUp_ok sent
          simp only [Upward.step, sent]
          refine ⟨fun child => ?_, fun collecting child inside => ?_⟩
          · by_cases same : child = rank
            · subst same
              refine ⟨fun stale => by simp at stale, fun _ => by simp [slot], fun last found => ?_,
                fun _ => by simp⟩
              simp only [Function.update_self, Option.some.injEq] at found
              exact ⟨by simp [slot, found], found ▸ permits.2.2⟩
            · exact (sound.holds child).of_eq (others child same)
                (by simp [same]) (by simp [same])
          · by_cases same : child = rank
            · simp [same]
            · simp only [Function.update_of_ne same]
              exact sound.complete collecting child (size ▸ inside)
  | check =>
      exact ⟨fun child => (sound.holds child).of_eq rfl rfl rfl, fun complete child inside =>
        sound.fresh_of_complete complete inside⟩
  | collect =>
      obtain ⟨_, size, _, resets, untouched⟩ :=
        @Level.takeSamples_slots _ _ state.level _ (List.nodup_range (n := state.level.size))
      refine ⟨fun child => ?_, by simp [Upward.step]⟩
      have holds := sound.holds child
      by_cases inside : child < state.level.size
      · have reset := resets child (List.mem_range.mpr inside)
        refine ⟨fun _ => ?_, fun fresh => ?_, fun sample found => ?_, fun fresh => ?_⟩
        · simp only [Upward.step, reset]
        · simp only [Upward.step, Bool.and_eq_true, decide_eq_true_eq] at fresh
          omega
        · simp only [Upward.step, reset]
          exact holds.latest sample found
        · simp only [Upward.step, Bool.and_eq_true, decide_eq_true_eq] at fresh
          omega
      · refine holds.of_eq ?_ rfl ?_
        · exact untouched child fun member => inside (List.mem_range.mp member)
        · simp [Upward.step, not_lt.mp inside]

theorem step_size (state : Upward Value) (action : Action Value) :
    (state.step action).level.size = state.level.size := by
  cases action with
  | sendUp rank sample =>
      simp only [step]
      cases sent : state.level.sendUp rank sample with
      | error reason => rfl
      | ok level => exact (Level.sendUp_ok sent).1
  | check => rfl
  | collect => exact (Level.takeSamples_slots List.nodup_range).2.1

theorem run_size (state : Upward Value) (actions : List (Action Value)) :
    (Transition.run step state actions).level.size = state.level.size := by
  induction actions generalizing state with
  | nil => rfl
  | cons action rest ih => exact (ih (state.step action)).trans (step_size state action)

/-- Between its two locks nothing but the test is needed for `receive_up` to
return what each child sent last. -/
theorem Sound.received (sound : state.Sound) (collecting : state.collecting = true) :
    state.received.1 = true ∧
      state.received.2.map some = (List.range state.level.size).map state.latest := by
  obtain ⟨samples, _⟩ :=
    @Level.takeSamples_slots _ _ state.level _ (List.nodup_range (n := state.level.size))
  have all : ∀ child < state.level.size, ∃ sample, state.latest child = some sample ∧
      (state.level.slot child).2 = sample ∧ NanFree sample := by
    intro child inside
    have holds := sound.holds child
    obtain ⟨sample, found⟩ :=
      Option.isSome_iff_exists.mp (holds.sent (sound.complete collecting child inside))
    exact ⟨sample, found, holds.latest sample found⟩
  simp only [Upward.received, samples, List.map_map, List.all_map, List.all_eq_true,
    List.mem_range]
  constructor
  · intro child inside
    obtain ⟨sample, _, same, nanFree⟩ := all child inside
    simp only [Function.comp_apply, same, List.all_eq_true]
    intro value member
    simp [nanFree value member]
  · apply List.map_congr_left
    intro child member
    obtain ⟨sample, found, same, _⟩ := all child (List.mem_range.mp member)
    simp only [Function.comp_apply, same, found]

/-- A call of `receive_up` that nothing interrupts is the test and the copy. -/
theorem receiveUp_eq (state : Upward Value) {sample : List (List Value)}
    (sized : state.level.size = sample.length)
    (each : ∀ values ∈ sample, values.length = state.level.numSendUp) :
    state.level.receiveUp sample =
      if (state.step .check).collecting then
        .ok ((state.step .check).received, ((state.step .check).step .collect).level)
      else .ok ((false, sample), (state.step .check).level) := by
  have checked : ¬ (state.level.size ≠ sample.length ∨
      sample.any (·.length ≠ state.level.numSendUp) = true) := by
    rw [not_or, not_not, List.any_eq_true]
    refine ⟨sized, ?_⟩
    rintro ⟨values, member, wrong⟩
    simp [each values member] at wrong
  rw [Level.receiveUp, if_neg checked]
  rfl

/-- In any run: where `receive_up` goes on to the copy it returns true, every
child has sent since the last time, and the vectors are what the children sent
last, in the order of the children; afterwards no child is fresh. Where the test
fails some child is not fresh, and nothing changes. -/
theorem receiveUp_run (size numSendUp numSendDown : Nat) (actions : List (Action Value))
    (permitted : Transition.Permitted step Permits (initial size numSendUp numSendDown) actions) :
    let state := Transition.run step (initial size numSendUp numSendDown) actions
    (state.collecting = true →
      state.received.1 = true ∧ (∀ child < size, state.fresh child = true) ∧
      state.received.2.map some = (List.range size).map state.latest ∧
      ∀ child < size, (state.step .collect).fresh child = false) ∧
    (state.collecting = false →
      ((state.step .check).collecting = false ↔ ∃ child < size, state.fresh child = false) ∧
      ((state.step .check).collecting = false → state.step .check = state)) := by
  intro state
  have sound : state.Sound := Transition.invariant_run
    (fun _ _ sound permits => Sound.step sound permits)
    (initial_sound size numSendUp numSendDown) permitted
  have sized : state.level.size = size := run_size _ actions
  refine ⟨fun collecting => ?_, fun idle => ⟨?_, fun failed => ?_⟩⟩
  · obtain ⟨returned, samples⟩ := sound.received collecting
    rw [sized] at samples
    refine ⟨returned, sized ▸ sound.complete collecting, samples, fun child inside => ?_⟩
    simp [step, sized, inside]
  · constructor
    · intro failed
      by_contra none
      push Not at none
      have complete : state.level.isComplete = true := by
        refine Level.isComplete_iff.mpr fun child inside => ?_
        rw [(sound.holds child).fresh (by simpa using none child (sized ▸ inside))]
        exact Double.one_beq_zero
      have failing : state.level.isComplete = false := failed
      simp [complete] at failing
    · rintro ⟨child, inside, stale⟩
      cases complete : state.level.isComplete with
      | false => exact complete
      | true =>
          have fresh := sound.fresh_of_complete complete (sized.symm ▸ inside)
          simp [stale] at fresh
  · have failing : state.level.isComplete = false := failed
    simp only [step, failing]
    rw [← idle]

/-- Child 1 sends again between the test and the copy. -/
def overwritten : List (Action Approximate) :=
  [.sendUp 1 [.finite 5, .finite 6], .check, .sendUp 0 [.finite 1, .finite 2], .check,
    .sendUp 1 [.finite 7, .finite 8]]

theorem receiveUp_run_overwritten :
    (Transition.run step (initial 2 2 1) overwritten).received.2.map some =
      [some [.finite 1, .finite 2], some [.finite 7, .finite 8]] := by
  have permitted : Transition.Permitted step Permits (initial 2 2 1) overwritten := by
    refine ⟨?_, rfl, ?_, rfl, ?_, trivial⟩ <;>
      exact ⟨by decide, by intro; first | rfl | contradiction, by decide +kernel⟩
  exact ((receiveUp_run 2 2 1 overwritten permitted).1 rfl).2.2.1

end Upward

end Geopm
