import Geopm.Handshake.Preservation
import Mathlib.Data.Fintype.EquivFin
import Mathlib.Data.Fintype.Lattice

namespace Geopm.Handshake

/-! Neither side misses a status of the other, and they do not block each other. -/

section

variable {numRank more exchange : Nat} {arrived : Fin numRank → Nat} {isWriter : Bool}
  {process : Process} {stage : RankStage} {memory : Memory} {together : Prop} [Decidable together]

/-- A rank that waits has come to the loop that reads the status of the controller. -/
theorem RankAt.exec_of_waits
    (here : RankAt more memory.app.changes memory.ctl.changes arrived isWriter process exchange stage)
    (holds : memory.Holds more) (waits : process.Waits) :
    stage.phase = .waiting ∧
      ((process.exec .app memory together).isSome ↔ exchange ≤ memory.ctl.changes) := by
  obtain ⟨rest, spin⟩ := waits
  have whole := here.todo
  cases stage with
  | spinning =>
      rw [here.exec_spinning holds whole]
      simp [RankStage.phase]
  | awaiting =>
      rw [here.exec_awaiting holds whole]
      simp [RankStage.phase]
  | finished =>
      rw [show exchange = numExchange more from here.fits, Profile.programFrom_end] at whole
      simp [whole, RankStage.rest] at spin
  | _ =>
      simp [whole, RankStage.rest, List.replicate_succ, barrier, stepSide, wait,
        Profile.loopBegin] at spin

/-- A rank that cannot go on waits for another rank or for the controller. -/
theorem RankAt.blocked
    (here : RankAt more memory.app.changes memory.ctl.changes arrived isWriter process exchange stage)
    (holds : memory.Holds more) (apart : ¬ together → ∃ other, arrived other < process.arrived)
    (stuck : process.exec .app memory together = none) :
    (∃ other, arrived other < process.arrived) ∨
      stage.phase = .waiting ∧ (memory.ctl.changes < exchange ∨ exchange = numExchange more) := by
  have whole := here.todo
  cases stage with
  | leaving left =>
      have waits : ¬ together := by simpa [Process.exec, whole, RankStage.rest] using stuck
      exact .inl (apart waits)
  | spinning =>
      rw [here.exec_spinning holds whole] at stuck
      exact .inr ⟨rfl, .inl (by simpa using stuck)⟩
  | awaiting =>
      rw [here.exec_awaiting holds whole] at stuck
      exact .inr ⟨rfl, .inl (by simpa using stuck)⟩
  | finished => exact .inr ⟨rfl, .inr here.fits⟩
  | _ =>
      simp [Process.exec, whole, RankStage.rest, List.replicate_succ, barrier, stepSide, wait,
        Profile.loopBegin] at stuck
      try split at stuck <;> simp at stuck

theorem RankAt.finished
    (here : RankAt more memory.app.changes memory.ctl.changes arrived isWriter process exchange stage)
    (waiting : stage.phase = .waiting) (last : exchange = numExchange more) : process.Finished := by
  refine ⟨?_, here.isThrown⟩
  have fits := here.fits
  cases stage with
  | finished =>
      rw [here.todo, last, Profile.programFrom_end]
      rfl
  | counting => exact absurd last fits.2
  | spinning => exact absurd last fits.2
  | awaiting =>
      have bound := fits.2.1
      unfold numExchange at last
      omega
  | _ => simp [RankStage.phase] at waiting

end

section

variable {more exchange : Nat} {process : Process} {stage : ControllerStage} {memory : Memory}
  {together : Prop} [Decidable together]

theorem ControllerAt.exec_of_waits
    (here : ControllerAt more memory.app.changes memory.ctl.changes process exchange stage)
    (holds : memory.Holds more) (waits : process.Waits) :
    ¬ stage.IsSeen ∧
      ((process.exec .ctl memory together).isSome ↔ memory.app.changes = exchange) := by
  obtain ⟨rest, spin⟩ := waits
  have whole := here.todo
  cases stage with
  | spinning =>
      rw [here.exec_spinning holds whole]
      simp [ControllerStage.IsSeen]
  | polling =>
      rw [here.exec_polling holds whole]
      simp [ControllerStage.IsSeen]
  | naming =>
      rw [here.exec_naming holds whole]
      simp [ControllerStage.IsSeen]
  | awaiting =>
      rw [here.exec_awaiting holds whole]
      simp [ControllerStage.IsSeen]
  | finished =>
      rw [show exchange = numExchange more from here.fits, ProfileSampler.programFrom_end] at whole
      simp [whole, ControllerStage.rest] at spin
  | _ => simp [whole, ControllerStage.rest, ProfileSampler.step, stepSide, wait] at spin

/-- A controller that cannot go on waits for the application. -/
theorem ControllerAt.blocked
    (here : ControllerAt more memory.app.changes memory.ctl.changes process exchange stage)
    (holds : memory.Holds more) (stuck : process.exec .ctl memory together = none) :
    memory.app.changes ≠ exchange ∨ stage = .finished := by
  have whole := here.todo
  cases stage with
  | spinning =>
      rw [here.exec_spinning holds whole] at stuck
      exact .inl (by simpa using stuck)
  | polling =>
      rw [here.exec_polling holds whole] at stuck
      exact .inl (by simpa using stuck)
  | naming =>
      rw [here.exec_naming holds whole] at stuck
      exact .inl (by simpa using stuck)
  | awaiting =>
      rw [here.exec_awaiting holds whole] at stuck
      exact .inl (by simpa using stuck)
  | finished => exact .inr rfl
  | _ =>
      simp [Process.exec, whole, ControllerStage.rest, ProfileSampler.step, stepSide, wait] at stuck
      try split at stuck <;> simp at stuck

theorem ControllerAt.finished
    (here : ControllerAt more memory.app.changes memory.ctl.changes process exchange .finished) :
    process.Finished := by
  refine ⟨?_, here.isThrown⟩
  rw [here.todo, show exchange = numExchange more from here.fits, ProfileSampler.programFrom_end]
  rfl

end

namespace Invariant

variable {numRank more : Nat} {system : System numRank} {exchange : Nat} {stage : RankStage}

/-- The statuses of the two sides differ by at most one. -/
theorem near (invariant : Invariant more system) :
    system.memory.app.value ≤ system.memory.ctl.value + 1 ∧
      system.memory.ctl.value ≤ system.memory.app.value + 1 := by
  obtain ⟨exchange, stage, there⟩ := invariant.controller
  have turn := there.turn
  have ahead := there.ahead
  have behind := invariant.behind
  rw [invariant.app, invariant.ctl]
  by_cases same : system.memory.app.changes = system.memory.ctl.changes
  · rw [same]
    omega
  · have next : system.memory.app.changes = system.memory.ctl.changes + 1 := by omega
    have near := @statusAt_near more system.memory.ctl.changes
    rw [next]
    omega

/-- A rank that cannot go on, where all ranks have entered its collectives, waits. -/
theorem blocked {rank : Fin numRank} (invariant : Invariant more system)
    (here : RankAt more system.memory.app.changes system.memory.ctl.changes
      (fun other => (system.rank other).arrived) (rank.val = 0) (system.rank rank) exchange stage)
    (together : ∀ other, (system.rank rank).arrived ≤ (system.rank other).arrived)
    (stuck : system.tryStep (.rank rank) = none) :
    stage.phase = .waiting ∧
      (system.memory.ctl.changes < exchange ∨ exchange = numExchange more) := by
  have done : (system.rank rank).exec .app system.memory (system.Together rank) = none :=
    Option.map_eq_none_iff.mp stuck
  obtain ⟨other, before⟩ | waits := here.blocked invariant.holds (fun apart => absurd together apart) done
  · exact absurd (together other) (by omega)
  · exact waits

/-- When nobody can go on, all have returned. -/
theorem finished (invariant : Invariant more system) (writer : Fin numRank)
    (first : writer.val = 0) (stuck : ∀ actor, system.tryStep actor = none) : system.Finished := by
  obtain ⟨position, controllerStage, there⟩ := invariant.controller
  have turn := there.turn
  have last_le := there.last_le
  have : Nonempty (Fin numRank) := ⟨writer⟩
  obtain ⟨least, smallest⟩ := Finite.exists_min fun rank => (system.rank rank).arrived
  obtain ⟨exchange, stage, here⟩ := invariant.ranks least
  obtain ⟨waiting, reason⟩ := invariant.blocked here smallest (stuck (.rank least))
  have bound := here.behind
  obtain rfl : exchange = position := by omega
  have passed := here.together (by simp [waiting])
  -- all ranks are in the exchange of the controller, and wait there
  have others : ∀ rank, ∃ stage, RankAt more system.memory.app.changes system.memory.ctl.changes
      (fun other => (system.rank other).arrived) (rank.val = 0) (system.rank rank) exchange stage ∧
        stage.phase = .waiting := by
    intro rank
    obtain ⟨later, stage, beside⟩ := invariant.ranks rank
    have reached := beside.le_of_arrived here.first (passed rank)
    have bound := beside.behind
    obtain rfl : later = exchange := by omega
    have arrivals := beside.arrivals
    have together : ∀ other, (system.rank rank).arrived ≤ (system.rank other).arrived := by
      intro other
      have entries := passed other
      omega
    exact ⟨stage, beside, (invariant.blocked beside together (stuck (.rank rank))).1⟩
  obtain ⟨writerStage, beside, waits⟩ := others writer
  have published := beside.published (.inl waits) (.inl (by simpa using first))
  obtain apart | rfl := there.blocked invariant.holds (Option.map_eq_none_iff.mp (stuck .controller))
  · exact absurd published apart
  · refine ⟨fun rank => ?_, there.finished⟩
    obtain ⟨stage, beside, waits⟩ := others rank
    exact beside.finished waits there.fits

end Invariant

/-- What holds while the ranks and the controller run. A process that waits has not been
passed by the other side, and goes on as soon as its status is there. -/
structure Safe {numRank : Nat} (system : System numRank) : Prop where
  ranks : ∀ rank, (system.rank rank).Waits →
    system.memory.ctl.changes ≤ (system.rank rank).awaited + 1 ∧
      ((system.tryStep (.rank rank)).isSome ↔
        system.memory.ctl.changes = (system.rank rank).awaited + 1)
  controller : system.controller.Waits →
    system.memory.app.changes ≤ system.controller.awaited + 1 ∧
      ((system.tryStep .controller).isSome ↔
        system.memory.app.changes = system.controller.awaited + 1)
  near : system.memory.app.value ≤ system.memory.ctl.value + 1 ∧
    system.memory.ctl.value ≤ system.memory.app.value + 1
  unthrown : (∀ rank, (system.rank rank).isThrown = false) ∧ system.controller.isThrown = false
  live : ¬ system.Finished → ∃ actor, (system.tryStep actor).isSome

theorem Invariant.safe {others more : Nat} {system : System (others + 1)}
    (invariant : Invariant more system) : Safe system where
  ranks := by
    intro rank waits
    obtain ⟨exchange, stage, here⟩ := invariant.ranks rank
    obtain ⟨position, controllerStage, there⟩ := invariant.controller
    obtain ⟨waiting, goes⟩ :=
      @RankAt.exec_of_waits _ _ _ _ _ _ _ _ (system.Together rank) _ here invariant.holds waits
    have first := here.first
    have behind := invariant.behind
    have ahead := here.ahead
    have awaited := here.awaited
    rw [waiting, if_neg (by simp)] at awaited
    refine ⟨by omega, ?_⟩
    rw [System.tryStep, Option.isSome_map, goes]
    omega
  controller := by
    intro waits
    obtain ⟨exchange, stage, here⟩ := invariant.controller
    obtain ⟨unseen, goes⟩ :=
      @ControllerAt.exec_of_waits _ _ _ _ _ False _ here invariant.holds waits
    have turn := here.turn
    have ahead := here.ahead
    have awaited := here.awaited
    rw [if_neg unseen] at awaited
    refine ⟨by omega, ?_⟩
    rw [System.tryStep, Option.isSome_map, goes]
    omega
  near := invariant.near
  unthrown := by
    constructor
    · intro rank
      obtain ⟨exchange, stage, here⟩ := invariant.ranks rank
      exact here.isThrown
    · obtain ⟨exchange, stage, here⟩ := invariant.controller
      exact here.isThrown
  live := by
    intro unfinished
    by_contra none
    refine unfinished (invariant.finished 0 rfl fun actor => ?_)
    exact Option.not_isSome_iff_eq_none.mp fun goes => none ⟨actor, goes⟩

/-- Any number of ranks and of rounds, and any order of the instructions. -/
theorem handshake_safe (others more : Nat) (actors : List (Actor (others + 1))) :
    Safe (Transition.run System.step (System.initial (others + 1) more) actors) :=
  ((Invariant.initial (others + 1) more).run actors).safe

end Geopm.Handshake
