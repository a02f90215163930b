import Geopm.Handshake.ControllerStep

namespace Geopm.Handshake

/-! The handshake keeps its invariant. -/

namespace Invariant

variable {numRank more : Nat} {system next : System numRank}

theorem holds (invariant : Invariant more system) : system.memory.Holds more :=
  ⟨invariant.app, invariant.ctl, invariant.behind⟩

theorem initial (numRank more : Nat) : Invariant more (System.initial numRank more) := by
  refine ⟨rfl, rfl, le_refl _, fun rank => ⟨1, .arriving 0, ?_⟩, ⟨1, .counting, ?_⟩⟩
  · refine ⟨?_, rfl, le_refl _, ?_, trivial, le_refl _, Nat.zero_le _, rfl, nofun,
      fun _ _ _ => rfl, nofun, nofun, rfl, nofun, rfl⟩
    · exact Profile.program_eq.trans (Profile.programFrom_succ (by unfold numExchange; omega))
    · unfold numExchange
      omega
  · refine ⟨?_, rfl, ?_, .inl (by omega), rfl, Nat.zero_le _, nofun, fun _ _ => rfl, nofun, rfl⟩
    · exact ProfileSampler.program_eq.trans
        (ProfileSampler.programFrom_succ (by unfold numExchange; omega))
    · unfold numExchange
      omega

/-- The collectives that were entered only grow. -/
theorem arrived_update {rank : Fin numRank} {after : Process}
    (grown : (system.rank rank).arrived ≤ after.arrived) (other : Fin numRank) :
    (system.rank other).arrived ≤ (Function.update system.rank rank after other).arrived := by
  by_cases same : other = rank
  · subst same
    rwa [Function.update_self]
  · rw [Function.update_of_ne same]

theorem exec_of_tryStep {rank : Fin numRank} (stepped : system.tryStep (.rank rank) = some next) :
    ∃ memory after, (system.rank rank).exec .app system.memory (system.Together rank) =
      some (memory, after) ∧
        next = ⟨memory, Function.update system.rank rank after, system.controller⟩ := by
  obtain ⟨⟨memory, after⟩, done, rfl⟩ := Option.map_eq_some_iff.mp stepped
  exact ⟨memory, after, done, rfl⟩

theorem stepRank {rank : Fin numRank} (invariant : Invariant more system)
    (stepped : system.tryStep (.rank rank) = some next) : Invariant more next := by
  obtain ⟨memory, after, done, rfl⟩ := exec_of_tryStep stepped
  obtain ⟨exchange, stage, here⟩ := invariant.ranks rank
  have result := here.exec invariant.holds id done
  cases result with
  | unchanged grown here =>
      refine ⟨invariant.app, invariant.ctl, invariant.behind, fun other => ?_, invariant.controller⟩
      by_cases same : other = rank
      · subst same
        simp only [Function.update_self]
        exact ⟨_, _, here.mono (arrived_update grown) (le_refl _)⟩
      · simp only [Function.update_of_ne same]
        obtain ⟨exchange, stage, there⟩ := invariant.ranks other
        exact ⟨exchange, stage, there.mono (arrived_update grown) (le_refl _)⟩
  | @publish after status stage grown following first together kind here =>
      have behind := invariant.behind
      have turn := here.behind
      refine ⟨rfl, invariant.ctl, behind.trans (by simp only; omega), fun other => ?_, ?_⟩
      · by_cases same : other = rank
        · subst same
          simp only [Function.update_self]
          exact ⟨_, _, here.mono (arrived_update grown) (le_refl _)⟩
        · simp only [Function.update_of_ne same]
          obtain ⟨exchange, stage, there⟩ := invariant.ranks other
          -- only the first rank publishes other statuses than those of a loop
          have others : decide (other.val = 0) = true → IsLoop more status := by
            intro writes
            obtain writer | loop := kind
            · exact absurd (Fin.ext ((of_decide_eq_true writes).trans
                (of_decide_eq_true writer).symm)) same
            · exact loop
          have published := there.publish following first (together other) behind others
          exact ⟨exchange, stage, published.mono (arrived_update grown) (le_refl _)⟩
      · obtain ⟨position, stage, there⟩ := invariant.controller
        exact ⟨position, stage, there.publish following turn⟩

theorem stepController (invariant : Invariant more system)
    (stepped : system.tryStep .controller = some next) : Invariant more next := by
  obtain ⟨⟨memory, after⟩, done, rfl⟩ := Option.map_eq_some_iff.mp stepped
  obtain ⟨exchange, stage, here⟩ := invariant.controller
  have result := here.exec invariant.holds done
  cases result with
  | unchanged exchange stage here =>
      exact ⟨invariant.app, invariant.ctl, invariant.behind, invariant.ranks, exchange, stage, here⟩
  | @publish after exchange position stage status reached here =>
      have grown : system.memory.ctl.changes ≤ exchange := by omega
      refine ⟨invariant.app, rfl, reached.ge, fun rank => ?_, position, stage, here⟩
      obtain ⟨exchange, stage, there⟩ := invariant.ranks rank
      exact ⟨exchange, stage, there.mono (fun _ => le_refl _) grown⟩

theorem step (invariant : Invariant more system) (actor : Actor numRank) :
    Invariant more (system.step actor) := by
  unfold System.step
  cases stepped : system.tryStep actor with
  | none => exact invariant
  | some next =>
      cases actor with
      | rank rank => exact invariant.stepRank stepped
      | controller => exact invariant.stepController stepped

theorem run (invariant : Invariant more system) (actors : List (Actor numRank)) :
    Invariant more (Transition.run System.step system actors) := by
  induction actors generalizing system with
  | nil => exact invariant
  | cons actor rest ih => exact ih (invariant.step actor)

end Invariant

end Geopm.Handshake
