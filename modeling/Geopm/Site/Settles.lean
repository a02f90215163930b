import Geopm.Site.Served

namespace Geopm

/-! A policy that is set in the store of a daemon reaches all nodes of the job. -/

open PowerGovernor (Job KeepsBudget Ordered Round SettledFrom Steady)

namespace Site

variable {entry : Entry} {job : Job} {events later : List Event} {event : Event} {site : Site} {power : ℚ}
  {state : Controllers.State Number PowerGovernor.Sample PowerGovernor.LevelAgent}

/-- The session knows of all calls, and the controllers are as walks leave them. -/
structure Sound (entry : Entry) (job : Job) (events : List Event) (site : Site) : Prop where
  attended : Attended entry events site
  steady : ∀ state, site.job = .ok state → Steady job state

/-- A walk of a controller, which throws nothing. -/
theorem walk_steady {action : Controllers.System.Action Number Number} (ordered : Ordered job)
    (running : site.job = .ok state) (steady : Steady job state) (turn : site.Turn job action) :
    ∃ next, job.system.perform state action = .ok next ∧ Steady job next ∧ (site.walk job action).job = .ok next := by
  rw [Turn, running] at turn
  have kept := @PowerGovernor.perform_reached job 0 0 state [] action ordered steady turn
  cases performed : job.system.perform state action with
  | error reason =>
      rw [performed] at kept
      exact kept.elim
  | ok next =>
      rw [performed] at kept
      refine ⟨next, rfl, kept.1, ?_⟩
      rw [walk, running]
      simp only [Except.bind, performed]
      rfl

theorem steady_walk {action : Controllers.System.Action Number Number} (ordered : Ordered job)
    (steady : ∀ state, site.job = .ok state → Steady job state) (turn : site.Turn job action) :
    ∀ state, (site.walk job action).job = .ok state → Steady job state := by
  intro after walked
  cases running : site.job with
  | error reason =>
      rw [walk, running] at walked
      cases walked
  | ok state =>
      obtain ⟨next, _, kept, same⟩ := walk_steady ordered running (steady state running) turn
      rw [same] at walked
      exact Except.ok.inj walked ▸ kept

theorem Sound.step (joined : entry.Joined) (ordered : Ordered job) (sound : Sound entry job events site)
    (permits : site.Permits job event) : Sound entry job (events ++ [event]) (site.step entry.agents entry.user job event) where
  attended := attended_step joined sound.attended permits
  steady := by
    cases event with
    | daemon action => exact sound.steady
    | walkUp rank pkgPower now =>
        change ∀ state, (site.walkUp entry.agents entry.user job rank pkgPower now).job = .ok state → _
        rw [(sound.attended.walkUp joined rank pkgPower now).2]
        exact steady_walk ordered sound.steady permits
    | walkDown rank now =>
        change ∀ state, (site.walkDown entry.agents entry.user job rank now).job = .ok state → _
        rw [walkDown]
        by_cases root : rank = 0
        · rw [if_pos root]
          simp only [call]
          split
          · exact @steady_walk _ ⟨_, site.job⟩ _ ordered sound.steady (root ▸ permits)
          · intro state failed
            simp only [fail] at failed
            cases running : site.job with
            | error reason =>
                rw [running] at failed
                cases failed
            | ok before =>
                rw [running] at failed
                cases failed
          · exact sound.steady
        · rw [if_neg root]
          exact steady_walk ordered sound.steady permits

end Site

end Geopm
