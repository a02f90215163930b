import Geopm.Site.Attended

namespace Geopm

/-! A policy that the daemon has delivered stays delivered, and the controllers walk with it. -/

open Daemon (Session)
open PowerGovernor (Job Steady)

namespace Site

variable {entry : Entry} {job : Job} {events later : List Event} {event : Event} {site : Site} {power : ℚ}

/-- The daemon has delivered the budget, and no update will deliver another one as long as no policy is set. -/
structure Brings (agent profile : PolicyStore.Name) (power : ℚ) (session : Session) : Prop where
  delivered : ∃ time, session.delivered = some ⟨[.value power], time⟩
  stored : PolicyStore.answer 1 (PolicyStore.policyFor session.stored agent profile) = .ok [.value power]
  writing : ∀ policy, session.stage = .writing policy → policy = [.value power]

/-- No policy of the agent is set. -/
def Leaves (agent : PolicyStore.Name) : Event → Prop
  | .daemon (.store call) => call.agent ≠ agent
  | _ => True

theorem policyFor_other {calls : List PolicyStore.Call} {call : PolicyStore.Call} {agent profile : PolicyStore.Name}
    (other : call.agent ≠ agent) :
    PolicyStore.policyFor (calls ++ [call]) agent profile = PolicyStore.policyFor calls agent profile := by
  have best : call.best? agent profile = none := by
    cases call with
    | setBest set another policy => exact if_neg fun same => other same.1
    | setDefault set policy => rfl
  have default : call.default? agent = none := by
    cases call with
    | setBest set another policy => rfl
    | setDefault set policy => exact if_neg fun same => other same
  rw [PolicyStore.policyFor, PolicyStore.policyFor, PolicyStore.lastBest_concat, PolicyStore.lastDefault_concat, best,
    default]
  rfl

/-- No action but one that sets a policy takes the budget away. -/
theorem Brings.perform {agents : Endpoint.Agents} {user : Nat} {agent profile : PolicyStore.Name} {session : Session}
    {action : Daemon.Action} (brings : Brings agent profile power session) (leaves : Leaves agent (.daemon action)) :
    Brings agent profile power (session.perform agents user agent profile 1 action).2 := by
  have moves : ∀ stage : Daemon.Stage, (∀ policy, stage = .writing policy → policy = [.value power]) →
      Brings agent profile power { session with stage } :=
    fun stage writing => { brings with writing }
  cases action with
  | user call =>
      cases call with
      | readPolicy reader size now => exact brings
      | createPolicy => exact brings
      | createSample => exact brings
      | clear => exact brings
      | close => exact brings
      | writePolicy policy now => exact brings
      | readSample size now => exact brings
      | getAgent => exact brings
      | getProfileName => exact brings
      | getHostnames => exact brings
      | attachPolicy user numSample => exact brings
      | attachSample user => exact brings
      | register user agentName profileName hostlistPath hosts => exact brings
      | writeSample user sample now => exact brings
      | detach user => exact brings
  | store call =>
      rw [Session.perform]
      by_cases fit : Daemon.fits agents call = true
      · rw [if_pos fit]
        refine { brings with stored := ?_ }
        rw [policyFor_other leaves]
        exact brings.stored
      · rw [if_neg fit]
        exact brings
  | update =>
      rw [Session.perform]
      by_cases idle : session.stage = .idle
      · simp only [if_pos idle]
        exact moves _ fun policy same => by cases same
      · simp only [if_neg idle]
        exact brings
  | proceed now stopped late =>
      rw [Session.perform]
      cases stage : session.stage with
      | idle => exact brings
      | waiting => exact moves _ fun policy same => by cases same
      | polling =>
          cases late with
          | true => exact moves _ fun policy same => by cases same
          | false => exact moves _ fun policy same => by cases same
      | attached => exact moves _ fun policy same => by cases same
      | named name => exact moves _ fun policy same => by cases same
      | asking name another =>
          simp only [brings.stored]
          exact moves _ fun policy same => (Daemon.Stage.writing.inj same).symm
      | writing policy =>
          have same := brings.writing policy stage
          exact ⟨⟨now, by rw [same]⟩, brings.stored, fun policy same => by cases same⟩

/-- The calls on the endpoint are those that the session knows of. -/
def Attended (entry : Entry) (events : List Event) (site : Site) : Prop :=
  ∃ log, (∀ action ∈ log, action.Undisturbed) ∧ site.daemon = entry.daemonAfter log ∧
    entry.sessionAfter log = entry.sessionAfter (daemonActions events)

theorem Attended.call {call : Endpoint.Call} (attended : Attended entry events site)
    (undisturbed : (Daemon.Action.user call).Undisturbed) : Attended entry events (site.call entry.agents call).2 := by
  obtain ⟨log, each, same, session⟩ := attended
  refine ⟨log ++ [.user call], ?_, ?_, ?_⟩
  · exact List.forall_mem_append.mpr ⟨each, List.forall_mem_singleton.mpr undisturbed⟩
  · rw [Entry.daemonAfter_concat, ← same]
    rfl
  · rw [Entry.sessionAfter_user, session]

/-- A sample is written, and the job goes on. -/
theorem Attended.write (joined : entry.Joined) (attended : Attended entry events site) (now : ℚ)
    (sample : PowerGovernor.Sample) :
    Attended entry events (write entry.agents entry.user now site sample) ∧
      (write entry.agents entry.user now site sample).job = site.job := by
  have after := @Attended.call entry events site
    (.writeSample entry.user [sample.power, sample.isConverged, sample.powerEnforced] now) attended trivial
  obtain ⟨log, each, same, _⟩ := attended
  have done := joined.writes each (by rfl : [sample.power, sample.isConverged, sample.powerEnforced].length = 3) now
  rw [← same] at done
  simp only [Site.write, Site.call, done]
  exact ⟨after, trivial⟩

theorem Attended.writes (joined : entry.Joined) (attended : Attended entry events site) (now : ℚ)
    (samples : List PowerGovernor.Sample) :
    Attended entry events (samples.foldl (Site.write entry.agents entry.user now) site) ∧
      (samples.foldl (Site.write entry.agents entry.user now) site).job = site.job := by
  induction samples generalizing site with
  | nil => exact ⟨attended, rfl⟩
  | cons sample rest ih =>
      obtain ⟨after, same⟩ := attended.write joined now sample
      obtain ⟨last, kept⟩ := ih after
      exact ⟨last, kept.trans same⟩

theorem daemonActions_append : daemonActions (events ++ later) = daemonActions events ++ daemonActions later := by
  induction events with
  | nil => rfl
  | cons event rest ih =>
      cases event with
      | daemon action => exact congrArg (action :: ·) ih
      | walkDown rank now => exact ih
      | walkUp rank pkgPower now => exact ih

theorem Attended.walkUp (joined : entry.Joined) (attended : Attended entry events site) (rank : Nat) (pkgPower : Number)
    (now : ℚ) : Attended entry events (site.walkUp entry.agents entry.user job rank pkgPower now) ∧
      (site.walkUp entry.agents entry.user job rank pkgPower now).job = (site.walk job (.walkUp rank pkgPower)).job :=
  Attended.writes joined (show Attended entry events (site.walk job (.walkUp rank pkgPower)) from attended) now _

theorem Attended.walkDown (attended : Attended entry events site) (rank : Nat) (now : ℚ) :
    Attended entry events (site.walkDown entry.agents entry.user job rank now) := by
  rw [Site.walkDown]
  by_cases root : rank = 0
  · have after := @Attended.call entry events site (.readPolicy entry.user 1 now) attended trivial
    rw [if_pos root]
    cases read : site.call entry.agents (.readPolicy entry.user 1 now) with
    | mk reply next =>
        rw [read] at after
        simp only
        split
        · exact after
        · exact after
        · exact after
  · rw [if_neg root]
    exact attended

theorem attended_step (joined : entry.Joined) (attended : Attended entry events site) (permits : site.Permits job event) :
    Attended entry (events ++ [event]) (site.step entry.agents entry.user job event) := by
  have same : ∀ next : Site, daemonActions [event] = [] → Attended entry events next →
      Attended entry (events ++ [event]) next := by
    intro next none attended
    obtain ⟨log, each, daemon, session⟩ := attended
    exact ⟨log, each, daemon, by rw [session, daemonActions_append, none, List.append_nil]⟩
  cases event with
  | daemon action =>
      obtain ⟨log, each, daemon, session⟩ := attended
      refine ⟨log ++ [action], List.forall_mem_append.mpr ⟨each, List.forall_mem_singleton.mpr permits⟩, ?_, ?_⟩
      · rw [Entry.daemonAfter_concat, ← daemon]
        rfl
      · rw [daemonActions_append, Entry.sessionAfter_concat, session]
        exact Entry.sessionAfter_concat.symm
  | walkDown rank now => exact same _ rfl (attended.walkDown rank now)
  | walkUp rank pkgPower now => exact same _ rfl (attended.walkUp joined rank pkgPower now).1

/-- The root walks down with the budget that the daemon has delivered. -/
theorem Attended.reads (joined : entry.Joined) (attended : Attended entry events site)
    (brings : Brings entry.agent entry.profile power (entry.sessionAfter (daemonActions events))) (now : ℚ) :
    (site.walkDown entry.agents entry.user job 0 now).job = (site.walk job (.walkDown 0 (.value power))).job := by
  obtain ⟨log, each, same, session⟩ := attended
  obtain ⟨time, delivered⟩ := brings.delivered
  rw [← session] at delivered
  have reply := joined.reads each delivered now
  rw [← same] at reply
  have values : Daemon.served 1 now ⟨[.value power], time⟩ = .values [.value power] (now - time) := rfl
  simp only [Site.walkDown, if_pos, Site.call, reply, values]
  rfl

end Site

end Geopm
