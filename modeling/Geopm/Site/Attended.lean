import Geopm.Site.Model

namespace Geopm

/-! The root of a site is attended to as the session of its daemon says. -/

open Daemon (Session reached)
open Endpoint (Agents shared mailbox)

namespace Site

/-- Where a root joins the endpoint of a daemon, and what it says of itself. -/
structure Entry where
  agents : Agents
  before : List Daemon.Action
  user : Nat
  agent : PolicyStore.Name
  profile : PolicyStore.Name
  hostlistPath : List Char
  hosts : List (List Char)

namespace Entry

variable (entry : Entry)

def register : Daemon.Action :=
  .user (.register entry.user entry.agent.chars entry.profile.chars entry.hostlistPath entry.hosts)

/-- The daemon after actions that follow on the registration. -/
def daemonAfter (actions : List Daemon.Action) : Daemon.DaemonImp Endpoint.PolicyShmem Endpoint.SampleShmem :=
  reached shared entry.agents (entry.before ++ entry.register :: actions)

/-- The session after such actions. -/
def sessionAfter (actions : List Daemon.Action) : Session :=
  Simulation.after (Session.perform entry.agents entry.user entry.agent entry.profile 1)
    (Session.start entry.agents entry.before) actions

/-- The agent has one policy and three samples, and its registration succeeds while no update is busy with an agent. -/
structure Joined : Prop where
  known : entry.agents entry.agent.chars = some (1, 3)
  somebody : entry.agent.chars ≠ []
  unaware : (reached shared entry.agents entry.before).stage.Unaware
  joins : Daemon.Joins entry.user (reached shared entry.agents entry.before).endpoint
  sized : ∃ imp, (reached shared entry.agents entry.before).endpoint.users entry.user = some imp ∧ imp.numSample = 3
  registers : (Daemon.perform shared entry.agents (reached shared entry.agents entry.before) entry.register).1 = .user .done

/-- The site when the root has registered, before the first walk. -/
def start (job : PowerGovernor.Job) : Site := ⟨entry.daemonAfter [], .ok job.system.initial⟩

variable {entry} {actions : List Daemon.Action} {action : Daemon.Action}

theorem daemonAfter_concat : entry.daemonAfter (actions ++ [action]) =
    (Daemon.perform shared entry.agents (entry.daemonAfter actions) action).2 := by
  have split : entry.before ++ entry.register :: (actions ++ [action]) =
      entry.before ++ entry.register :: actions ++ [action] := by simp
  rw [daemonAfter, split]
  exact Transition.run_concat action

theorem sessionAfter_concat : entry.sessionAfter (actions ++ [action]) =
    (Session.perform entry.agents entry.user entry.agent entry.profile 1 (entry.sessionAfter actions) action).2 :=
  Transition.run_concat action

/-- The calls of users change nothing in the session. -/
theorem sessionAfter_user (call : Endpoint.Call) :
    entry.sessionAfter (actions ++ [.user call]) = entry.sessionAfter actions := by
  rw [sessionAfter_concat]
  cases call with
  | readPolicy reader size now => rfl
  | createPolicy => rfl
  | createSample => rfl
  | clear => rfl
  | close => rfl
  | writePolicy policy now => rfl
  | readSample size now => rfl
  | getAgent => rfl
  | getProfileName => rfl
  | getHostnames => rfl
  | attachPolicy user numSample => rfl
  | attachSample user => rfl
  | register user agentName profileName hostlistPath hosts => rfl
  | writeSample user sample now => rfl
  | detach user => rfl

theorem register_numSample {Policy Sample : Type} {regions : Endpoint.Regions Policy Sample}
    {state : Endpoint.State Policy Sample} {user : Nat} {agent profile path : List Char} {hosts : List (List Char)}
    {imp : Endpoint.EndpointUserImp} (found : state.users user = some imp)
    (registers : (Endpoint.register regions state user agent profile path hosts).1 = .done) :
    ∃ stage, (Endpoint.register regions state user agent profile path hosts).2.users user = some { imp with stage } := by
  obtain ⟨policyShmem, numSample, stage⟩ := imp
  rw [Endpoint.register, found] at registers ⊢
  cases stage with
  | attaching => cases registers
  | attached shmem path => cases registers
  | registering shmem =>
      simp only at registers ⊢
      cases told : regions.register agent profile path (state.samples shmem) with
      | error reason =>
          rw [told] at registers
          cases registers
      | ok data => exact ⟨_, Function.update_self _ _ _⟩

theorem writeSample_done {agents : Agents} {place : Daemon.Place} {agent profile : PolicyStore.Name}
    {state : Endpoint.State Endpoint.Message Endpoint.SampleBox} {sample : List Number}
    (hosts : Daemon.Hosts place agent profile state) (numSample : place.numSample = 3) (sized : sample.length = 3) (now : ℚ) :
    (Endpoint.perform mailbox agents state (.writeSample place.user sample now)).1 = .done := by
  have fits : mailbox.writeSample sample now (state.samples place.sampleShmem) =
      .ok { state.samples place.sampleShmem with message := ⟨sample, now⟩ } := by
    refine if_neg ?_
    rw [sized]
    decide
  have same : ¬sample.length ≠ place.numSample := not_not.mpr (sized.trans numSample.symm)
  have written : Endpoint.writeSample mailbox state place.user sample now = .ok (state.setSample place.sampleShmem
      { state.samples place.sampleShmem with message := ⟨sample, now⟩ }) := by
    simp only [Endpoint.writeSample, hosts.attached, bind, Except.bind, if_neg same, fits]
    rfl
  simp only [Endpoint.perform, written, Endpoint.changes]

/-- The root writes samples that fit. -/
theorem Joined.writes (joined : entry.Joined) (undisturbed : ∀ action ∈ actions, action.Undisturbed)
    {sample : List Number} (sized : sample.length = 3) (now : ℚ) :
    (Daemon.perform shared entry.agents (entry.daemonAfter actions) (.user (.writeSample entry.user sample now))).1 =
      .user .done := by
  obtain ⟨place, here, serves⟩ :=
    Daemon.serves_start entry.agent entry.profile 1 joined.unaware joined.joins joined.registers
  have simulates := Daemon.simulates (Endpoint.simulating_mailbox.simulates entry.agents)
  have represents := Daemon.reached_mailbox entry.agents entry.before
  have numSample : place.numSample = 3 := by
    obtain ⟨imp, found, sized⟩ := joined.sized
    have registers := (simulates _ _ entry.register represents).1
    rw [joined.registers] at registers
    rw [represents.endpoint.users] at found
    obtain ⟨stage, registered⟩ := register_numSample found (Daemon.Reply.user.inj registers.symm)
    have user := serves.hosts.user
    rw [here] at user
    have same := Option.some.inj (user.symm.trans registered)
    rw [← sized]
    exact congrArg Endpoint.EndpointUserImp.numSample same
  have later := (serves.run joined.known joined.somebody (by decide) undisturbed).hosts
  have same := (simulates _ _ (.user (.writeSample entry.user sample now)) (Daemon.reached_mailbox entry.agents
    (entry.before ++ entry.register :: actions))).1
  have split : reached mailbox entry.agents (entry.before ++ entry.register :: actions) =
      Simulation.after (Daemon.perform mailbox entry.agents)
        (Daemon.perform mailbox entry.agents (reached mailbox entry.agents entry.before) entry.register).2 actions :=
    Transition.run_append
  rw [daemonAfter, same, split]
  rw [← here]
  exact congrArg Daemon.Reply.user (writeSample_done later numSample sized now)

/-- The root reads what the session says. -/
theorem Joined.reads (joined : entry.Joined) (undisturbed : ∀ action ∈ actions, action.Undisturbed)
    {message : Endpoint.Message} (delivered : (entry.sessionAfter actions).delivered = some message) (now : ℚ) :
    (Daemon.perform shared entry.agents (entry.daemonAfter actions) (.user (.readPolicy entry.user 1 now))).1 =
      .user (Daemon.served 1 now message) := by
  refine Daemon.session_served entry.agent entry.profile joined.known joined.somebody (by decide) joined.unaware joined.joins
    joined.registers undisturbed trivial ?_
  change (if entry.user = entry.user then _ else none) = _
  rw [if_pos rfl]
  change Option.map _ (entry.sessionAfter actions).delivered = _
  rw [delivered]
  rfl

end Entry

end Site

end Geopm
