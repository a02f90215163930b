import Geopm.Daemon.Served

namespace Geopm

/-! Whatever else is done, the daemon does for a user what the session says. -/

namespace Daemon

open Endpoint (Agents EndpointImp EndpointUserImp SampleBox mailbox shared)
open PolicyStore (Store StoreError Stored)

section

variable {agents : Agents} {place : Place} {agent profile : PolicyStore.Name} {count numSample : Nat} {session : Session}
  {daemon : DaemonImp Endpoint.Message SampleBox} {action : Action}

/-- The daemon replies as the session says, and stays where it says. -/
def Agrees (agents : Agents) (place : Place) (agent profile : PolicyStore.Name) (count : Nat) (said : Option Reply × Session)
    (done : Reply × DaemonImp Endpoint.Message SampleBox) : Prop :=
  (∀ reply, said.1 = some reply → done.1 = reply) ∧ Serves agents place agent profile count said.2 done.2

namespace Serves

/-- The update goes on. -/
theorem moves (serves : Serves agents place agent profile count session daemon) (stage : Stage)
    {next : Endpoint.State Endpoint.Message SampleBox} (kept : Kept place agent profile count daemon.endpoint next)
    (knows : stage.Knows agent profile count next.endpoint.numPolicy) (reply : Reply) :
    Agrees agents place agent profile count (some reply, { session with stage })
      (reply, { daemon with endpoint := next, stage }) :=
  ⟨fun _ same => Option.some.inj same,
    { serves with
      hosts := kept.hosts
      stage := rfl
      knows := knows
      delivered := fun message found => kept.policy.trans (serves.delivered message found) }⟩

theorem user (serves : Serves agents place agent profile count session daemon)
    (known : agents agent.chars = some (count, numSample)) (somebody : agent.chars ≠ []) {call : Endpoint.Call}
    (undisturbed : (Action.user call).Undisturbed) :
    Agrees agents place agent profile count (session.perform agents place.user agent profile count (.user call))
      (Daemon.perform mailbox agents daemon (.user call)) := by
  have kept := serves.hosts.call known somebody undisturbed
  have same : (session.perform agents place.user agent profile count (.user call)).2 = session := by cases call <;> rfl
  constructor
  · intro reply said
    cases call with
    | readPolicy reader size now =>
        change (if reader = place.user then _ else none) = some reply at said
        by_cases own : reader = place.user
        · rw [if_pos own, Option.map_eq_some_iff] at said
          obtain ⟨message, delivered, rfl⟩ := said
          rw [own, ← serves.delivered message delivered]
          exact congrArg Reply.user (serves.hosts.readPolicy size now)
        · rw [if_neg own] at said
          cases said
    | _ => cases said
  · rw [same]
    exact { serves with
      hosts := kept.hosts
      knows := serves.knows.kept kept.numPolicy
      delivered := fun message found => kept.policy.trans (serves.delivered message found) }

theorem store (serves : Serves agents place agent profile count session daemon) (call : PolicyStore.Call) :
    Agrees agents place agent profile count (session.perform agents place.user agent profile count (.store call))
      (Daemon.perform mailbox agents daemon (.store call)) := by
  rw [Session.perform, Daemon.perform]
  by_cases fit : fits agents call = true
  · obtain ⟨next, done, stored⟩ := serves.stored.next (fits_iff.mp fit)
    rw [if_pos fit, done]
    exact ⟨fun _ same => Option.some.inj same,
      { serves with
        stored := stored
        fit := List.forall_mem_append.mpr ⟨serves.fit, List.forall_mem_singleton.mpr (fits_iff.mp fit)⟩ }⟩
  · rw [if_neg fit]
    constructor
    · intro reply same
      cases same
    · exact { serves with stored := (stored_unfit fit).symm ▸ serves.stored }

/-- One access of the update to what is shared. -/
theorem proceed (serves : Serves agents place agent profile count session daemon)
    (known : agents agent.chars = some (count, numSample)) (somebody : agent.chars ≠ [])
    (few : count ≤ Endpoint.policyMax) (now : ℚ) (stopped late : Bool) :
    Agrees agents place agent profile count
      (session.perform agents place.user agent profile count (.proceed now stopped late))
      (Daemon.perform mailbox agents daemon (.proceed now stopped late)) := by
  have told := serves.hosts.getAgent known somebody
  have sized : Kept place agent profile count daemon.endpoint _ := serves.hosts.sized numSample
  have found : (if stopped = true ∨ agent.chars ≠ [] then Stage.attached else .polling) = .attached :=
    if_pos (.inr somebody)
  have knows := serves.knows
  rw [Session.perform, Daemon.perform, DaemonImp.proceed, serves.stage]
  cases stage : session.stage with
  | idle => exact ⟨fun _ same => Option.some.inj same, serves⟩
  | waiting =>
      simp only [asks_name told, found]
      exact serves.moves .attached sized trivial _
  | polling =>
      simp only [asks_name told, found]
      cases late with
      | true => exact serves.moves .idle sized trivial _
      | false => exact serves.moves .attached sized trivial _
  | attached =>
      simp only [asks_name told, if_neg somebody]
      exact serves.moves (.named agent.chars) sized ⟨rfl, rfl⟩ _
  | named other =>
      rw [stage] at knows
      simp only [asks_name serves.hosts.getProfileName, knows.1]
      exact serves.moves (.asking agent.chars profile.chars) serves.hosts.kept ⟨rfl, rfl, knows.2⟩ _
  | asking other another =>
      rw [stage] at knows
      obtain ⟨rfl, rfl, sized⟩ := knows
      have registered : numPolicy agents agent = some count := by rw [numPolicy, known, Option.map_some]
      simp only [nameOf_chars, serves.stored.getBest registered]
      cases answered : PolicyStore.answer count (PolicyStore.policyFor session.stored agent profile) with
      | error reason => exact serves.moves .idle serves.hosts.kept trivial _
      | ok policy =>
          have size := length_answer (length_policyFor serves.fit registered) answered
          exact serves.moves (.writing policy) serves.hosts.kept ⟨size, sized⟩ _
  | writing policy =>
      rw [stage] at knows
      simp only [serves.hosts.writePolicy knows.2 knows.1 few now]
      refine ⟨fun _ same => Option.some.inj same, ?_⟩
      exact { serves with
        hosts := { serves.hosts with }
        stage := rfl
        knows := trivial
        delivered := fun message same => by
          cases same
          exact Function.update_self _ _ _ }

theorem perform (serves : Serves agents place agent profile count session daemon)
    (known : agents agent.chars = some (count, numSample)) (somebody : agent.chars ≠ [])
    (few : count ≤ Endpoint.policyMax) (undisturbed : action.Undisturbed) :
    Agrees agents place agent profile count (session.perform agents place.user agent profile count action)
      (Daemon.perform mailbox agents daemon action) := by
  cases action with
  | user call => exact serves.user known somebody undisturbed
  | store call => exact serves.store call
  | update =>
      rw [Session.perform, Daemon.perform, serves.stage]
      by_cases idle : session.stage = .idle
      · rw [if_pos idle, if_pos idle]
        exact serves.moves .waiting serves.hosts.kept trivial _
      · rw [if_neg idle, if_neg idle]
        exact ⟨fun _ same => Option.some.inj same, serves⟩
  | proceed now stopped late => exact serves.proceed known somebody few now stopped late

theorem run (serves : Serves agents place agent profile count session daemon)
    (known : agents agent.chars = some (count, numSample)) (somebody : agent.chars ≠ [])
    (few : count ≤ Endpoint.policyMax) {actions : List Action} (undisturbed : ∀ action ∈ actions, action.Undisturbed) :
    Serves agents place agent profile count
      (Simulation.after (Session.perform agents place.user agent profile count) session actions)
      (Simulation.after (Daemon.perform mailbox agents) daemon actions) := by
  induction actions generalizing session daemon with
  | nil => exact serves
  | cons action rest ih =>
      rw [List.forall_mem_cons] at undisturbed
      exact ih (serves.perform known somebody few undisturbed.1).2 undisturbed.2

end Serves

end

/-- Where the daemon is after the actions. -/
def reached {Policy Sample : Type} (regions : Endpoint.Regions Policy Sample) (agents : Agents) (actions : List Action) :
    DaemonImp Policy Sample :=
  Simulation.after (perform regions agents) (initial regions) actions

/-- What a user depends on when it registers after the actions. -/
def Session.start (agents : Agents) (actions : List Action) : Session :=
  ⟨storedBy agents actions, (reached shared agents actions).stage, none⟩

section

variable {agents : Agents} {before session : List Action} {user count numSample : Nat} (agent profile : PolicyStore.Name)
  {path : List Char} {hosts : List (List Char)} {action : Action} {reply : Reply}

theorem reached_mailbox (agents : Agents) (actions : List Action) :
    Represents (Endpoint.Represents Endpoint.HoldsPolicy Endpoint.HoldsSample) (reached shared agents actions)
      (reached mailbox agents actions) :=
  (simulates (Endpoint.simulating_mailbox.simulates agents)).after ⟨Endpoint.represents_initial, rfl, rfl⟩

theorem fit_storedBy (actions : List Action) : ∀ call ∈ storedBy agents actions, call.Fits (numPolicy agents) := by
  induction actions with
  | nil => exact fun _ member => (nomatch member)
  | cons action rest ih =>
      cases action with
      | user call => exact ih
      | update => exact ih
      | proceed now stopped late => exact ih
      | store call =>
          rw [storedBy]
          by_cases fit : fits agents call = true
          · rw [if_pos fit]
            exact List.forall_mem_cons.mpr ⟨fits_iff.mp fit, ih⟩
          · rw [if_neg fit]
            exact ih

/-- A user that has registered is known to the endpoint. -/
theorem hosts_registered {state : Endpoint.State Endpoint.Message SampleBox} (joins : Joins user state)
    (registers : (Endpoint.perform mailbox agents state (.register user agent.chars profile.chars path hosts)).1 = .done) :
    ∃ place : Place, place.user = user ∧ Hosts place agent profile
      (Endpoint.perform mailbox agents state (.register user agent.chars profile.chars path hosts)).2 := by
  obtain ⟨isOpen, policyShmem, sampleShmem, numSample, policy, sample, joining⟩ := joins
  refine ⟨⟨user, policyShmem, sampleShmem, numSample, path⟩, rfl, ?_⟩
  rw [Endpoint.perform, Endpoint.register, joining] at registers ⊢
  cases registered : mailbox.register agent.chars profile.chars path (state.samples sampleShmem) with
  | error reason =>
      simp only [registered] at registers
      cases registers
  | ok box =>
      have told : box.registration.agent = agent.chars ∧ box.registration.profileName = profile.chars := by
        change (if Endpoint.agentNameMax ≤ agent.chars.length then _ else
          if Endpoint.profileNameMax ≤ profile.chars.length then _ else _) = _ at registered
        by_cases long : Endpoint.agentNameMax ≤ agent.chars.length
        · rw [if_pos long] at registered
          cases registered
        · rw [if_neg long] at registered
          by_cases longer : Endpoint.profileNameMax ≤ profile.chars.length
          · rw [if_pos longer] at registered
            cases registered
          · rw [if_neg longer] at registered
            cases registered
            exact ⟨cString_free agent.terminated, cString_free profile.terminated⟩
      simp only [registered]
      have here : Function.update state.samples sampleShmem box sampleShmem = box := Function.update_self _ _ _
      exact {
        isOpen := isOpen
        policyShmem := policy
        sampleShmem := sample
        user := Function.update_self _ _ _
        agent := (congrArg (fun box => box.registration.agent) here).trans told.1
        profileName := (congrArg (fun box => box.registration.profileName) here).trans told.2 }

theorem serves_start (count : Nat) (unaware : (reached shared agents before).stage.Unaware)
    (joins : Joins user (reached shared agents before).endpoint)
    (registers : (perform shared agents (reached shared agents before)
      (.user (.register user agent.chars profile.chars path hosts))).1 = .user .done) :
    ∃ place : Place, place.user = user ∧ Serves agents place agent profile count (Session.start agents before)
      (perform mailbox agents (reached mailbox agents before)
        (.user (.register user agent.chars profile.chars path hosts))).2 := by
  have represents := reached_mailbox agents before
  have replies := ((simulates (Endpoint.simulating_mailbox.simulates agents)) _ _
    (.user (.register user agent.chars profile.chars path hosts)) represents).1
  rw [registers] at replies
  have joins : Joins user (reached mailbox agents before).endpoint := by
    rw [Joins, represents.endpoint.endpoint, represents.endpoint.users] at joins
    exact joins
  obtain ⟨place, same, hosts⟩ := hosts_registered agent profile joins (Reply.user.inj replies).symm
  have stored : Stored ([] ++ storedBy agents before) (reached mailbox agents before).store :=
    stored_after Stored.new before
  exact ⟨place, same,
    { hosts := hosts
      stored := stored
      fit := fit_storedBy before
      stage := represents.stage.symm
      knows := unaware.knows
      delivered := fun _ none => (nomatch none) }⟩

/-- From its registration on, while no other user comes and it does not go, a user is served as the session says,
whatever else is done in between: a policy of the daemon is the one that was stored for its agent and its profile, and
the daemon fails where there is no policy alone. -/
theorem session_served (known : agents agent.chars = some (count, numSample)) (somebody : agent.chars ≠ [])
    (few : count ≤ Endpoint.policyMax) (unaware : (reached shared agents before).stage.Unaware)
    (joins : Joins user (reached shared agents before).endpoint)
    (registers : (perform shared agents (reached shared agents before)
      (.user (.register user agent.chars profile.chars path hosts))).1 = .user .done)
    (undisturbed : ∀ action ∈ session, action.Undisturbed) (next : action.Undisturbed)
    (said : (Session.perform agents user agent profile count
      (Simulation.after (Session.perform agents user agent profile count) (Session.start agents before) session)
        action).1 = some reply) :
    (perform shared agents
      (reached shared agents (before ++ .user (.register user agent.chars profile.chars path hosts) :: session))
        action).1 = reply := by
  obtain ⟨place, rfl, serves⟩ := serves_start agent profile count unaware joins registers
  have later := serves.run known somebody few undisturbed
  have reached_after : reached mailbox agents
      (before ++ .user (.register place.user agent.chars profile.chars path hosts) :: session) =
      Simulation.after (perform mailbox agents) (perform mailbox agents (reached mailbox agents before)
        (.user (.register place.user agent.chars profile.chars path hosts))).2 session := Transition.run_append
  have same := (simulates (Endpoint.simulating_mailbox.simulates agents) _ _ action (reached_mailbox agents
    (before ++ .user (.register place.user agent.chars profile.chars path hosts) :: session))).1
  rw [same, reached_after]
  exact (later.perform known somebody few next).1 reply said

/-- A policy that is replaced after the daemon has asked for it. -/
theorem session_served_replaced :
    (perform shared (fun _ => some (2, 3))
      (reached shared (fun _ => some (2, 3))
        ([.user .createPolicy, .user .createSample, .user .clear, .user (.attachPolicy 0 3), .user (.attachSample 0)] ++
          .user (.register 0 ['a'] ['p'] ['f'] []) ::
          [.update, .proceed 1 false false, .store (.setBest ⟨['a'], by decide⟩ ⟨['p'], by decide⟩ [.value 5]),
            .proceed 2 false false, .proceed 3 false false, .proceed 4 false false,
            .store (.setBest ⟨['a'], by decide⟩ ⟨['p'], by decide⟩ [.value 6]), .proceed 7 false false]))
        (.user (.readPolicy 0 3 9))).1 = .user (.values [.value 5, .nan, .nan] 2) :=
  session_served ⟨['a'], by decide⟩ ⟨['p'], by decide⟩ rfl (by decide) (by decide) trivial
    ⟨rfl, 0, 0, 3, rfl, rfl, rfl⟩ (by decide +kernel) (by simp [Action.Undisturbed]) trivial (by decide +kernel)

end

end Daemon

end Geopm
