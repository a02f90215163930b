import Geopm.Daemon.Session

namespace Geopm

/-! A user is served the policy of the store for its agent and its profile. -/

namespace Daemon

open Endpoint (Agents EndpointImp EndpointUserImp SampleBox mailbox shared)
open PolicyStore (Store StoreError Stored)

/-- A user, its regions and its file. -/
structure Place where
  user : Nat
  policyShmem : Nat
  sampleShmem : Nat
  numSample : Nat
  hostlistPath : List Char

/-- The endpoint is open, and its user is registered. -/
structure Hosts (place : Place) (agent profile : PolicyStore.Name)
    (state : Endpoint.State Endpoint.Message SampleBox) : Prop where
  isOpen : state.endpoint.isOpen = true
  policyShmem : state.endpoint.policyShmem = some place.policyShmem
  sampleShmem : state.endpoint.sampleShmem = some place.sampleShmem
  user : state.users place.user =
    some ⟨place.policyShmem, place.numSample, .attached place.sampleShmem place.hostlistPath⟩
  agent : (state.samples place.sampleShmem).registration.agent = agent.chars
  profileName : (state.samples place.sampleShmem).registration.profileName = profile.chars

/-- A call has left what the user depends on. -/
structure Kept (place : Place) (agent profile : PolicyStore.Name) (count : Nat)
    (state next : Endpoint.State Endpoint.Message SampleBox) :
    Prop where
  hosts : Hosts place agent profile next
  policy : next.policies place.policyShmem = state.policies place.policyShmem
  numPolicy : state.endpoint.numPolicy = count → next.endpoint.numPolicy = count

section

variable {agents : Agents} {place : Place} {agent profile : PolicyStore.Name} {count numSample : Nat}
  {state : Endpoint.State Endpoint.Message SampleBox}

namespace Hosts

theorem kept (hosts : Hosts place agent profile state) : Kept place agent profile count state state :=
  ⟨hosts, rfl, id⟩

theorem openPolicy (hosts : Hosts place agent profile state) : state.openPolicy = .ok place.policyShmem := by
  rw [Endpoint.State.openPolicy, hosts.isOpen, hosts.policyShmem]

theorem openSample (hosts : Hosts place agent profile state) : state.openSample = .ok place.sampleShmem := by
  rw [Endpoint.State.openSample, hosts.isOpen, hosts.sampleShmem]

theorem attached (hosts : Hosts place agent profile state) : state.attached place.user =
    .ok (⟨place.policyShmem, place.numSample, .attached place.sampleShmem place.hostlistPath⟩, place.sampleShmem,
      place.hostlistPath) := by
  rw [Endpoint.State.attached, hosts.user]

theorem getAgent (hosts : Hosts place agent profile state) (known : agents agent.chars = some (count, numSample))
    (somebody : agent.chars ≠ []) :
    Endpoint.perform mailbox agents state .getAgent =
      (.name agent.chars, { state with endpoint := { state.endpoint with numPolicy := count, numSample } }) := by
  have found : Endpoint.getAgent mailbox agents state =
      .ok (agent.chars, { state with endpoint := { state.endpoint with numPolicy := count, numSample } }) := by
    have told : mailbox.agent (state.samples place.sampleShmem) = agent.chars := hosts.agent
    simp only [Endpoint.getAgent, hosts.openSample, bind, Except.bind, told, if_neg somebody, known]
    rfl
  simp only [Endpoint.perform, found]

theorem getProfileName (hosts : Hosts place agent profile state) :
    Endpoint.perform mailbox agents state .getProfileName = (.name profile.chars, state) := by
  have found : Endpoint.getProfileName mailbox state = .ok profile.chars := by
    have told : mailbox.profileName (state.samples place.sampleShmem) = profile.chars := hosts.profileName
    simp only [Endpoint.getProfileName, hosts.openSample, bind, Except.bind, told]
    rfl
  simp only [Endpoint.perform, found, Endpoint.reads]

theorem sized (hosts : Hosts place agent profile state) (numSample : Nat) :
    Kept place agent profile count state
      { state with endpoint := { state.endpoint with numPolicy := count, numSample } } :=
  ⟨{ hosts with }, rfl, fun _ => rfl⟩

theorem writePolicy (hosts : Hosts place agent profile state) {policy : List Number}
    (sized : state.endpoint.numPolicy = count) (size : policy.length = count) (few : count ≤ Endpoint.policyMax) (now : ℚ) :
    Endpoint.perform mailbox agents state (.writePolicy policy now) =
      (.done, state.setPolicy place.policyShmem ⟨policy, now⟩) := by
  have written : Endpoint.writePolicy mailbox state policy now =
      .ok (state.setPolicy place.policyShmem ⟨policy, now⟩) := by
    have room : mailbox.writePolicy policy now (state.policies place.policyShmem) = .ok ⟨policy, now⟩ :=
      if_neg (not_lt.mpr (size ▸ few))
    have same : ¬policy.length ≠ state.endpoint.numPolicy := not_not.mpr (size.trans sized.symm)
    simp only [Endpoint.writePolicy, hosts.openPolicy, bind, Except.bind, if_neg same, room]
    rfl
  simp only [Endpoint.perform, written, Endpoint.changes]

theorem readPolicy (hosts : Hosts place agent profile state) (size : Nat) (now : ℚ) :
    (Endpoint.perform mailbox agents state (.readPolicy place.user size now)).1 =
      served size now (state.policies place.policyShmem) := by
  have read : Endpoint.readPolicy mailbox state place.user size now =
      mailbox.readPolicy size now (state.policies place.policyShmem) := by
    simp only [Endpoint.readPolicy, hosts.attached, bind, Except.bind]
  simp only [Endpoint.perform, read, served]
  change (Endpoint.reads state _ (if size < _ then _ else _)).1 = _
  by_cases large : size < (state.policies place.policyShmem).values.length
  · rw [if_pos large, if_pos large]
    rfl
  · rw [if_neg large, if_neg large]
    rfl

theorem setUser (hosts : Hosts place agent profile state) {user : Nat} (other : user ≠ place.user)
    (imp : Option EndpointUserImp) : Kept place agent profile count state (state.setUser user imp) where
  hosts := { hosts with user := (Function.update_of_ne other.symm _ _).trans hosts.user }
  policy := rfl
  numPolicy := id

/-- A message that is left in a region of samples. -/
theorem setSample (hosts : Hosts place agent profile state) (shmem : Nat) (message : Endpoint.Message) :
    Kept place agent profile count state (state.setSample shmem { state.samples shmem with message }) := by
  have same : ((state.setSample shmem { state.samples shmem with message }).samples place.sampleShmem).registration =
      (state.samples place.sampleShmem).registration := by
    by_cases here : place.sampleShmem = shmem
    · simp [Endpoint.State.setSample, here]
    · simp [Endpoint.State.setSample, here]
  exact ⟨{ hosts with agent := same ▸ hosts.agent, profileName := same ▸ hosts.profileName }, rfl, id⟩

/-- No call of others disturbs the user. -/
theorem call (hosts : Hosts place agent profile state) (known : agents agent.chars = some (count, numSample))
    (somebody : agent.chars ≠ []) {call : Endpoint.Call} (undisturbed : (Action.user call).Undisturbed) :
    Kept place agent profile count state (Endpoint.perform mailbox agents state call).2 := by
  have reads : ∀ {Value : Type} (reply : Value → Endpoint.Reply) outcome,
      Kept place agent profile count state (Endpoint.reads state reply outcome).2 := by
    intro Value reply outcome
    cases outcome with
    | ok value => exact hosts.kept
    | error reason => exact hosts.kept
  cases call with
  | createPolicy =>
      rw [Endpoint.perform, Endpoint.createPolicy, hosts.policyShmem]
      exact hosts.kept
  | createSample =>
      rw [Endpoint.perform, Endpoint.createSample, hosts.sampleShmem]
      exact hosts.kept
  | clear => exact undisturbed.elim
  | close => exact undisturbed.elim
  | writePolicy policy now => exact undisturbed.elim
  | register user agentName profileName hostlistPath hosts => exact undisturbed.elim
  | detach user => exact undisturbed.elim
  | readSample size now => exact reads _ _
  | getAgent =>
      rw [hosts.getAgent known somebody]
      exact hosts.sized _
  | getProfileName => exact reads _ _
  | getHostnames => exact reads _ _
  | readPolicy user size now => exact reads _ _
  | attachPolicy user numSample =>
      rw [Endpoint.perform, Endpoint.attachPolicy]
      cases found : state.users user with
      | some imp => exact hosts.kept
      | none =>
          have other : user ≠ place.user := by
            rintro rfl
            rw [hosts.user] at found
            cases found
          cases state.policyName with
          | none => exact hosts.kept
          | some shmem => exact hosts.setUser other _
  | attachSample user =>
      rw [Endpoint.perform, Endpoint.attachSample]
      cases found : state.users user with
      | none => exact hosts.kept
      | some imp =>
          simp only []
          by_cases attaching : imp.stage = .attaching
          · have other : user ≠ place.user := by
              rintro rfl
              rw [hosts.user] at found
              cases found
              cases attaching
            rw [if_pos attaching]
            cases state.sampleName with
            | none => exact hosts.setUser other _
            | some shmem => exact hosts.setUser other _
          · rw [if_neg attaching]
            exact hosts.kept
  | writeSample user sample now =>
      rw [Endpoint.perform, Endpoint.writeSample]
      cases state.attached user with
      | error reason => exact hosts.kept
      | ok found =>
          obtain ⟨imp, shmem, path⟩ := found
          simp only [bind, Except.bind]
          by_cases size : sample.length ≠ imp.numSample
          · rw [if_pos size]
            exact hosts.kept
          · rw [if_neg size]
            by_cases room : Endpoint.sampleMax < sample.length
            · have full : mailbox.writeSample sample now (state.samples shmem) = .error .outOfBounds := if_pos room
              rw [full]
              exact hosts.kept
            · have written : mailbox.writeSample sample now (state.samples shmem) =
                  .ok { state.samples shmem with message := ⟨sample, now⟩ } := if_neg room
              rw [written]
              exact hosts.setSample shmem _

end Hosts

/-- What an update has learned of the agent, and what it is about to write. -/
def Stage.Knows (agent profile : PolicyStore.Name) (count numPolicy : Nat) : Stage → Prop
  | .named other => other = agent.chars ∧ numPolicy = count
  | .asking other another => other = agent.chars ∧ another = profile.chars ∧ numPolicy = count
  | .writing policy => policy.length = count ∧ numPolicy = count
  | _ => True

/-- The daemon is where the session says. -/
structure Serves (agents : Agents) (place : Place) (agent profile : PolicyStore.Name) (count : Nat) (session : Session)
    (daemon : DaemonImp Endpoint.Message SampleBox) : Prop where
  hosts : Hosts place agent profile daemon.endpoint
  stored : Stored session.stored daemon.store
  fit : ∀ call ∈ session.stored, call.Fits (numPolicy agents)
  stage : daemon.stage = session.stage
  knows : session.stage.Knows agent profile count daemon.endpoint.endpoint.numPolicy
  delivered : ∀ message, session.delivered = some message → daemon.endpoint.policies place.policyShmem = message

theorem Stage.Knows.kept {stage : Stage} {before after : Nat} (knows : stage.Knows agent profile count before)
    (numPolicy : before = count → after = count) : stage.Knows agent profile count after := by
  cases stage with
  | named other => exact ⟨knows.1, numPolicy knows.2⟩
  | asking other another => exact ⟨knows.1, knows.2.1, numPolicy knows.2.2⟩
  | writing policy => exact ⟨knows.1, numPolicy knows.2⟩
  | idle => trivial
  | waiting => trivial
  | polling => trivial
  | attached => trivial

theorem Stage.Unaware.knows {stage : Stage} {numPolicy : Nat} (unaware : stage.Unaware) :
    stage.Knows agent profile count numPolicy := by
  cases stage with
  | named other => exact unaware.elim
  | asking other another => exact unaware.elim
  | writing policy => exact unaware.elim
  | idle => trivial
  | waiting => trivial
  | polling => trivial
  | attached => trivial

/-- The policy for a pair is no longer than the agent's vectors are. -/
theorem length_policyFor {calls : List PolicyStore.Call} (fit : ∀ call ∈ calls, call.Fits (numPolicy agents))
    (registered : numPolicy agents agent = some count) : (PolicyStore.policyFor calls agent profile).length ≤ count := by
  have short : ∀ (select : PolicyStore.Call → Option (List Number)),
      (∀ call policy, select call = some policy → call.agent = agent ∧ call.policy = policy) →
      (((calls.filterMap select).getLast?).getD []).length ≤ count := by
    intro select selects
    cases last : (calls.filterMap select).getLast? with
    | none => exact Nat.zero_le count
    | some policy =>
        obtain ⟨call, member, selected⟩ := List.mem_filterMap.mp (List.mem_of_getLast? last)
        obtain ⟨limit, known, shorter⟩ := fit call member
        obtain ⟨same, policy_eq⟩ := selects call policy selected
        rw [same, registered] at known
        cases known
        exact policy_eq ▸ shorter
  have best := short (PolicyStore.Call.best? agent profile) fun call policy selected => by
    cases call with
    | setDefault other policy => cases selected
    | setBest other another policy =>
        rw [PolicyStore.Call.best?] at selected
        by_cases same : other = agent ∧ another = profile
        · rw [if_pos same] at selected
          exact ⟨same.1, Option.some.inj selected⟩
        · rw [if_neg same] at selected
          cases selected
  have default := short (PolicyStore.Call.default? agent) fun call policy selected => by
    cases call with
    | setBest other another policy => cases selected
    | setDefault other policy =>
        rw [PolicyStore.Call.default?] at selected
        by_cases same : other = agent
        · rw [if_pos same] at selected
          exact ⟨same, Option.some.inj selected⟩
        · rw [if_neg same] at selected
          cases selected
  rw [PolicyStore.policyFor]
  by_cases none : PolicyStore.lastBest calls agent profile = []
  · rw [if_pos none]
    exact default
  · rw [if_neg none]
    exact best

theorem length_answer {policy found : List Number} (short : found.length ≤ count)
    (answered : PolicyStore.answer count found = .ok policy) : policy.length = count := by
  rw [PolicyStore.answer] at answered
  by_cases none : found = [] ∧ count ≠ 0
  · rw [if_pos none] at answered
    cases answered
  · rw [if_neg none] at answered
    cases answered
    rw [List.length_append, List.length_replicate, Nat.add_sub_cancel' short]

theorem asks_name {daemon : DaemonImp Endpoint.Message SampleBox} {call : Endpoint.Call} {name : List Char}
    {after : Endpoint.State Endpoint.Message SampleBox}
    {next : List Char → DaemonImp Endpoint.Message SampleBox → Reply × DaemonImp Endpoint.Message SampleBox}
    (called : Endpoint.perform mailbox agents daemon.endpoint call = (.name name, after)) :
    daemon.asks mailbox agents call next = next name { daemon with endpoint := after } := by
  simp only [DaemonImp.asks, called]

end

end Daemon

end Geopm
