import Geopm.Daemon.Update

namespace Geopm

/-! What the daemon does for one user, from its registration on, while no other one comes and it does not go. -/

namespace Daemon

open Endpoint (Agents EndpointImp EndpointUserImp SampleBox mailbox shared)
open PolicyStore (Store StoreError Stored)

/-- No user comes or goes, and the endpoint is used by the daemon alone. -/
def Action.Undisturbed : Action → Prop
  | .user .clear => False
  | .user .close => False
  | .user (.writePolicy _ _) => False
  | .user (.register _ _ _ _ _) => False
  | .user (.detach _) => False
  | _ => True

/-- The update has not learned of an agent. -/
def Stage.Unaware : Stage → Prop
  | .named _ => False
  | .asking _ _ => False
  | .writing _ => False
  | _ => True

/-- A user is about to register in the regions of the endpoint, which is open. -/
def Joins {Policy Sample : Type} (user : Nat) (state : Endpoint.State Policy Sample) : Prop :=
  state.endpoint.isOpen = true ∧ ∃ policyShmem sampleShmem numSample,
    state.endpoint.policyShmem = some policyShmem ∧ state.endpoint.sampleShmem = some sampleShmem ∧
      state.users user = some ⟨policyShmem, numSample, .registering sampleShmem⟩

/-- Whether the vector of a call is one for its agent. -/
def fits (agents : Agents) (call : PolicyStore.Call) : Bool :=
  match numPolicy agents call.agent with
  | none => false
  | some count => call.policy.length ≤ count

/-- The policies that have been set. -/
def storedBy (agents : Agents) : List Action → List PolicyStore.Call
  | [] => []
  | .store call :: rest => if fits agents call then call :: storedBy agents rest else storedBy agents rest
  | _ :: rest => storedBy agents rest

/-- The part of the daemon that a user depends on: no shared memory, no names, no database. -/
structure Session where
  stored : List PolicyStore.Call
  stage : Stage
  delivered : Option Endpoint.Message

/-- A user who reads a policy. -/
def served (size : Nat) (now : ℚ) (message : Endpoint.Message) : Endpoint.Reply :=
  if size < message.values.length then .thrown .doesNotFit
  else .values (message.values ++ List.replicate (size - message.values.length) .nan) (now - message.timestamp)

/-- What the session says of the reply to an action, and how it goes on. -/
def Session.perform (agents : Agents) (user : Nat) (agent profile : PolicyStore.Name) (count : Nat) (session : Session) :
    Action → Option Reply × Session
  | .user (.readPolicy reader size now) =>
      (if reader = user then session.delivered.map fun message => .user (served size now message) else none, session)
  | .user _ => (none, session)
  | .store call =>
      if fits agents call then (some (.stored (.ok ())), { session with stored := session.stored ++ [call] })
      else (none, session)
  | .update => (some .continues, if session.stage = .idle then { session with stage := .waiting } else session)
  | .proceed now _ late =>
      match session.stage with
      | .idle => (some .continues, session)
      | .waiting => (some .continues, { session with stage := .attached })
      | .polling =>
          if late then (some .timedOut, { session with stage := .idle })
          else (some .continues, { session with stage := .attached })
      | .attached => (some .continues, { session with stage := .named agent.chars })
      | .named _ => (some .continues, { session with stage := .asking agent.chars profile.chars })
      | .asking _ _ =>
          match PolicyStore.answer count (PolicyStore.policyFor session.stored agent profile) with
          | .ok policy => (some .continues, { session with stage := .writing policy })
          | .error reason => (some (.refused reason), { session with stage := .idle })
      | .writing policy => (some .returned, { session with stage := .idle, delivered := some ⟨policy, now⟩ })

section

variable {agents : Agents} {call : PolicyStore.Call} {store : Store} {calls : List PolicyStore.Call} {text : List Char}
  {name : PolicyStore.Name}

theorem fits_iff : fits agents call = true ↔ call.Fits (numPolicy agents) := by
  rw [fits, PolicyStore.Call.Fits]
  cases numPolicy agents call.agent with
  | none => simp
  | some count => simp

theorem long_of_unfit {count : Nat} (unfit : ¬fits agents call = true)
    (known : numPolicy agents call.agent = some count) : count < call.policy.length := by
  rw [fits, known] at unfit
  exact not_le.mp fun short => unfit (decide_eq_true short)

/-- A policy that does not fit is not stored. -/
theorem stored_unfit (unfit : ¬fits agents call = true) :
    (store.call (numPolicy agents) none call).2 = store := by
  cases call with
  | setBest agent profile policy =>
      rw [Store.call, Store.setBest, Store.update]
      cases known : numPolicy agents agent with
      | none => rfl
      | some count =>
          have long := long_of_unfit unfit known
          exact congrArg Prod.snd (if_pos long)
  | setDefault agent policy =>
      rw [Store.call, Store.setDefault, Store.update]
      cases known : numPolicy agents agent with
      | none => rfl
      | some count =>
          have long := long_of_unfit unfit known
          exact congrArg Prod.snd (if_pos long)

theorem cString_free (free : Endpoint.nul ∉ text) : Endpoint.cString text = text := by
  rw [Endpoint.cString, Terminated.upTo, List.takeWhile_eq_self_iff]
  intro char member
  exact decide_eq_true fun same => free (same ▸ member)

theorem nameOf_chars : nameOf name.chars = name := by
  obtain ⟨chars, terminated⟩ := name
  simp only [nameOf, cString_free terminated]

end

section

variable {Policy Sample : Type} {regions : Endpoint.Regions Policy Sample} {agents : Agents}
  {daemon : DaemonImp Policy Sample} {calls : List PolicyStore.Call}

theorem store_asks {call : Endpoint.Call} {next : List Char → DaemonImp Policy Sample → Reply × DaemonImp Policy Sample}
    (keeps : ∀ text daemon, (next text daemon).2.store = daemon.store) :
    (daemon.asks regions agents call next).2.store = daemon.store := by
  simp only [DaemonImp.asks]
  cases (Endpoint.perform regions agents daemon.endpoint call).1 with
  | name text => exact keeps _ _
  | thrown reason => rfl
  | done => rfl
  | values values age => rfl
  | hostnames hosts => rfl

/-- The daemon itself sets no policies. -/
theorem store_proceed (now : ℚ) (stopped late : Bool) :
    (daemon.proceed regions agents now stopped late).2.store = daemon.store := by
  rw [DaemonImp.proceed]
  cases daemon.stage with
  | idle => rfl
  | waiting => exact store_asks fun _ _ => rfl
  | polling =>
      apply store_asks
      intro text daemon
      cases late with
      | true => rfl
      | false => rfl
  | attached =>
      apply store_asks
      intro text daemon
      by_cases nobody : text = []
      · rw [if_pos nobody]
        rfl
      · rw [if_neg nobody]
  | named agent => exact store_asks fun _ _ => rfl
  | asking agent profile =>
      simp only []
      cases daemon.store.getBest (numPolicy agents) (nameOf agent) (nameOf profile) with
      | ok policy => rfl
      | error reason => rfl
  | writing policy =>
      simp only []
      cases (Endpoint.perform regions agents daemon.endpoint (.writePolicy policy now)).1 with
      | thrown reason => rfl
      | done => rfl
      | name text => rfl
      | values values age => rfl
      | hostnames hosts => rfl

theorem stored_after (stored : Stored calls daemon.store) (actions : List Action) :
    Stored (calls ++ storedBy agents actions) (Simulation.after (perform regions agents) daemon actions).store := by
  induction actions generalizing calls daemon with
  | nil =>
      rw [storedBy, List.append_nil]
      exact stored
  | cons action rest ih =>
      cases action with
      | user call => exact ih stored
      | update =>
          have same : (perform regions agents daemon .update).2.store = daemon.store := by
            rw [perform]
            by_cases idle : daemon.stage = .idle
            · rw [if_pos idle]
            · rw [if_neg idle]
          exact ih (same.symm ▸ stored)
      | proceed now stopped late => exact ih ((store_proceed now stopped late).symm ▸ stored)
      | store call =>
          by_cases fit : fits agents call = true
          · obtain ⟨next, done, stored⟩ := stored.next (fits_iff.mp fit)
            have same : (perform regions agents daemon (.store call)).2.store = next := by rw [perform, done]
            have later := ih (same.symm ▸ stored)
            rw [List.append_assoc, List.singleton_append] at later
            rw [storedBy, if_pos fit]
            exact later
          · have same : (perform regions agents daemon (.store call)).2.store = daemon.store := stored_unfit fit
            rw [storedBy, if_neg fit]
            exact ih (same.symm ▸ stored)

end

end Daemon

end Geopm
