import Geopm.Endpoint.Mailbox
import Geopm.PolicyStore.Stored

namespace Geopm

/-! `DaemonImp`, which gives the users of its endpoint the policies of its policy store. -/

namespace Daemon

open Endpoint (Agents EndpointError Regions)
open PolicyStore (Store StoreError)

/-- A string that has come from an array of characters. -/
def nameOf (text : List Char) : PolicyStore.Name := ⟨Endpoint.cString text, Endpoint.free_cString⟩

/-- `Agent::num_policy` -/
def numPolicy (agents : Agents) (agent : PolicyStore.Name) : Option Nat := (agents agent.chars).map Prod.fst

/-- How far `update_endpoint_from_policystore` is. -/
inductive Stage where
  | idle
  /-- `wait_for_agent_attach`, before its loop -/
  | waiting
  /-- in its loop -/
  | polling
  /-- before `get_agent` -/
  | attached
  /-- before `get_profile_name` -/
  | named (agent : List Char)
  /-- before `get_best` -/
  | asking (agent profile : List Char)
  /-- before `write_policy` -/
  | writing (policy : List Number)
deriving Repr, DecidableEq

structure DaemonImp (Policy Sample : Type) where
  endpoint : Endpoint.State Policy Sample
  store : Store
  stage : Stage

inductive Action where
  /-- a call of a user, or one on the endpoint -/
  | user (call : Endpoint.Call)
  /-- a policy is set through another connection to the database -/
  | store (call : PolicyStore.Call)
  /-- the call of `update_endpoint_from_policystore` -/
  | update
  /-- The next access to what is shared, at a time. The loop may have been stopped, or be too late. -/
  | proceed (now : ℚ) (stopped late : Bool)

inductive Reply where
  | user (reply : Endpoint.Reply)
  | stored (result : Except StoreError Unit)
  | continues
  | returned
  | threw (reason : EndpointError)
  | refused (reason : StoreError)
  /-- "timed out waiting for controller." -/
  | timedOut
deriving DecidableEq

section

variable {Policy Sample : Type} (regions : Regions Policy Sample) (agents : Agents)

/-- The end of a call of `update_endpoint_from_policystore`. -/
def DaemonImp.stop (daemon : DaemonImp Policy Sample) (reply : Reply) : Reply × DaemonImp Policy Sample :=
  (reply, { daemon with stage := .idle })

/-- A call on the endpoint, and what is done with the name that it returns. -/
def DaemonImp.asks (daemon : DaemonImp Policy Sample) (call : Endpoint.Call)
    (next : List Char → DaemonImp Policy Sample → Reply × DaemonImp Policy Sample) : Reply × DaemonImp Policy Sample :=
  let called := Endpoint.perform regions agents daemon.endpoint call
  match called.1 with
  | .name text => next text { daemon with endpoint := called.2 }
  | .thrown reason => { daemon with endpoint := called.2 }.stop (.threw reason)
  | _ => { daemon with endpoint := called.2 }.stop (.threw .noObject)

/-- `update_endpoint_from_policystore` by the accesses to what is shared. -/
def DaemonImp.proceed (daemon : DaemonImp Policy Sample) (now : ℚ) (stopped late : Bool) :
    Reply × DaemonImp Policy Sample :=
  match daemon.stage with
  | .idle => (.continues, daemon)
  | .waiting => daemon.asks regions agents .getAgent fun agent daemon =>
      (.continues, { daemon with stage := if stopped ∨ agent ≠ [] then .attached else .polling })
  | .polling => daemon.asks regions agents .getAgent fun agent daemon =>
      -- the time is compared before the name
      if late then daemon.stop .timedOut
      else (.continues, { daemon with stage := if stopped ∨ agent ≠ [] then .attached else .polling })
  | .attached => daemon.asks regions agents .getAgent fun agent daemon =>
      if agent = [] then daemon.stop .returned else (.continues, { daemon with stage := .named agent })
  | .named agent => daemon.asks regions agents .getProfileName fun profile daemon =>
      (.continues, { daemon with stage := .asking agent profile })
  | .asking agent profile =>
      match daemon.store.getBest (numPolicy agents) (nameOf agent) (nameOf profile) with
      | .ok policy => (.continues, { daemon with stage := .writing policy })
      | .error reason => daemon.stop (.refused reason)
  | .writing policy =>
      let called := Endpoint.perform regions agents daemon.endpoint (.writePolicy policy now)
      match called.1 with
      | .thrown reason => { daemon with endpoint := called.2 }.stop (.threw reason)
      | _ => { daemon with endpoint := called.2 }.stop .returned

def perform (daemon : DaemonImp Policy Sample) : Action → Reply × DaemonImp Policy Sample
  | .user call =>
      let called := Endpoint.perform regions agents daemon.endpoint call
      (.user called.1, { daemon with endpoint := called.2 })
  | .store call =>
      let called := daemon.store.call (numPolicy agents) none call
      (.stored called.1, { daemon with store := called.2 })
  | .update =>
      if daemon.stage = .idle then (.continues, { daemon with stage := .waiting }) else (.continues, daemon)
  | .proceed now stopped late => daemon.proceed regions agents now stopped late

/-- Before the endpoint is opened, with a new database. -/
def initial : DaemonImp Policy Sample := ⟨Endpoint.initial regions, .new, .idle⟩

end

section

variable {Policy Sample Message Box : Type} {low : Regions Policy Sample} {high : Regions Message Box} {agents : Agents}
  {related : Endpoint.State Policy Sample → Endpoint.State Message Box → Prop}

/-- The same store and the same stage over endpoints that are related. -/
structure Represents (related : Endpoint.State Policy Sample → Endpoint.State Message Box → Prop)
    (first : DaemonImp Policy Sample) (second : DaemonImp Message Box) : Prop where
  endpoint : related first.endpoint second.endpoint
  store : first.store = second.store
  stage : first.stage = second.stage

variable {first : DaemonImp Policy Sample} {second : DaemonImp Message Box}

theorem Represents.stop (represents : Represents related first second) (reply : Reply) :
    (first.stop reply).1 = (second.stop reply).1 ∧ Represents related (first.stop reply).2 (second.stop reply).2 :=
  ⟨rfl, { represents with stage := rfl }⟩

theorem Represents.asks (represents : Represents related first second) {call : Endpoint.Call}
    (simulates : Simulation.Simulates (Endpoint.perform low agents) (Endpoint.perform high agents) related)
    {next : List Char → DaemonImp Policy Sample → Reply × DaemonImp Policy Sample}
    {other : List Char → DaemonImp Message Box → Reply × DaemonImp Message Box}
    (each : ∀ text first second, Represents related first second →
      (next text first).1 = (other text second).1 ∧ Represents related (next text first).2 (other text second).2) :
    (first.asks low agents call next).1 = (second.asks high agents call other).1 ∧
      Represents related (first.asks low agents call next).2 (second.asks high agents call other).2 := by
  obtain ⟨same, endpoint⟩ := simulates _ _ call represents.endpoint
  have called : Represents related
      { first with endpoint := (Endpoint.perform low agents first.endpoint call).2 }
      { second with endpoint := (Endpoint.perform high agents second.endpoint call).2 } :=
    { represents with endpoint := endpoint }
  simp only [DaemonImp.asks, same]
  cases (Endpoint.perform high agents second.endpoint call).1 with
  | name text => exact each text _ _ called
  | thrown reason => exact called.stop _
  | done => exact called.stop _
  | values values age => exact called.stop _
  | hostnames hosts => exact called.stop _

/-- A daemon replies alike over endpoints that reply alike. -/
theorem simulates (simulates : Simulation.Simulates (Endpoint.perform low agents) (Endpoint.perform high agents) related) :
    Simulation.Simulates (perform low agents) (perform high agents) (Represents related) := by
  intro first second action represents
  cases action with
  | user call =>
      obtain ⟨same, endpoint⟩ := simulates _ _ call represents.endpoint
      exact ⟨congrArg Reply.user same, { represents with endpoint := endpoint }⟩
  | store call =>
      have same := represents.store
      exact ⟨by simp only [perform, same], { represents with store := by simp only [perform, same] }⟩
  | update =>
      rw [perform, perform, represents.stage]
      by_cases idle : second.stage = .idle
      · rw [if_pos idle, if_pos idle]
        exact ⟨rfl, { represents with stage := rfl }⟩
      · rw [if_neg idle, if_neg idle]
        exact ⟨rfl, represents⟩
  | proceed now stopped late =>
      rw [perform, perform, DaemonImp.proceed, DaemonImp.proceed, represents.stage]
      cases second.stage with
      | idle => exact ⟨rfl, represents⟩
      | waiting => exact represents.asks simulates fun text first second called => ⟨rfl, { called with stage := rfl }⟩
      | polling =>
          refine represents.asks simulates fun text first second called => ?_
          cases late with
          | true => exact called.stop _
          | false => exact ⟨rfl, { called with stage := rfl }⟩
      | attached =>
          refine represents.asks simulates fun text first second called => ?_
          by_cases nobody : text = []
          · simp only [if_pos nobody]
            exact called.stop _
          · simp only [if_neg nobody]
            exact ⟨trivial, { called with stage := rfl }⟩
      | named agent =>
          exact represents.asks simulates fun text first second called => ⟨rfl, { called with stage := rfl }⟩
      | asking agent profile =>
          simp only [represents.store]
          cases second.store.getBest (numPolicy agents) (nameOf agent) (nameOf profile) with
          | ok policy => exact ⟨rfl, { represents with stage := rfl, store := rfl }⟩
          | error reason => exact { represents with store := represents.store } |>.stop _
      | writing policy =>
          obtain ⟨same, endpoint⟩ := simulates _ _ (.writePolicy policy now) represents.endpoint
          have called : Represents related
              { first with endpoint := (Endpoint.perform low agents first.endpoint (.writePolicy policy now)).2 }
              { second with endpoint := (Endpoint.perform high agents second.endpoint (.writePolicy policy now)).2 } :=
            { represents with endpoint := endpoint }
          simp only [same]
          cases (Endpoint.perform high agents second.endpoint (.writePolicy policy now)).1 with
          | thrown reason => exact called.stop _
          | done => exact called.stop _
          | name text => exact called.stop _
          | values values age => exact called.stop _
          | hostnames hosts => exact called.stop _

end

end Daemon

end Geopm
