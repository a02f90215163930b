import Geopm.Daemon.Delivery
import Geopm.PowerGovernor.Rounds

namespace Geopm

/-! A site: a daemon with its store, and a job of power governors whose root is a user of its endpoint. -/

open Endpoint (Agents shared)
open PowerGovernor (Job LevelAgent)

/-- The exception that ends the job. -/
inductive SiteError where
  | agent (reason : PowerGovernor.AgentError)
  | endpoint (reason : Endpoint.EndpointError)
deriving DecidableEq

structure Site where
  daemon : Daemon.DaemonImp Endpoint.PolicyShmem Endpoint.SampleShmem
  job : Except SiteError (Controllers.State Number PowerGovernor.Sample LevelAgent)

namespace Site

inductive Event where
  /-- in the daemon, by another user or in the database -/
  | daemon (action : Daemon.Action)
  | walkDown (rank : Nat) (now : ℚ)
  | walkUp (rank : Nat) (pkgPower : Number) (now : ℚ)

/-- The exception ends the job, if it is still running. -/
def fail (site : Site) (reason : Endpoint.EndpointError) : Site :=
  { site with job := site.job.bind fun _ => .error (.endpoint reason) }

/-- A call on the endpoint. -/
def call (site : Site) (agents : Agents) (call : Endpoint.Call) : Daemon.Reply × Site :=
  let called := Daemon.perform shared agents site.daemon (.user call)
  (called.1, { site with daemon := called.2 })

/-- A walk that needs no endpoint. -/
def walk (site : Site) (job : Job) (action : Controllers.System.Action Number Number) : Site :=
  { site with job := site.job.bind fun state => (job.system.perform state action).mapError .agent }

/-- `Controller::walk_down`, with `read_policy` at the root. -/
def walkDown (site : Site) (agents : Agents) (user : Nat) (job : Job) (rank : Nat) (now : ℚ) : Site :=
  if rank = 0 then
    let (reply, read) := site.call agents (.readPolicy user 1 now)
    match reply with
    | .user (.values [policy] _) => read.walk job (.walkDown 0 policy)
    | .user (.thrown reason) => read.fail reason
    | _ => read
  else site.walk job (.walkDown rank .nan)

/-- `write_sample` -/
def write (agents : Agents) (user : Nat) (now : ℚ) (site : Site) (sample : PowerGovernor.Sample) : Site :=
  let (reply, written) :=
    site.call agents (.writeSample user [sample.power, sample.isConverged, sample.powerEnforced] now)
  match reply with
  | .user (.thrown reason) => written.fail reason
  | _ => written

/-- What the root has had for the endpoint so far. -/
def outbox (site : Site) (job : Job) : List PowerGovernor.Sample :=
  match site.job with
  | .ok state => (state.link job.system.topology.rootLevel 0).samples.sent
  | .error _ => []

/-- `Controller::walk_up`, with `write_sample` at the root. -/
def walkUp (site : Site) (agents : Agents) (user : Nat) (job : Job) (rank : Nat) (pkgPower : Number) (now : ℚ) : Site :=
  let walked := site.walk job (.walkUp rank pkgPower)
  ((walked.outbox job).drop (site.outbox job).length).foldl (write agents user now) walked

def step (agents : Agents) (user : Nat) (job : Job) (site : Site) : Event → Site
  | .daemon action => { site with daemon := (Daemon.perform shared agents site.daemon action).2 }
  | .walkDown rank now => site.walkDown agents user job rank now
  | .walkUp rank pkgPower now => site.walkUp agents user job rank pkgPower now

/-- The controller has this walk next, if the job is still running. -/
def Turn (site : Site) (job : Job) (action : Controllers.System.Action Number Number) : Prop :=
  match site.job with
  | .ok state => job.system.Permits state action
  | .error _ => True

instance (site : Site) (job : Job) (action : Controllers.System.Action Number Number) : Decidable (site.Turn job action) :=
  match equal : site.job with
  | .ok state => decidable_of_iff (job.system.Permits state action) (by rw [Turn, equal])
  | .error _ => .isTrue (by rw [Turn, equal]; trivial)

/-- Each controller walks down and up in turn, and no user comes or goes. -/
def Permits (site : Site) (job : Job) : Event → Prop
  | .daemon action => action.Undisturbed
  | .walkDown rank _ => site.Turn job (.walkDown rank .nan)
  | .walkUp rank pkgPower _ => site.Turn job (.walkUp rank pkgPower)

instance : ∀ action : Daemon.Action, Decidable action.Undisturbed
  | .user .clear => .isFalse id
  | .user .close => .isFalse id
  | .user (.writePolicy _ _) => .isFalse id
  | .user (.register _ _ _ _ _) => .isFalse id
  | .user (.detach _) => .isFalse id
  | .user .createPolicy => .isTrue trivial
  | .user .createSample => .isTrue trivial
  | .user (.readSample _ _) => .isTrue trivial
  | .user .getAgent => .isTrue trivial
  | .user .getProfileName => .isTrue trivial
  | .user .getHostnames => .isTrue trivial
  | .user (.attachPolicy _ _) => .isTrue trivial
  | .user (.attachSample _) => .isTrue trivial
  | .user (.readPolicy _ _ _) => .isTrue trivial
  | .user (.writeSample _ _ _) => .isTrue trivial
  | .store _ => .isTrue trivial
  | .update => .isTrue trivial
  | .proceed _ _ _ => .isTrue trivial

instance (site : Site) (job : Job) : ∀ event : Event, Decidable (site.Permits job event)
  | .daemon action => inferInstanceAs (Decidable action.Undisturbed)
  | .walkDown rank _ => inferInstanceAs (Decidable (site.Turn job (.walkDown rank .nan)))
  | .walkUp rank pkgPower _ => inferInstanceAs (Decidable (site.Turn job (.walkUp rank pkgPower)))

/-- The events in the daemon. -/
def daemonActions : List Event → List Daemon.Action
  | [] => []
  | .daemon action :: rest => action :: daemonActions rest
  | _ :: rest => daemonActions rest

end Site

end Geopm
