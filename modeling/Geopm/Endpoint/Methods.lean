import Geopm.Endpoint.Shmem
import Geopm.Helper
import Mathlib.Data.Finset.Dedup
import Mathlib.Data.Finset.Empty
import Mathlib.Data.Finset.Erase
import Mathlib.Logic.Function.Basic

namespace Geopm

/-! `EndpointImp`, the users that attach to its shared memory, and their calls in any order. -/

namespace Endpoint

/-- `EndpointImp`. A region of shared memory is known by how many were created with its name before it. -/
structure EndpointImp where
  policyShmem : Option Nat
  sampleShmem : Option Nat
  numPolicy : Nat
  numSample : Nat
  isOpen : Bool
deriving Repr, DecidableEq

/-- How far a user is. Its constructor attaches to the region of the policy and then to that of the sample. -/
inductive Stage where
  | attaching
  | registering (sampleShmem : Nat)
  | attached (sampleShmem : Nat) (hostlistPath : List Char)
deriving Repr, DecidableEq

/-- `EndpointUserImp`. -/
structure EndpointUserImp where
  policyShmem : Nat
  numSample : Nat
  stage : Stage
deriving Repr, DecidableEq

/-- `Agent::num_policy` and `Agent::num_sample` of the agents that are known. -/
abbrev Agents := List Char → Option (Nat × Nat)

/-- A call, or the part of one that is a single access to what is shared. -/
inductive Call where
  /-- `open`: where there is no region yet, one is created -/
  | createPolicy
  | createSample
  /-- the end of `open`: both regions are set to zero under both locks -/
  | clear
  | close
  | writePolicy (policy : List Number) (now : ℚ)
  | readSample (size : Nat) (now : ℚ)
  | getAgent
  | getProfileName
  | getHostnames
  | attachPolicy (user numSample : Nat)
  | attachSample (user : Nat)
  /-- the end of the constructor of a user, with the path of its file -/
  | register (user : Nat) (agentName profileName hostlistPath : List Char) (hosts : List (List Char))
  | readPolicy (user size : Nat) (now : ℚ)
  | writeSample (user : Nat) (sample : List Number) (now : ℚ)
  /-- the destructor of a user -/
  | detach (user : Nat)

/-- What a call returns, or the exception that it ends with. -/
inductive Reply where
  | done
  | values (values : List Number) (age : ℚ)
  | name (name : List Char)
  | hostnames (hosts : Finset (List Char))
  | thrown (reason : EndpointError)
deriving DecidableEq

/-- What the endpoint and its users share, with regions of some kind, and the objects. -/
structure State (Policy Sample : Type) where
  endpoint : EndpointImp
  users : Nat → Option EndpointUserImp
  policies : Nat → Policy
  samples : Nat → Sample
  /-- The region that has the name of the policy, and that which has the name of the sample. -/
  policyName : Option Nat
  sampleName : Option Nat
  numPolicies : Nat
  numSamples : Nat
  files : List Char → Option (List Char)

/-- What is done with one region: `Geopm.Endpoint.shared` has the bytes, `Geopm.Endpoint.mailbox` the messages. -/
structure Regions (Policy Sample : Type) where
  zeroPolicy : Policy
  zeroSample : Sample
  writePolicy : List Number → ℚ → Policy → Except EndpointError Policy
  readPolicy : Nat → ℚ → Policy → Except EndpointError (List Number × ℚ)
  writeSample : List Number → ℚ → Sample → Except EndpointError Sample
  readSample : Nat → ℚ → Sample → Except EndpointError (List Number × ℚ)
  register : List Char → List Char → List Char → Sample → Except EndpointError Sample
  detach : Sample → Sample
  agent : Sample → List Char
  profileName : Sample → List Char
  hostlistPath : Sample → List Char

/-- The regions as they are in memory. -/
def shared : Regions PolicyShmem SampleShmem where
  zeroPolicy := .zero
  zeroSample := .zero
  writePolicy := PolicyShmem.write
  readPolicy := PolicyShmem.read
  writeSample := SampleShmem.write
  readSample := SampleShmem.read
  register := SampleShmem.register
  detach := SampleShmem.detach
  agent data := cString data.agent
  profileName data := cString data.profileName
  hostlistPath data := cString data.hostlistPath

/-- `get_hostnames` of the file, from which the blank line is erased. -/
def hostnames (text : List Char) : Except EndpointError (Finset (List Char)) :=
  match Helper.stringSplit text ['\n'] with
  | .error _ => .error .outOfBounds
  | .ok lines =>
      -- without a blank line the end of the set is erased
      if [] ∈ lines then .ok (lines.toFinset.erase []) else .error .outOfBounds

/-- The lines that a user writes to its file. -/
def hostlist (hosts : List (List Char)) : List Char := hosts.flatMap (· ++ ['\n'])

section

variable {Policy Sample : Type} (regions : Regions Policy Sample) (agents : Agents) (state : State Policy Sample)

namespace State

def setUser (user : Nat) (imp : Option EndpointUserImp) : State Policy Sample :=
  { state with users := Function.update state.users user imp }

def setPolicy (shmem : Nat) (data : Policy) : State Policy Sample :=
  { state with policies := Function.update state.policies shmem data }

def setSample (shmem : Nat) (data : Sample) : State Policy Sample :=
  { state with samples := Function.update state.samples shmem data }

def setFile (path : List Char) (text : Option (List Char)) : State Policy Sample :=
  { state with files := Function.update state.files path text }

/-- The region of the policy, while the endpoint is open. -/
def openPolicy : Except EndpointError Nat :=
  match state.endpoint.isOpen, state.endpoint.policyShmem with
  | false, _ => .error .notOpen
  | true, some shmem => .ok shmem
  | true, none => .error .noObject

def openSample : Except EndpointError Nat :=
  match state.endpoint.isOpen, state.endpoint.sampleShmem with
  | false, _ => .error .notOpen
  | true, some shmem => .ok shmem
  | true, none => .error .noObject

/-- A user that has been constructed, with its regions and its file. -/
def attached (user : Nat) : Except EndpointError (EndpointUserImp × Nat × List Char) :=
  match state.users user with
  | none => .error .noObject
  | some imp =>
      match imp.stage with
      | .attached shmem path => .ok (imp, shmem, path)
      | _ => .error .noObject

end State

open State

/-- A region is created, unless the endpoint has one. It is an error if the name is in use. -/
def createPolicy : Except EndpointError (State Policy Sample) :=
  match state.endpoint.policyShmem with
  | some _ => .ok state
  | none =>
      if state.policyName = none then
        .ok { state with
          endpoint := { state.endpoint with policyShmem := some state.numPolicies }
          policies := Function.update state.policies state.numPolicies regions.zeroPolicy
          policyName := some state.numPolicies
          numPolicies := state.numPolicies + 1 }
      else .error .noMemory

def createSample : Except EndpointError (State Policy Sample) :=
  match state.endpoint.sampleShmem with
  | some _ => .ok state
  | none =>
      if state.sampleName = none then
        .ok { state with
          endpoint := { state.endpoint with sampleShmem := some state.numSamples }
          samples := Function.update state.samples state.numSamples regions.zeroSample
          sampleName := some state.numSamples
          numSamples := state.numSamples + 1 }
      else .error .noMemory

/-- The end of `open`. -/
def clear : Except EndpointError (State Policy Sample) :=
  match state.endpoint.policyShmem, state.endpoint.sampleShmem with
  | some policyShmem, some sampleShmem =>
      .ok { (state.setPolicy policyShmem regions.zeroPolicy).setSample sampleShmem regions.zeroSample with
        endpoint := { state.endpoint with isOpen := true } }
  | _, _ => .error .noObject

/-- `close`. A region that is unlinked stays for those who have it. -/
def close : State Policy Sample :=
  { state with
    endpoint := { state.endpoint with policyShmem := none, sampleShmem := none, isOpen := false }
    policyName := if state.endpoint.policyShmem = none then state.policyName else none
    sampleName := if state.endpoint.sampleShmem = none then state.sampleName else none }

/-- `write_policy`. -/
def writePolicy (policy : List Number) (now : ℚ) : Except EndpointError (State Policy Sample) := do
  let shmem ← state.openPolicy
  if policy.length ≠ state.endpoint.numPolicy then .error .policySize
  else
    let data ← regions.writePolicy policy now (state.policies shmem)
    return state.setPolicy shmem data

/-- `read_sample`. -/
def readSample (size : Nat) (now : ℚ) : Except EndpointError (List Number × ℚ) := do
  let shmem ← state.openSample
  if size ≠ state.endpoint.numSample then .error .outputSize
  else regions.readSample size now (state.samples shmem)

/-- `get_agent`. The sizes of the vectors are those of the agent that is found. -/
def getAgent : Except EndpointError (List Char × State Policy Sample) := do
  let shmem ← state.openSample
  let agent := regions.agent (state.samples shmem)
  if agent = [] then return (agent, state)
  else
    match agents agent with
    | none => .error (.unknownAgent agent)
    | some (numPolicy, numSample) =>
        return (agent, { state with endpoint := { state.endpoint with numPolicy, numSample } })

/-- `get_profile_name`. -/
def getProfileName : Except EndpointError (List Char) := do
  let shmem ← state.openSample
  return regions.profileName (state.samples shmem)

/-- `get_hostnames`. -/
def getHostnames : Except EndpointError (Finset (List Char)) := do
  let shmem ← state.openSample
  if regions.agent (state.samples shmem) = [] then return ∅
  else
    let path := regions.hostlistPath (state.samples shmem)
    match state.files path with
    | none => .error (.noFile path)
    | some text => hostnames text

/-- The start of the constructor of a user. -/
def attachPolicy (user numSample : Nat) : Except EndpointError (State Policy Sample) :=
  match state.users user, state.policyName with
  | none, some shmem => .ok (state.setUser user (some ⟨shmem, numSample, .attaching⟩))
  | none, none => .error .noMemory
  | some _, _ => .error .noObject

/-- The rest of the constructor. Where it throws there is no user. -/
def attachSample (user : Nat) : Reply × State Policy Sample :=
  match state.users user with
  | none => (.thrown .noObject, state)
  | some imp =>
      if imp.stage = .attaching then
        match state.sampleName with
        | none => (.thrown .noMemory, state.setUser user none)
        | some shmem => (.done, state.setUser user (some { imp with stage := .registering shmem }))
      else (.thrown .noObject, state)

def register (user : Nat) (agentName profileName hostlistPath : List Char) (hosts : List (List Char)) :
    Reply × State Policy Sample :=
  match state.users user with
  | none => (.thrown .noObject, state)
  | some imp =>
      match imp.stage with
      | .registering shmem =>
          match regions.register agentName profileName hostlistPath (state.samples shmem) with
          | .error reason => (.thrown reason, state.setUser user none)
          | .ok data =>
              (.done, ((state.setSample shmem data).setFile hostlistPath (some (hostlist hosts))).setUser user
                (some { imp with stage := .attached shmem hostlistPath }))
      | _ => (.thrown .noObject, state)

/-- `read_policy`. -/
def readPolicy (user size : Nat) (now : ℚ) : Except EndpointError (List Number × ℚ) := do
  let (imp, _) ← state.attached user
  regions.readPolicy size now (state.policies imp.policyShmem)

/-- `write_sample`. -/
def writeSample (user : Nat) (sample : List Number) (now : ℚ) : Except EndpointError (State Policy Sample) := do
  let (imp, shmem, _) ← state.attached user
  if sample.length ≠ imp.numSample then .error .sampleSize
  else
    let data ← regions.writeSample sample now (state.samples shmem)
    return state.setSample shmem data

/-- The destructor of a user. -/
def detach (user : Nat) : Except EndpointError (State Policy Sample) := do
  let (_, shmem, path) ← state.attached user
  return ((state.setSample shmem (regions.detach (state.samples shmem))).setFile path none).setUser user none

/-- A call that changes the state or throws an exception, which leaves it. -/
def changes (outcome : Except EndpointError (State Policy Sample)) : Reply × State Policy Sample :=
  match outcome with
  | .ok next => (.done, next)
  | .error reason => (.thrown reason, state)

/-- A call that reads. -/
def reads {Value : Type} (reply : Value → Reply) (outcome : Except EndpointError Value) : Reply × State Policy Sample :=
  match outcome with
  | .ok value => (reply value, state)
  | .error reason => (.thrown reason, state)

def perform : Call → Reply × State Policy Sample
  | .createPolicy => changes state (createPolicy regions state)
  | .createSample => changes state (createSample regions state)
  | .clear => changes state (clear regions state)
  | .close => (.done, close state)
  | .writePolicy policy now => changes state (writePolicy regions state policy now)
  | .readSample size now => reads state (fun read => .values read.1 read.2) (readSample regions state size now)
  | .getAgent =>
      match getAgent regions agents state with
      | .ok (agent, next) => (.name agent, next)
      | .error reason => (.thrown reason, state)
  | .getProfileName => reads state .name (getProfileName regions state)
  | .getHostnames => reads state .hostnames (getHostnames regions state)
  | .attachPolicy user numSample => changes state (attachPolicy state user numSample)
  | .attachSample user => attachSample state user
  | .register user agentName profileName hostlistPath hosts =>
      register regions state user agentName profileName hostlistPath hosts
  | .readPolicy user size now =>
      reads state (fun read => .values read.1 read.2) (readPolicy regions state user size now)
  | .writeSample user sample now => changes state (writeSample regions state user sample now)
  | .detach user => changes state (detach regions state user)

/-- Nothing is open and nobody is there. -/
def initial : State Policy Sample where
  endpoint := ⟨none, none, 0, 0, false⟩
  users _ := none
  policies _ := regions.zeroPolicy
  samples _ := regions.zeroSample
  policyName := none
  sampleName := none
  numPolicies := 0
  numSamples := 0
  files _ := none

end

end Endpoint

end Geopm
