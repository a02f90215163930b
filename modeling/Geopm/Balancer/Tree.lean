import Geopm.Balancer.Leaf
import Geopm.Balancer.Root
import Geopm.TreeComm.Topology
import Mathlib.Logic.Function.Basic

namespace Geopm

/-! The controllers of a tree of power balancers, which walk down and up in any order. -/

/-- `TreeRole`, with what it has from `Role`. -/
structure TreeRole where
  policy : Policy
  stepCount : Int
  isStepComplete : Bool
deriving Repr, DecidableEq

namespace TreeRole

/-- The constructor. -/
def new : TreeRole := ⟨.unset, -1, true⟩

/-- `descend`. Where the result is true, each child gets the policy of the role. -/
def descend (inPolicy : Policy) (role : TreeRole) : Except AgentError (Bool × TreeRole) :=
  if role.isStepComplete && !inPolicy.stepCount.eq (.value role.stepCount) then
    if inPolicy.stepCount.eq (.value 0) then .ok (true, ⟨inPolicy, 0, false⟩)
    else if inPolicy.stepCount.eq (.value (role.stepCount + 1)) then
      .ok (true, ⟨inPolicy, role.stepCount + 1, false⟩)
    else .error .policyOutOfSync
  else .ok (false, role)

/-- `ascend`. -/
def ascend (inSample : List Sample) (role : TreeRole) : Except AgentError (Bool × Sample × TreeRole) :=
  let outSample := Sample.aggregate inSample
  if !role.isStepComplete && outSample.stepCount.eq (.value role.stepCount) then
    if outSample.stepCount.eq (.value role.stepCount) then
      .ok (true, outSample, { role with isStepComplete := true })
    else .error .stepCountMismatch
  else .ok (false, outSample, role)

end TreeRole

namespace Balancer

/-- The agent of a level above the leaves. -/
inductive Agent where
  | tree (role : TreeRole)
  | root (role : RootRole)
deriving Repr, DecidableEq

namespace Agent

def policy : Agent → Policy
  | .tree role => role.policy
  | .root role => role.policy

def stepCount : Agent → Int
  | .tree role => role.stepCount
  | .root role => role.stepCount

def isStepComplete : Agent → Bool
  | .tree role => role.isStepComplete
  | .root role => role.isStepComplete

/-- `split_policy`, which tells whether the children get the policy of the agent. -/
def descend (settings : PowerSettings) (inPolicy : Policy) : Agent → Except AgentError (Bool × Agent)
  | .tree role => (role.descend inPolicy).map fun (result, next) => (result, .tree next)
  | .root role => (role.descend settings inPolicy).map fun (result, next) => (result, .root next)

/-- `aggregate_sample`. -/
def ascend (inSample : List Sample) : Agent → Except AgentError (Bool × Sample × Agent)
  | .tree role => (role.ascend inSample).map fun (result, outSample, next) => (result, outSample, .tree next)
  | .root role => (role.ascend inSample).map fun (result, outSample, next) => (result, outSample, .root next)

end Agent

/-- What the mailboxes of a level hold for one of its ranks: the last policy that was sent to it,
and its last sample unless that was taken. -/
structure Link where
  policy : Option Policy
  sample : Option Sample
deriving Repr, DecidableEq

/-- `Controller`. The agent of a level is the one that controls it. -/
structure Node where
  /-- How often it has walked. It walks down and up in turn. -/
  walks : Nat
  inPolicy : Policy
  lastPolicy : Policy
  leaf : LeafRole
  agent : Nat → Agent

/-- The controllers of all ranks, and the links of each rank to its parent in each level. -/
structure State where
  node : Nat → Node
  link : Nat → Nat → Link

namespace State

def setNode (state : State) (rank : Nat) (node : Node) : State :=
  { state with node := Function.update state.node rank node }

/-- Change the links of a level to some ranks. -/
def setLinks (state : State) (level : Nat) (ranks : List Nat) (change : Link → Link) : State :=
  { state with
    link := Function.update state.link level fun rank =>
      if rank ∈ ranks then change (state.link level rank) else state.link level rank }

/-- `receive_down`: whether there is a policy without nan. -/
def receiveDown (level rank : Nat) (state : State) : Bool × State :=
  match (state.link level rank).policy with
  | none => (false, state)
  | some policy => (!policy.hasNan, state.setNode rank { state.node rank with inPolicy := policy })

/-- `send_up`. -/
def sendUp (level rank : Nat) (sample : Sample) (state : State) : State :=
  state.setLinks level [rank] fun link => { link with sample }

end State

/-- The nodes of a job, and where the policy of the root is from. -/
structure System where
  topology : Topology
  settings : Nat → PowerSettings
  numPackage : Nat → Nat
  /-- Each node reads the file, if there is one. Else the root reads an endpoint. -/
  filePolicy : Option Policy

namespace System

variable (system : System)

/-- The constructor, `create_agents` and `init_agents`. -/
def initial : State where
  node rank :=
    { walks := 0
      inPolicy := system.filePolicy.getD .unset
      lastPolicy := .unset
      leaf := { packages := List.replicate (system.numPackage rank) {} }
      agent := fun level =>
        if level + 1 = system.topology.rootLevel then .root (.new system.topology.numRank)
        else .tree .new }
  link _ _ := ⟨none, none⟩

def isSingleNode : Bool := decide (system.topology.rootLevel = 0)

/-- Where the root gets its policy from when the endpoint has the given one. -/
def source (endpointPolicy : Policy) : PolicySource Policy :=
  match system.filePolicy with
  | some policy => .file policy
  | none => .endpoint endpointPolicy

/-- The start of `walk_down`. -/
def startWalk (rank : Nat) (endpointPolicy : Policy) (state : State) : Bool × State :=
  if system.topology.numLevelCtl rank = system.topology.rootLevel then
    let node := state.node rank
    let read := (system.source endpointPolicy).read Policy.same node.lastPolicy
    (read.1, state.setNode rank { node with
      inPolicy := (system.source endpointPolicy).policy, lastPolicy := read.2 })
  else state.receiveDown (system.topology.numLevelCtl rank) rank

/-- `validate_policy`, `split_policy` and `send_down` of the agent that controls a level. -/
def splitPolicy (level rank : Nat) (state : State) : Except AgentError State := do
  let node := state.node rank
  let inPolicy ← node.inPolicy.validate (system.settings rank)
  let (doSend, agent) ← (node.agent level).descend (system.settings rank) inPolicy
  let split := state.setNode rank { node with inPolicy, agent := Function.update node.agent level agent }
  return if doSend then
    split.setLinks level (system.topology.members level rank) fun link => { link with policy := agent.policy }
  else split

/-- The body of the loop of `walk_down`. -/
def walkLevel (rank : Nat) (walk : Bool × State) (level : Nat) : Except AgentError (Bool × State) := do
  let state ← if walk.1 then system.splitPolicy level rank walk.2 else pure walk.2
  return state.receiveDown level rank

/-- The end of `walk_down`. -/
def adjustPlatform (rank : Nat) (clock : Nat → ℚ) (state : State) : Except AgentError State := do
  let node := state.node rank
  let inPolicy ← node.inPolicy.validate (system.settings rank)
  let (_, leaf) ← node.leaf.adjustPlatform (system.settings rank) system.isSingleNode
    system.topology.numRank inPolicy clock
  return state.setNode rank { node with inPolicy, leaf, walks := node.walks + 1 }

/-- `walk_down`. -/
def walkDown (rank : Nat) (endpointPolicy : Policy) (clock : Nat → ℚ) (state : State) :
    Except AgentError State := do
  let walk ← (List.range (system.topology.numLevelCtl rank)).reverse.foldlM (system.walkLevel rank)
    (system.startWalk rank endpointPolicy state)
  system.adjustPlatform rank clock walk.2

/-- `receive_up`: the samples of all children, unless one is missing or has a nan. They are taken
also where one has. -/
def receiveUp (level rank : Nat) (state : State) : Option (List Sample) × State :=
  let children := system.topology.members level rank
  match children.mapM fun child => (state.link level child).sample with
  | none => (none, state)
  | some samples =>
      (if samples.any Sample.hasNan then none else some samples,
        state.setLinks level children fun link => { link with sample := none })

/-- `aggregate_sample` of the agent that controls a level, and what it has to send. -/
def aggregateSample (level rank : Nat) (samples : List Sample) (state : State) :
    Except AgentError (Option Sample × State) := do
  let node := state.node rank
  let (doSend, outSample, agent) ← (node.agent level).ascend samples
  return (if doSend then some outSample else none,
    state.setNode rank { node with agent := Function.update node.agent level agent })

def sendSample (level rank : Nat) (walk : Option Sample × State) : State :=
  match walk.1 with
  | none => walk.2
  | some sample => walk.2.sendUp level rank sample

/-- The body of the loop of `walk_up`. -/
def riseLevel (rank : Nat) (walk : Option Sample × State) (level : Nat) :
    Except AgentError (Option Sample × State) :=
  match system.receiveUp level rank (sendSample level rank walk) with
  | (none, state) => .ok (none, state)
  | (some samples, state) => aggregateSample level rank samples state

/-- The start of `walk_up`. -/
def samplePlatform (rank : Nat) (measured : Nat → Measured) (state : State) :
    Except AgentError (Option Sample × State) := do
  let node := state.node rank
  let (doSend, outSample, leaf) ← node.leaf.samplePlatform (system.settings rank) system.isSingleNode measured
  return (if doSend then some outSample else none,
    state.setNode rank { node with leaf, walks := node.walks + 1 })

/-- `walk_up`. What the root writes to an endpoint is left out. -/
def walkUp (rank : Nat) (measured : Nat → Measured) (state : State) : Except AgentError State := do
  let start ← system.samplePlatform rank measured state
  let walk ← (List.range (system.topology.numLevelCtl rank)).foldlM (system.riseLevel rank) start
  return if system.topology.numLevelCtl rank = system.topology.rootLevel then walk.2
  else sendSample (system.topology.numLevelCtl rank) rank walk

/-- A walk of a controller, with what the endpoint, the clock and the signals say. -/
inductive Action where
  | walkDown (rank : Nat) (endpointPolicy : Policy) (clock : Nat → ℚ)
  | walkUp (rank : Nat) (measured : Nat → Measured)

def perform (state : State) : Action → Except AgentError State
  | .walkDown rank endpointPolicy clock => system.walkDown rank endpointPolicy clock state
  | .walkUp rank measured => system.walkUp rank measured state

/-- A run ends with the first exception. -/
def step (reached : Except AgentError State) (action : Action) : Except AgentError State :=
  reached.bind fun state => system.perform state action

/-- `Controller::step`: each controller walks down and up in turn. -/
def Permits (state : State) : Action → Prop
  | .walkDown rank _ _ => rank < system.topology.numRank ∧ (state.node rank).walks % 2 = 0
  | .walkUp rank _ => rank < system.topology.numRank ∧ (state.node rank).walks % 2 = 1

end System

end Balancer

end Geopm
