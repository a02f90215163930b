import Geopm.Library.Mailbox
import Geopm.Library.Outcome
import Geopm.Library.Run
import Geopm.PolicySource
import Geopm.TreeComm.Topology
import Mathlib.Data.List.Induction
import Mathlib.Logic.Function.Basic

namespace Geopm

/-! `Controller` for agents of any kind: the controllers of a tree, which walk down and up in any order. -/

namespace Controllers

/-- The methods of an agent that `Controller` calls. A level above the leaves has the first ones, the leaf the last. -/
structure Methods (Policy Sample Agent Reading Reason : Type) where
  policyValues : Policy → List Number
  sampleValues : Sample → List Number
  /-- A vector of `NAN`. -/
  unsetPolicy : Policy
  unsetSample : Sample
  validatePolicy : Policy → Agent → Except Reason Policy
  splitPolicy : Policy → List Policy → Agent → Except Reason (List Policy × Agent)
  doSendPolicy : Agent → Bool
  aggregateSample : List Sample → Sample → Agent → Except Reason (Sample × Agent)
  doSendSample : Agent → Bool
  adjustPlatform : Policy → Agent → Except Reason Agent
  samplePlatform : Reading → Sample → Agent → Except Reason (Sample × Agent)

/-- What a rank of a level shares with its parent there: the last policy for it, which stays, and its samples. -/
structure Link (Policy Sample : Type) where
  policy : Option Policy
  samples : Mailbox Sample

/-- `Controller`. -/
structure Node (Policy Sample Agent : Type) where
  /-- How often it has walked. It walks down and up in turn. -/
  walks : Nat
  inPolicy : Policy
  lastPolicy : Policy
  outPolicy : Nat → List Policy
  outSample : Sample
  agent : Nat → Agent

/-- The controllers of all ranks, and the links of each rank to its parent in each level. That of the root in the level
above all others is the endpoint, to which it writes samples. -/
structure State (Policy Sample Agent : Type) where
  node : Nat → Node Policy Sample Agent
  link : Nat → Nat → Link Policy Sample

namespace State

variable {Policy Sample Agent : Type}

def setNode (state : State Policy Sample Agent) (rank : Nat) (node : Node Policy Sample Agent) :
    State Policy Sample Agent :=
  { state with node := Function.update state.node rank node }

/-- Change the links of a level. -/
def setLinks (state : State Policy Sample Agent) (level : Nat) (change : Nat → Link Policy Sample → Link Policy Sample) :
    State Policy Sample Agent :=
  { state with link := Function.update state.link level fun rank => change rank (state.link level rank) }

/-- `send_down` to the ranks of a communicator. -/
def sendDown (level : Nat) (members : List Nat) (outPolicy : List Policy) (state : State Policy Sample Agent) :
    State Policy Sample Agent :=
  state.setLinks level fun rank link => { link with policy := ((members.zip outPolicy).lookup rank).or link.policy }

/-- `send_up`. -/
def sendUp (level rank : Nat) (sample : Sample) (state : State Policy Sample Agent) : State Policy Sample Agent :=
  state.setLinks level fun other link =>
    if other = rank then { link with samples := link.samples.send sample } else link

/-- What the parents do with the mailboxes of some ranks. -/
def setMailboxes (level : Nat) (ranks : List Nat) (change : Mailbox Sample → Mailbox Sample)
    (state : State Policy Sample Agent) : State Policy Sample Agent :=
  state.setLinks level fun rank link =>
    if rank ∈ ranks then { link with samples := change link.samples } else link

end State

/-- The nodes of a job with their agents, and where the policy of the root is from. -/
structure System (Policy Sample Agent Reading Reason : Type) where
  methods : Methods Policy Sample Agent Reading Reason
  topology : Topology
  /-- The agent that `create_agents` and `init_agents` make for a level of a rank. -/
  agent : Nat → Nat → Agent
  /-- Each node reads the file, if there is one. Else the root reads an endpoint. -/
  filePolicy : Option Policy

namespace System

variable {Policy Sample Agent Reading Reason : Type} (system : System Policy Sample Agent Reading Reason)

/-- The constructor. -/
def initial : State Policy Sample Agent where
  node rank :=
    { walks := 0
      inPolicy := system.filePolicy.getD system.methods.unsetPolicy
      lastPolicy := system.methods.unsetPolicy
      outPolicy := fun level =>
        List.replicate (system.topology.members level rank).length system.methods.unsetPolicy
      outSample := system.methods.unsetSample
      agent := system.agent rank }
  link _ _ := ⟨none, .empty⟩

def policyHasNan (policy : Policy) : Bool := (system.methods.policyValues policy).any Number.isNan

def sampleHasNan (sample : Sample) : Bool := (system.methods.sampleValues sample).any Number.isNan

/-- `receive_down`: whether there is a policy without nan. -/
def receiveDown (level rank : Nat) (state : State Policy Sample Agent) : Bool × State Policy Sample Agent :=
  match (state.link level rank).policy with
  | none => (false, state)
  | some policy => (!system.policyHasNan policy, state.setNode rank { state.node rank with inPolicy := policy })

/-- Where the root gets its policy from when the endpoint has the given one. -/
def source (endpointPolicy : Policy) : PolicySource Policy :=
  match system.filePolicy with
  | some policy => .file policy
  | none => .endpoint endpointPolicy

/-- The comparison of a policy with the last one. -/
def same (policy lastPolicy : Policy) : Bool :=
  samePolicy (system.methods.policyValues policy) (system.methods.policyValues lastPolicy)

/-- The start of `walk_down`. -/
def startWalk (rank : Nat) (endpointPolicy : Policy) (state : State Policy Sample Agent) :
    Bool × State Policy Sample Agent :=
  if system.topology.numLevelCtl rank = system.topology.rootLevel then
    let node := state.node rank
    let read := (system.source endpointPolicy).read system.same node.lastPolicy
    (read.1, state.setNode rank { node with
      inPolicy := (system.source endpointPolicy).policy, lastPolicy := read.2 })
  else system.receiveDown (system.topology.numLevelCtl rank) rank state

/-- `validate_policy`, `split_policy` and `send_down` of the agent that controls a level. -/
def splitPolicy (level rank : Nat) (state : State Policy Sample Agent) : Except Reason (State Policy Sample Agent) := do
  let node := state.node rank
  let inPolicy ← system.methods.validatePolicy node.inPolicy (node.agent (level + 1))
  let (outPolicy, agent) ← system.methods.splitPolicy inPolicy (node.outPolicy level) (node.agent (level + 1))
  let split := state.setNode rank { node with
    inPolicy
    outPolicy := Function.update node.outPolicy level outPolicy
    agent := Function.update node.agent (level + 1) agent }
  return if system.methods.doSendPolicy agent then split.sendDown level (system.topology.members level rank) outPolicy
  else split

/-- The body of the loop of `walk_down`. -/
def walkLevel (rank : Nat) (walk : Bool × State Policy Sample Agent) (level : Nat) :
    Except Reason (Bool × State Policy Sample Agent) := do
  let state ← if walk.1 then system.splitPolicy level rank walk.2 else pure walk.2
  return system.receiveDown level rank state

/-- The end of `walk_down`. -/
def adjustPlatform (rank : Nat) (state : State Policy Sample Agent) : Except Reason (State Policy Sample Agent) := do
  let node := state.node rank
  let inPolicy ← system.methods.validatePolicy node.inPolicy (node.agent 0)
  let agent ← system.methods.adjustPlatform inPolicy (node.agent 0)
  return state.setNode rank { node with
    inPolicy, agent := Function.update node.agent 0 agent, walks := node.walks + 1 }

/-- `walk_down`. -/
def walkDown (rank : Nat) (endpointPolicy : Policy) (state : State Policy Sample Agent) :
    Except Reason (State Policy Sample Agent) := do
  let walk ← (List.range (system.topology.numLevelCtl rank)).reverse.foldlM (system.walkLevel rank)
    (system.startWalk rank endpointPolicy state)
  system.adjustPlatform rank walk.2

/-- `receive_up`: the samples of all children, unless one is missing or has a nan. They are gone also where one has. -/
def receiveUp (level rank : Nat) (state : State Policy Sample Agent) : Option (List Sample) × State Policy Sample Agent :=
  let children := system.topology.members level rank
  match children.mapM fun child => (state.link level child).samples.slot with
  | none => (none, state)
  | some samples =>
      if samples.any system.sampleHasNan then (none, state.setMailboxes level children .clear)
      else (some samples, state.setMailboxes level children .take)

/-- `aggregate_sample` of the agent that controls a level, and whether it has something to send. -/
def aggregateSample (level rank : Nat) (samples : List Sample) (state : State Policy Sample Agent) :
    Except Reason (Bool × State Policy Sample Agent) := do
  let node := state.node rank
  let (outSample, agent) ← system.methods.aggregateSample samples node.outSample (node.agent (level + 1))
  return (system.methods.doSendSample agent, state.setNode rank { node with
    outSample, agent := Function.update node.agent (level + 1) agent })

def sendSample (level rank : Nat) (walk : Bool × State Policy Sample Agent) : State Policy Sample Agent :=
  if walk.1 then walk.2.sendUp level rank (walk.2.node rank).outSample else walk.2

/-- The body of the loop of `walk_up`. -/
def riseLevel (rank : Nat) (walk : Bool × State Policy Sample Agent) (level : Nat) :
    Except Reason (Bool × State Policy Sample Agent) :=
  match system.receiveUp level rank (sendSample level rank walk) with
  | (none, state) => .ok (false, state)
  | (some samples, state) => system.aggregateSample level rank samples state

/-- The start of `walk_up`. -/
def samplePlatform (rank : Nat) (reading : Reading) (state : State Policy Sample Agent) :
    Except Reason (Bool × State Policy Sample Agent) := do
  let node := state.node rank
  let (outSample, agent) ← system.methods.samplePlatform reading node.outSample (node.agent 0)
  return (system.methods.doSendSample agent, state.setNode rank { node with
    outSample, agent := Function.update node.agent 0 agent, walks := node.walks + 1 })

/-- The end of `walk_up`. The root has no endpoint if there is a file. -/
def writeSample (rank : Nat) (walk : Bool × State Policy Sample Agent) : State Policy Sample Agent :=
  if system.topology.numLevelCtl rank = system.topology.rootLevel ∧ system.filePolicy.isSome then walk.2
  else sendSample (system.topology.numLevelCtl rank) rank walk

/-- `walk_up`. -/
def walkUp (rank : Nat) (reading : Reading) (state : State Policy Sample Agent) :
    Except Reason (State Policy Sample Agent) := do
  let start ← system.samplePlatform rank reading state
  let walk ← (List.range (system.topology.numLevelCtl rank)).foldlM (system.riseLevel rank) start
  return system.writeSample rank walk

/-- A walk of a controller, with what the endpoint and the platform say. -/
inductive Action (Policy Reading : Type) where
  | walkDown (rank : Nat) (endpointPolicy : Policy)
  | walkUp (rank : Nat) (reading : Reading)
deriving Repr, DecidableEq

def perform (state : State Policy Sample Agent) : Action Policy Reading → Except Reason (State Policy Sample Agent)
  | .walkDown rank endpointPolicy => system.walkDown rank endpointPolicy state
  | .walkUp rank reading => system.walkUp rank reading state

/-- `Controller::step`: each controller walks down and up in turn. -/
def Permits (state : State Policy Sample Agent) : Action Policy Reading → Prop
  | .walkDown rank _ => rank < system.topology.numRank ∧ (state.node rank).walks % 2 = 0
  | .walkUp rank _ => rank < system.topology.numRank ∧ (state.node rank).walks % 2 = 1

instance (state : State Policy Sample Agent) : ∀ action : Action Policy Reading, Decidable (system.Permits state action)
  | .walkDown _ _ => inferInstanceAs (Decidable (_ ∧ _))
  | .walkUp _ _ => inferInstanceAs (Decidable (_ ∧ _))

/-- A run ends with the first exception. -/
def step (reached : Except Reason (State Policy Sample Agent)) (action : Action Policy Reading) :
    Except Reason (State Policy Sample Agent) :=
  reached.bind fun state => system.perform state action

/-- Each controller walks down and up in turn. -/
def InTurn (reached : Except Reason (State Policy Sample Agent)) (action : Action Policy Reading) : Prop :=
  match reached with
  | .error _ => True
  | .ok state => system.Permits state action

instance (reached : Except Reason (State Policy Sample Agent)) (action : Action Policy Reading) :
    Decidable (system.InTurn reached action) :=
  match reached with
  | .error _ => inferInstanceAs (Decidable True)
  | .ok state => inferInstanceAs (Decidable (system.Permits state action))

variable {system} {actions : List (Action Policy Reading)}

/-- What each walk keeps unless it throws an exception that is to be expected, a run keeps. -/
theorem keeps_run {invariant : List (Action Policy Reading) → State Policy Sample Agent → Prop} {expected : Reason → Prop}
    (start : invariant [] system.initial)
    (walks : ∀ before action state, invariant before state → system.Permits state action →
      Outcome.Keeps expected (invariant (before ++ [action])) (system.perform state action))
    (permitted : Transition.Permitted system.step system.InTurn (.ok system.initial) actions) :
    Outcome.Keeps expected (invariant actions) (Transition.run system.step (.ok system.initial) actions) := by
  induction actions using List.reverseRecOn with
  | nil => exact start
  | append_singleton before action ih =>
      rw [Transition.permitted_concat] at permitted
      have kept := ih permitted.1
      have inTurn := permitted.2
      rw [Transition.run_concat]
      cases reached : Transition.run system.step (.ok system.initial) before with
      | error reason =>
          rw [reached] at kept
          exact kept
      | ok state =>
          rw [reached] at kept inTurn
          exact walks before action state kept inTurn

end System

end Controllers

end Geopm
