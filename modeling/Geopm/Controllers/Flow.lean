import Geopm.Controllers.Tree
import Geopm.Library.Outcome
import Mathlib.Data.List.Forall2

namespace Geopm

/-! The samples on their way up the tree, whatever the order of the walks. -/

namespace Controllers

namespace State

variable {Policy Sample Agent : Type} {state : State Policy Sample Agent} {node : Node Policy Sample Agent}
  {level upper rank other : Nat} {ranks : List Nat} {sample : Sample} {outPolicy : List Policy}
  {change : Mailbox Sample → Mailbox Sample}

@[simp] theorem setNode_node_self : (state.setNode rank node).node rank = node := by
  simp [setNode]

theorem setNode_node_other (differs : other ≠ rank) : (state.setNode rank node).node other = state.node other := by
  simp [setNode, differs]

@[simp] theorem setNode_link : (state.setNode rank node).link = state.link := rfl

@[simp] theorem sendDown_node : (state.sendDown level ranks outPolicy).node = state.node := rfl

@[simp] theorem sendUp_node : (state.sendUp level rank sample).node = state.node := rfl

@[simp] theorem setMailboxes_node : (state.setMailboxes level ranks change).node = state.node := rfl

theorem sendDown_samples :
    ((state.sendDown level ranks outPolicy).link upper rank).samples = (state.link upper rank).samples := by
  by_cases same : upper = level
  · subst same
    simp [sendDown, setLinks]
  · simp [sendDown, setLinks, same]

theorem sendUp_self : ((state.sendUp level rank sample).link level rank).samples =
    (state.link level rank).samples.send sample := by
  simp [sendUp, setLinks]

theorem sendUp_other (differs : ¬(upper = level ∧ other = rank)) :
    ((state.sendUp level rank sample).link upper other).samples = (state.link upper other).samples := by
  by_cases same : upper = level
  · subst same
    have apart : other ≠ rank := fun equal => differs ⟨rfl, equal⟩
    simp [sendUp, setLinks, apart]
  · simp [sendUp, setLinks, same]

theorem setMailboxes_member (member : rank ∈ ranks) :
    ((state.setMailboxes level ranks change).link level rank).samples = change (state.link level rank).samples := by
  simp [setMailboxes, setLinks, member]

theorem setMailboxes_other (differs : ¬(upper = level ∧ other ∈ ranks)) :
    ((state.setMailboxes level ranks change).link upper other).samples = (state.link upper other).samples := by
  by_cases same : upper = level
  · subst same
    have apart : other ∉ ranks := fun member => differs ⟨rfl, member⟩
    simp [setMailboxes, setLinks, apart]
  · simp [setMailboxes, setLinks, same]

end State

namespace System

variable {Policy Sample Agent Reading Reason : Type} (system : System Policy Sample Agent Reading Reason)

/-- An agent that controls a level makes the sample from those of its children, and sends it. -/
structure Combines (samples : List Sample) (sample : Sample) : Prop where
  complete : ∀ child ∈ samples, system.sampleHasNan child = false
  made : ∃ outSample agent after, system.methods.aggregateSample samples outSample agent = .ok (sample, after) ∧
    system.methods.doSendSample after = true

/-- What the head of a level has taken from its children, each time one sample of all of them, and what it has made
from some of these sets, one after the other. -/
structure Passes (state : State Policy Sample Agent) (level head : Nat) (sets chosen : List (Nat → Sample)) : Prop where
  taken : ∀ child ∈ system.topology.members level head, (state.link level child).samples.taken = sets.map (· child)
  thinned : chosen.Sublist sets
  made : List.Forall₂ (fun sample set => system.Combines ((system.topology.members level head).map set) sample)
    (state.link (level + 1) head).samples.sent chosen

structure Flows (state : State Policy Sample Agent) : Prop where
  inOrder : ∀ level rank, (state.link level rank).samples.InOrder
  passes : ∀ level head, head < system.topology.numRank → level < system.topology.numLevelCtl head →
    ∃ sets chosen, system.Passes state level head sets chosen

/-- A set that the head of a level has taken, and from which it has made nothing yet. -/
structure Holds (state : State Policy Sample Agent) (level head : Nat) (samples : List Sample) : Prop where
  inOrder : ∀ level rank, (state.link level rank).samples.InOrder
  others : ∀ lower other, other < system.topology.numRank → lower < system.topology.numLevelCtl other →
    ¬(lower = level ∧ other = head) → ∃ sets chosen, system.Passes state lower other sets chosen
  last : ∃ sets chosen set, system.Passes state level head (sets ++ [set]) chosen ∧ chosen.Sublist sets ∧
    samples = (system.topology.members level head).map set
  complete : ∀ sample ∈ samples, system.sampleHasNan sample = false

variable {system} {state after : State Policy Sample Agent} {level lower head rank : Nat} {sample : Sample}
  {samples : List Sample} {samplers : List Nat} {sets chosen : List (Nat → Sample)} {walk : Bool × State Policy Sample Agent}

theorem Passes.congr (passes : system.Passes state level head sets chosen)
    (taken : ∀ child ∈ system.topology.members level head,
      (after.link level child).samples.taken = (state.link level child).samples.taken)
    (sent : (after.link (level + 1) head).samples.sent = (state.link (level + 1) head).samples.sent) :
    system.Passes after level head sets chosen where
  taken child member := (taken child member).trans (passes.taken child member)
  thinned := passes.thinned
  made := sent ▸ passes.made

/-- Two states with the same mailboxes. -/
def SameSamples (state after : State Policy Sample Agent) : Prop :=
  ∀ level rank, (after.link level rank).samples = (state.link level rank).samples

theorem Passes.same (passes : system.Passes state level head sets chosen) (same : SameSamples state after) :
    system.Passes after level head sets chosen :=
  passes.congr (fun child _ => congrArg Mailbox.taken (same level child)) (congrArg Mailbox.sent (same (level + 1) head))

theorem Flows.same (flows : system.Flows state) (same : SameSamples state after) : system.Flows after where
  inOrder level rank := same level rank ▸ flows.inOrder level rank
  passes level head known controls := by
    obtain ⟨sets, chosen, passes⟩ := flows.passes level head known controls
    exact ⟨sets, chosen, passes.same same⟩

theorem Holds.same (holds : system.Holds state level head samples) (same : SameSamples state after) :
    system.Holds after level head samples where
  inOrder level rank := same level rank ▸ holds.inOrder level rank
  others lower other known controls apart := by
    obtain ⟨sets, chosen, passes⟩ := holds.others lower other known controls apart
    exact ⟨sets, chosen, passes.same same⟩
  last := by
    obtain ⟨sets, chosen, set, passes, thinned, made⟩ := holds.last
    exact ⟨sets, chosen, set, passes.same same, thinned, made⟩
  complete := holds.complete

/-- A sample of a leaf does not concern the levels above. -/
theorem Flows.sendLeaf (flows : system.Flows state) : system.Flows (state.sendUp 0 rank sample) where
  inOrder level other := by
    by_cases here : level = 0 ∧ other = rank
    · rw [here.1, here.2, State.sendUp_self]
      exact (flows.inOrder 0 rank).send
    · rw [State.sendUp_other here]
      exact flows.inOrder level other
  passes level head known controls := by
    obtain ⟨sets, chosen, passes⟩ := flows.passes level head known controls
    refine ⟨sets, chosen, passes.congr (fun child _ => ?_) ?_⟩
    · by_cases here : level = 0 ∧ child = rank
      · rw [here.1, here.2, State.sendUp_self]
        rfl
      · rw [State.sendUp_other here]
    · rw [State.sendUp_other fun here => Nat.succ_ne_zero level here.1]

/-- What has been taken and is not passed on is lost. -/
theorem Holds.keep (holds : system.Holds state level head samples) : system.Flows state where
  inOrder := holds.inOrder
  passes lower other known controls := by
    by_cases here : lower = level ∧ other = head
    · obtain ⟨rfl, rfl⟩ := here
      obtain ⟨sets, chosen, set, passes, thinned, made⟩ := holds.last
      exact ⟨_, _, passes⟩
    · exact holds.others lower other known controls here

/-- The sample that the head makes of it, and sends. -/
theorem Holds.send (holds : system.Holds state level head samples) (combines : system.Combines samples sample) :
    system.Flows (state.sendUp (level + 1) head sample) where
  inOrder upper other := by
    by_cases here : upper = level + 1 ∧ other = head
    · rw [here.1, here.2, State.sendUp_self]
      exact (holds.inOrder (level + 1) head).send
    · rw [State.sendUp_other here]
      exact holds.inOrder upper other
  passes lower other known controls := by
    have taken : ∀ child, ((state.sendUp (level + 1) head sample).link lower child).samples.taken =
        (state.link lower child).samples.taken := by
      intro child
      by_cases here : lower = level + 1 ∧ child = head
      · rw [here.1, here.2, State.sendUp_self]
        rfl
      · rw [State.sendUp_other here]
    by_cases here : lower = level ∧ other = head
    · obtain ⟨rfl, rfl⟩ := here
      obtain ⟨sets, chosen, set, passes, thinned, made⟩ := holds.last
      refine ⟨sets ++ [set], chosen ++ [set], fun child member => (taken child).trans (passes.taken child member),
        thinned.append_right [set], ?_⟩
      rw [State.sendUp_self]
      exact List.rel_append passes.made (.cons (made ▸ combines) .nil)
    · obtain ⟨sets, chosen, passes⟩ := holds.others lower other known controls here
      refine ⟨sets, chosen, passes.congr (fun child _ => taken child) ?_⟩
      rw [State.sendUp_other fun same => here ⟨Nat.succ.inj same.1, same.2⟩]

theorem SameSamples.refl : SameSamples state state := fun _ _ => rfl

theorem SameSamples.trans {middle : State Policy Sample Agent} (first : SameSamples state middle)
    (second : SameSamples middle after) : SameSamples state after :=
  fun level rank => (second level rank).trans (first level rank)

theorem sameSamples_of_link (link : after.link = state.link) : SameSamples state after := by
  intro level rank
  rw [link]

/-- Nothing is taken where a sample is missing, and nothing is used where one has a nan. -/
theorem Flows.clear (flows : system.Flows state) : system.Flows (state.setMailboxes level samplers .clear) where
  inOrder upper other := by
    by_cases here : upper = level ∧ other ∈ samplers
    · obtain ⟨rfl, member⟩ := here
      rw [State.setMailboxes_member member]
      exact (flows.inOrder upper other).clear
    · rw [State.setMailboxes_other here]
      exact flows.inOrder upper other
  passes lower other known controls := by
    obtain ⟨sets, chosen, passes⟩ := flows.passes lower other known controls
    have kept : ∀ upper rank, ((state.setMailboxes level samplers .clear).link upper rank).samples.taken =
          (state.link upper rank).samples.taken ∧
        ((state.setMailboxes level samplers .clear).link upper rank).samples.sent =
          (state.link upper rank).samples.sent := by
      intro upper rank
      by_cases here : upper = level ∧ rank ∈ samplers
      · obtain ⟨rfl, member⟩ := here
        rw [State.setMailboxes_member member]
        exact ⟨rfl, rfl⟩
      · rw [State.setMailboxes_other here]
        exact ⟨rfl, rfl⟩
    exact ⟨sets, chosen, passes.congr (fun child _ => (kept lower child).1) (kept (lower + 1) other).2⟩

/-- The samples of all children are taken at once. -/
theorem Flows.take (flows : system.Flows state) (known : head < system.topology.numRank)
    (controls : level < system.topology.numLevelCtl head)
    (found : ((system.topology.members level head).map fun child => (state.link level child).samples.slot) =
      samples.map some)
    (complete : ∀ sample ∈ samples, system.sampleHasNan sample = false) :
    system.Holds (state.setMailboxes level (system.topology.members level head) .take) level head samples := by
  set members := system.topology.members level head with children
  have untaken : ∀ upper rank, ¬(upper = level ∧ rank ∈ members) →
      ((state.setMailboxes level members .take).link upper rank).samples.taken =
        (state.link upper rank).samples.taken := by
    intro upper rank outside
    rw [State.setMailboxes_other outside]
  have sent : ∀ upper rank, ((state.setMailboxes level members .take).link upper rank).samples.sent =
      (state.link upper rank).samples.sent := by
    intro upper rank
    by_cases here : upper = level ∧ rank ∈ members
    · obtain ⟨rfl, member⟩ := here
      rw [State.setMailboxes_member member]
      rfl
    · rw [State.setMailboxes_other here]
  constructor
  case inOrder =>
      intro upper rank
      by_cases here : upper = level ∧ rank ∈ members
      · obtain ⟨rfl, member⟩ := here
        rw [State.setMailboxes_member member]
        exact (flows.inOrder upper rank).take
      · rw [State.setMailboxes_other here]
        exact flows.inOrder upper rank
  case others =>
      intro lower other otherKnown otherControls apart
      obtain ⟨sets, chosen, passes⟩ := flows.passes lower other otherKnown otherControls
      refine ⟨sets, chosen, passes.congr (fun child member => untaken lower child ?_) (sent (lower + 1) other)⟩
      rintro ⟨rfl, inside⟩
      have parent := ((system.topology.mem_members head known lower controls child).mp inside).2.2
      have other := ((system.topology.mem_members other otherKnown lower otherControls child).mp member).2.2
      exact apart ⟨rfl, other.symm.trans parent⟩
  case last =>
      obtain ⟨sets, chosen, passes⟩ := flows.passes level head known controls
      have some : ∀ child ∈ members, ∃ sample, (state.link level child).samples.slot = some sample := by
        intro child member
        have present : (state.link level child).samples.slot ∈ samples.map Option.some := by
          rw [← found]
          exact List.mem_map_of_mem member
        obtain ⟨sample, _, same⟩ := List.mem_map.mp present
        exact ⟨sample, same.symm⟩
      refine ⟨sets, chosen, fun child => ((state.link level child).samples.slot).getD system.methods.unsetSample,
        ⟨?_, passes.thinned.trans (List.sublist_append_left _ _), sent (level + 1) head ▸ passes.made⟩,
        passes.thinned, ?_⟩
      · intro child member
        obtain ⟨sample, slot⟩ := some child member
        rw [State.setMailboxes_member member, Mailbox.take, passes.taken child member, List.map_append,
          List.map_singleton, slot]
        exact congrArg (_ ++ [·]) (congrArg (·.getD system.methods.unsetSample) slot).symm
      · have read := congrArg (List.map fun slot : Option Sample => slot.getD system.methods.unsetSample) found
        rw [List.map_map, List.map_map] at read
        exact (List.map_id samples).symm.trans read.symm
  case complete => exact complete

/-- A walk up keeps the flow, whether or not the last sample is sent. -/
theorem riseLevel_passing (known : rank < system.topology.numRank) (controls : level < system.topology.numLevelCtl rank)
    (passing : system.Flows (sendSample level rank walk)) :
    Outcome.Keeps (fun _ => True)
      (fun next => system.Flows (sendSample (level + 1) rank next) ∧ system.Flows next.2)
      (system.riseLevel rank walk level) := by
  rw [riseLevel, receiveUp]
  cases found : (system.topology.members level rank).mapM
      fun child => ((sendSample level rank walk).link level child).samples.slot with
  | none => exact ⟨passing, passing⟩
  | some samples =>
      by_cases nan : samples.any system.sampleHasNan
      · simp only [if_pos nan]
        exact ⟨passing.clear, passing.clear⟩
      · simp only [if_neg nan]
        rw [aggregateSample]
        have complete : ∀ sample ∈ samples, system.sampleHasNan sample = false := by
          simpa using nan
        have holds := passing.take known controls (Outcome.map_eq_of_mapM found) complete
        refine Outcome.keeps_bind (fun _ _ => trivial) fun result made => ?_
        obtain ⟨sample, agent⟩ := result
        have after : ∀ node, system.Holds (State.setNode ((sendSample level rank walk).setMailboxes level
            (system.topology.members level rank) .take) rank node) level rank samples :=
          fun node => holds.same (sameSamples_of_link rfl)
        refine ⟨?_, (after _).keep⟩
        rw [sendSample]
        cases sends : system.methods.doSendSample agent with
        | false => exact (after _).keep
        | true =>
            rw [if_pos rfl, State.setNode_node_self]
            exact (after _).send ⟨complete, _, _, _, made, sends⟩

theorem samplePlatform_passing {reading : Reading} (flows : system.Flows state) :
    Outcome.Keeps (fun _ => True) (fun next => system.Flows (sendSample 0 rank next) ∧ system.Flows next.2)
      (system.samplePlatform rank reading state) := by
  rw [samplePlatform]
  refine Outcome.keeps_bind (fun _ _ => trivial) fun result made => ?_
  have after : ∀ node, system.Flows (state.setNode rank node) := fun node => flows.same (sameSamples_of_link rfl)
  refine ⟨?_, after _⟩
  rw [sendSample]
  cases sends : system.methods.doSendSample result.2 with
  | false => exact after _
  | true => exact (after _).sendLeaf

theorem walkUp_flows {reading : Reading} (flows : system.Flows state) (known : rank < system.topology.numRank) :
    Outcome.Keeps (fun _ => True) system.Flows (system.walkUp rank reading state) := by
  rw [walkUp]
  refine (samplePlatform_passing flows).bind fun start passing => ?_
  have step : ∀ level walk, level < system.topology.numLevelCtl rank →
      (List.range level).foldlM (system.riseLevel rank) start = .ok walk →
      system.Flows (sendSample level rank walk) ∧ system.Flows walk.2 → Outcome.Keeps (fun _ => True)
        (fun next => system.Flows (sendSample (level + 1) rank next) ∧ system.Flows next.2)
        (system.riseLevel rank walk level) :=
    fun level walk inside _ passing => riseLevel_passing known inside passing.1
  have rises := Outcome.keeps_range passing step
  refine rises.bind fun walk passing => ?_
  change system.Flows (system.writeSample rank walk)
  rw [writeSample]
  split
  · exact passing.2
  · exact passing.1

theorem receiveDown_sameSamples : SameSamples state (system.receiveDown level rank state).2 := by
  apply sameSamples_of_link
  rw [receiveDown]
  split <;> rfl

theorem splitPolicy_sameSamples :
    Outcome.Keeps (fun _ => True) (SameSamples state) (system.splitPolicy level rank state) := by
  rw [splitPolicy]
  refine Outcome.keeps_bind (fun _ _ => trivial) fun inPolicy _ => Outcome.keeps_bind (fun _ _ => trivial) fun split _ => ?_
  change SameSamples state (if _ then _ else _)
  split
  · exact fun level rank => State.sendDown_samples
  · exact sameSamples_of_link rfl

theorem walkDown_sameSamples {endpointPolicy : Policy} :
    Outcome.Keeps (fun _ => True) (SameSamples state) (system.walkDown rank endpointPolicy state) := by
  have start : SameSamples state (system.startWalk rank endpointPolicy state).2 := by
    rw [startWalk]
    split
    · exact sameSamples_of_link rfl
    · exact receiveDown_sameSamples
  have level : ∀ (walk : Bool × State Policy Sample Agent) level, SameSamples state walk.2 →
      Outcome.Keeps (fun _ => True) (fun next => SameSamples state next.2) (system.walkLevel rank walk level) := by
    intro walk level before
    rw [walkLevel]
    split
    · exact splitPolicy_sameSamples.bind fun next same => (before.trans same).trans receiveDown_sameSamples
    · exact before.trans receiveDown_sameSamples
  rw [walkDown]
  refine (Outcome.keeps_foldlM level start).bind fun walk same => ?_
  rw [adjustPlatform]
  exact Outcome.keeps_bind (fun _ _ => trivial) fun inPolicy _ => Outcome.keeps_bind (fun _ _ => trivial)
    fun agent _ => same.trans (sameSamples_of_link rfl)

theorem initial_flows : system.Flows system.initial where
  inOrder _ _ := Mailbox.inOrder_empty
  passes _ _ _ _ := ⟨[], [], fun _ _ => rfl, List.Sublist.refl [], .nil⟩

/-- Every walk keeps the flow of the samples. -/
theorem run_flows {actions : List (Action Policy Reading)}
    (permitted : Transition.Permitted system.step system.InTurn (.ok system.initial) actions) :
    Outcome.Keeps (fun _ => True) system.Flows (Transition.run system.step (.ok system.initial) actions) := by
  have walks : ∀ (before : List (Action Policy Reading)) (action : Action Policy Reading) state, system.Flows state →
      system.Permits state action → Outcome.Keeps (fun _ => True) system.Flows (system.perform state action) := by
    intro before action state flows permits
    cases action with
    | walkDown rank endpointPolicy => exact walkDown_sameSamples.mono fun next same => flows.same same
    | walkUp rank reading => exact walkUp_flows flows permits.1
  exact keeps_run initial_flows walks permitted

end System

end Controllers

end Geopm
