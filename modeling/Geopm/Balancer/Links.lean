import Geopm.Balancer.LeafFollows

namespace Geopm

/-! The links of a tree of power balancers, and what a change of one node does to them. -/

namespace Topology

/-- The rank has a parent in the level. -/
structure IsLink (topology : Topology) (level rank : Nat) : Prop where
  known : rank < topology.numRank
  inside : level < topology.rootLevel
  takesPart : level ≤ topology.numLevelCtl rank

variable {topology : Topology} {rank level : Nat}

theorem IsLink.parent_known (isLink : topology.IsLink level rank) :
    topology.parent level rank < topology.numRank ∧
      level < topology.numLevelCtl (topology.parent level rank) :=
  topology.parent_known rank isLink.known level isLink.inside isLink.takesPart

theorem isLink_self (known : rank < topology.numRank) (controls : level < topology.numLevelCtl rank) :
    topology.IsLink level rank :=
  ⟨known, Nat.lt_of_lt_of_le controls (numLevelCtl_le known), Nat.le_of_lt controls⟩

theorem isLink_above (known : rank < topology.numRank) (controls : level < topology.numLevelCtl rank)
    (inner : level + 1 ≠ topology.rootLevel) : topology.IsLink (level + 1) rank := by
  have below := numLevelCtl_le known
  exact ⟨known, by omega, controls⟩

theorem first_of_root (known : rank < topology.numRank) (controls : level < topology.numLevelCtl rank)
    (isRoot : level + 1 = topology.rootLevel) : rank = 0 := by
  have below := numLevelCtl_le known
  exact (controls_all known).mp (by omega)

theorem mem_members_iff (known : rank < topology.numRank) (controls : level < topology.numLevelCtl rank)
    {child : Nat} (isLink : topology.IsLink level child) :
    child ∈ topology.members level rank ↔ topology.parent level child = rank := by
  rw [topology.mem_members rank known level controls child]
  exact ⟨fun member => member.2.2, fun parent => ⟨isLink.known, isLink.takesPart, parent⟩⟩

end Topology

namespace Balancer

/-- How far a node is with the agent that has the role of a child in the level. -/
def Node.progress (node : Node) : Nat → Progress
  | 0 => node.leaf.progress
  | level + 1 => (node.agent level).progress

namespace State

variable {state : State} {rank other level : Nat} {node : Node} {ranks : List Nat} {change : Link → Link}

@[simp] theorem setNode_node_self : (state.setNode rank node).node rank = node := by
  simp [setNode]

theorem setNode_node_other (differs : other ≠ rank) : (state.setNode rank node).node other = state.node other := by
  simp [setNode, differs]

@[simp] theorem setNode_link : (state.setNode rank node).link = state.link := rfl

@[simp] theorem setLinks_node : (state.setLinks level ranks change).node = state.node := rfl

theorem setLinks_link_member (member : other ∈ ranks) :
    (state.setLinks level ranks change).link level other = change (state.link level other) := by
  simp [setLinks, member]

theorem setLinks_link_other {upper : Nat} (differs : upper = level → other ∉ ranks) :
    (state.setLinks level ranks change).link upper other = state.link upper other := by
  by_cases same : upper = level
  · subst same
    simp [setLinks, differs rfl]
  · simp [setLinks, same]

end State

namespace System

variable {system : System} {state : State} {level rank : Nat} {node : Node} {agent : Agent} {good : RootRole → Prop}
  {relation : Nat → Link → Agent → Progress → Prop}

/-- The agents of the nodes are those of a tree, with a root role of some kind. -/
def EachAgent (system : System) (good : RootRole → Prop) (state : State) : Prop :=
  ∀ level rank, rank < system.topology.numRank → level < system.topology.numLevelCtl rank →
    ((state.node rank).agent level).Plays good (level + 1 = system.topology.rootLevel)

/-- A relation holds between each parent, the link to its child and the child. -/
def EachLink (system : System) (relation : Nat → Link → Agent → Progress → Prop) (state : State) : Prop :=
  ∀ level rank, system.topology.IsLink level rank → relation level (state.link level rank)
    ((state.node (system.topology.parent level rank)).agent level) ((state.node rank).progress level)

theorem agent_setNode (agents : node.agent = (state.node rank).agent) (other : Nat) :
    ((state.setNode rank node).node other).agent = (state.node other).agent := by
  by_cases self : other = rank
  · rw [self, State.setNode_node_self, agents]
  · rw [State.setNode_node_other self]

theorem leaf_setNode (leaf : node.leaf = (state.node rank).leaf) (other : Nat) :
    ((state.setNode rank node).node other).leaf = (state.node other).leaf := by
  by_cases self : other = rank
  · rw [self, State.setNode_node_self, leaf]
  · rw [State.setNode_node_other self]

theorem progress_setNode (agents : node.agent = (state.node rank).agent) (leaf : node.leaf = (state.node rank).leaf)
    (upper other : Nat) :
    ((state.setNode rank node).node other).progress upper = (state.node other).progress upper := by
  cases upper with
  | zero => rw [Node.progress, Node.progress, leaf_setNode leaf]
  | succ upper => rw [Node.progress, Node.progress, agent_setNode agents]

/-- A parent that has taken a sample of each child has taken one of this child. -/
theorem sample_received {samples : List Sample} (known : rank < system.topology.numRank)
    (controls : level < system.topology.numLevelCtl rank)
    (received : (system.topology.members level rank).mapM (fun child => (state.link level child).sample) = some samples)
    {other : Nat} (isLink : system.topology.IsLink level other) (parent : system.topology.parent level other = rank) :
    ∃ sample ∈ samples, (state.link level other).sample = some sample := by
  have member := (Topology.mem_members_iff known controls isLink).mpr parent
  have held : (state.link level other).sample ∈ samples.map some := by
    rw [← Outcome.map_eq_of_mapM received]
    exact List.mem_map_of_mem member
  obtain ⟨sample, inside, same⟩ := List.mem_map.mp held
  exact ⟨sample, inside, same.symm⟩

/-- A node whose agents stay the same. -/
theorem EachAgent.setNode (each : system.EachAgent good state) (agents : node.agent = (state.node rank).agent) :
    system.EachAgent good (state.setNode rank node) := by
  intro level other known controls
  rw [agent_setNode agents]
  exact each level other known controls

theorem EachLink.setNode (each : system.EachLink relation state) (agents : node.agent = (state.node rank).agent)
    (leaf : system.topology.IsLink 0 rank → relation 0 (state.link 0 rank)
      ((state.node (system.topology.parent 0 rank)).agent 0) node.leaf.progress) :
    system.EachLink relation (state.setNode rank node) := by
  intro level other isLink
  rw [agent_setNode agents, State.setNode_link]
  by_cases self : other = rank
  case neg =>
      rw [State.setNode_node_other self]
      exact each level other isLink
  case pos =>
      subst self
      rw [State.setNode_node_self]
      cases level with
      | zero => exact leaf isLink
      | succ level =>
          rw [Node.progress, agents]
          exact each (level + 1) other isLink

section SetAgent

variable (agents : node.agent = Function.update (state.node rank).agent level agent)

include agents

theorem agent_changed : ((state.setNode rank node).node rank).agent level = agent := by
  rw [State.setNode_node_self, agents, Function.update_self]

theorem agent_other {upper other : Nat} (differs : ¬(other = rank ∧ upper = level)) :
    ((state.setNode rank node).node other).agent upper = (state.node other).agent upper := by
  by_cases self : other = rank
  case pos =>
      rw [self, State.setNode_node_self, agents, Function.update_of_ne fun same => differs ⟨self, same⟩]
  case neg => rw [State.setNode_node_other self]

theorem progress_other {upper other : Nat} (leaf : node.leaf = (state.node rank).leaf)
    (differs : ¬(other = rank ∧ upper = level + 1)) :
    ((state.setNode rank node).node other).progress upper = (state.node other).progress upper := by
  cases upper with
  | zero =>
      by_cases self : other = rank
      · rw [self, State.setNode_node_self, Node.progress, Node.progress, leaf]
      · rw [State.setNode_node_other self]
  | succ upper =>
      rw [Node.progress, Node.progress, agent_other agents fun same => differs ⟨same.1, by rw [same.2]⟩]

/-- A node of which one agent changes. -/
theorem EachAgent.setAgent (each : system.EachAgent good state)
    (plays : agent.Plays good (level + 1 = system.topology.rootLevel)) :
    system.EachAgent good (state.setNode rank node) := by
  intro upper other known controls
  by_cases here : other = rank ∧ upper = level
  · rw [here.1, here.2, agent_changed agents]
    exact plays
  · rw [agent_other agents here]
    exact each upper other known controls

/-- A node of which one agent changes, and the links to its children. -/
theorem eachLink_setAgent (change : Link → Link)
    (known : rank < system.topology.numRank) (controls : level < system.topology.numLevelCtl rank)
    (leaf : node.leaf = (state.node rank).leaf)
    (others : ∀ upper other, system.topology.IsLink upper other →
      ¬(system.topology.parent upper other = rank ∧ upper = level) → relation upper (state.link upper other)
        ((state.node (system.topology.parent upper other)).agent upper) ((state.node other).progress upper))
    (children : ∀ other, system.topology.IsLink level other → system.topology.parent level other = rank →
      relation level (change (state.link level other)) agent ((state.node other).progress level))
    (child : level + 1 ≠ system.topology.rootLevel → relation (level + 1) (state.link (level + 1) rank)
      ((state.node (system.topology.parent (level + 1) rank)).agent (level + 1)) agent.progress) :
    system.EachLink relation
      ((state.setNode rank node).setLinks level (system.topology.members level rank) change) := by
  intro upper other isLink
  rw [State.setLinks_node]
  by_cases below : system.topology.parent upper other = rank ∧ upper = level
  case pos =>
      obtain ⟨parent, rfl⟩ := below
      have member := (Topology.mem_members_iff known controls isLink).mpr parent
      rw [State.setLinks_link_member member, parent, agent_changed agents, progress_other agents leaf (by omega)]
      exact children other isLink parent
  case neg =>
      have before := others upper other isLink below
      have differs : upper = level → other ∉ system.topology.members level rank := by
        intro same member
        subst same
        exact below ⟨(Topology.mem_members_iff known controls isLink).mp member, rfl⟩
      rw [State.setLinks_link_other differs, State.setNode_link, agent_other agents fun same => below ⟨same.1, same.2⟩]
      by_cases here : other = rank ∧ upper = level + 1
      case pos =>
          obtain ⟨rfl, rfl⟩ := here
          rw [Node.progress, agent_changed agents]
          exact child (Nat.ne_of_lt isLink.inside)
      case neg =>
          rw [progress_other agents leaf here]
          exact before

theorem EachLink.setAgent (each : system.EachLink relation state) (change : Link → Link)
    (known : rank < system.topology.numRank) (controls : level < system.topology.numLevelCtl rank)
    (leaf : node.leaf = (state.node rank).leaf)
    (children : ∀ other, system.topology.IsLink level other → system.topology.parent level other = rank →
      relation level (change (state.link level other)) agent ((state.node other).progress level))
    (child : level + 1 ≠ system.topology.rootLevel → relation (level + 1) (state.link (level + 1) rank)
      ((state.node (system.topology.parent (level + 1) rank)).agent (level + 1)) agent.progress) :
    system.EachLink relation
      ((state.setNode rank node).setLinks level (system.topology.members level rank) change) :=
  eachLink_setAgent agents change known controls leaf (fun upper other isLink _ => each upper other isLink) children child

end SetAgent

/-- The links of a level to some ranks. -/
theorem EachLink.setLinks (each : system.EachLink relation state) {ranks : List Nat} (change : Link → Link)
    (kept : ∀ other, other ∈ ranks → system.topology.IsLink level other →
      relation level (change (state.link level other)) ((state.node (system.topology.parent level other)).agent level)
        ((state.node other).progress level)) :
    system.EachLink relation (state.setLinks level ranks change) := by
  intro upper other isLink
  by_cases here : upper = level ∧ other ∈ ranks
  case pos =>
      obtain ⟨rfl, member⟩ := here
      rw [State.setLinks_link_member member]
      exact kept other member isLink
  case neg =>
      rw [State.setLinks_link_other fun same member => here ⟨same, member⟩]
      exact each upper other isLink

end System

end Balancer

end Geopm
