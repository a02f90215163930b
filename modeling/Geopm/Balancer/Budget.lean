import Geopm.Balancer.Descendants
import Geopm.Balancer.LeafBudget

namespace Geopm

/-! What the nodes of a tree of power balancers may use together while the slack of one round is given out. -/

/-- What holds of the leaf of a node: it has its packages, which have no limits before it is in a step. -/
structure LeafRole.Stocked (settings : PowerSettings) (total : ℚ) (count : Nat) (role : LeafRole) : Prop where
  length : role.packages.length = count
  tries : ∀ package ∈ role.packages, package.powerBalancer.Tries settings.minPkgPowerSetting
  untouched : role.stepCount = -1 → role.limitSum = 0
  kept : role.stepCount ≠ -1 → role.Kept settings total

namespace RootRole

/-- The slack of the policy that the root has sent, or that it will send. -/
def slack (role : RootRole) : ℚ := role.policy.powerSlack.getD 0

end RootRole

namespace Balancer

namespace System

variable (system : System) (total : ℚ) (state : State)

/-- The total limit is enough for the packages of every node and not too much for one of them. A limit is lowered by
less than the minimum, and each rank of a level is once among its members. -/
structure Affords : Prop where
  fits : system.Fits total
  some_package : ∀ rank < system.topology.numRank, 0 < system.numPackage rank
  low : ∀ rank < system.topology.numRank,
    (system.settings rank).minPkgPowerSetting ≤ total / system.numPackage rank
  trial : ∀ rank < system.topology.numRank,
    ({} : PowerBalancer).trialDelta < (system.settings rank).minPkgPowerSetting
  distinct : system.topology.Distinct

/-- A policy of the first step has the total limit. -/
def Gives (_ : Nat) (link : Link) (parent : Agent) (_ : Progress) : Prop :=
  parent.stepCount = 0 → ∀ policy, link.policy = some policy → policy.powerPackageLimitTotal = .value total

/-- A policy of the step has the slack. -/
def Carries (slack : ℚ) (step : Int) (_ : Nat) (link : Link) (parent : Agent) (_ : Progress) : Prop :=
  parent.stepCount = step → ∀ policy, link.policy = some policy → policy.powerSlack = .value slack

/-- A sample tells by how much the limits of the leaves below are lowered, and no more than the room of each of them. -/
structure Tells (level rank : Nat) (sample : Sample) : Prop where
  slack : sample.sumPowerSlack = .value
    (∑ leaf ∈ system.topology.leaves level rank, ((state.node leaf).leaf.capSum - (state.node leaf).leaf.limitSum))
  room : ∃ least, sample.minPowerHeadroom = .value least ∧ 0 ≤ least ∧
    ∀ leaf ∈ system.topology.leaves level rank, least ≤ (state.node leaf).leaf.roomSum (system.settings leaf)

/-- The step that the root has announced gives out the slack, and the leaf has yet to take it. -/
def Waits (rank : Nat) : Prop :=
  BalancerStep.ofCount (system.rootRole state).announced = .sendDownLimit ∧
    (state.node rank).leaf.stepCount + 1 = (system.rootRole state).announced

instance (rank : Nat) : Decidable (system.Waits state rank) := inferInstanceAs (Decidable (_ ∧ _))

/-- What a node may use, at most, when it has taken the slack. -/
def charge (rank : Nat) : ℚ :=
  if system.Waits state rank then (state.node rank).leaf.limitSum + (system.rootRole state).slack
  else (state.node rank).leaf.capSum

/-- What holds in every state that is reached under one total limit. -/
structure Budget : Prop where
  leaves : ∀ rank < system.topology.numRank,
    (state.node rank).leaf.Stocked (system.settings rank) total (system.numPackage rank)
  requested : ∀ rank < system.topology.numRank, (state.node rank).walks % 2 = 1 →
    (state.node rank).leaf.stepCount ≠ -1 ∧ (state.node rank).leaf.Requested (system.settings rank)
  numNode : (system.rootRole state).numNode = system.topology.numRank
  fresh : (system.rootRole state).rootCap = .nan → (system.rootRole state).slack = 0
  gives : system.EachLink (Gives total) state
  carries : BalancerStep.ofCount (system.rootRole state).stepCount = .sendDownLimit →
    system.EachLink (Carries (system.rootRole state).slack (system.rootRole state).stepCount) state
  tells : ∀ level rank, system.topology.IsLink level rank → ∀ sample, (state.link level rank).sample = some sample →
    sample.stepCount = .value ((state.node rank).progress level).stepCount →
      BalancerStep.ofCount ((state.node rank).progress level).stepCount = .reduceLimit →
        system.Tells state level rank sample
  shares : 0 < (system.rootRole state).announced →
    BalancerStep.ofCount (system.rootRole state).announced = .sendDownLimit →
      (system.rootRole state).policy.powerSlack = .value (system.rootRole state).slack ∧
        0 ≤ (system.rootRole state).slack ∧ ∀ rank < system.topology.numRank, system.Waits state rank →
          (system.rootRole state).slack ≤ (state.node rank).leaf.roomSum (system.settings rank)
  conserved : 0 < (system.rootRole state).announced →
    ∑ rank ∈ Finset.range system.topology.numRank, system.charge state rank ≤ system.topology.numRank * total

variable {system total state} {next : State} {level rank : Nat} {node : Node} {agent : Agent} {sample : Sample}

/-- What a sample tells depends on the leaves below only. -/
theorem Tells.congr (tells : system.Tells state level rank sample)
    (same : ∀ leaf ∈ system.topology.leaves level rank,
      (next.node leaf).leaf.capSum = (state.node leaf).leaf.capSum ∧
        (next.node leaf).leaf.limitSum = (state.node leaf).leaf.limitSum ∧
        (next.node leaf).leaf.roomSum (system.settings leaf) = (state.node leaf).leaf.roomSum (system.settings leaf)) :
    system.Tells next level rank sample where
  slack := by
    rw [tells.slack]
    apply congrArg Number.value
    apply Finset.sum_congr rfl
    intro leaf member
    rw [(same leaf member).1, (same leaf member).2.1]
  room := by
    obtain ⟨least, given, nonneg, below⟩ := tells.room
    refine ⟨least, given, nonneg, fun leaf member => ?_⟩
    rw [(same leaf member).2.2]
    exact below leaf member

theorem Tells.congr_leaf (tells : system.Tells state level rank sample)
    (same : ∀ leaf, (next.node leaf).leaf = (state.node leaf).leaf) : system.Tells next level rank sample :=
  tells.congr fun leaf _ => by rw [same leaf]; exact ⟨rfl, rfl, rfl⟩

theorem charge_congr (root : system.rootRole next = system.rootRole state)
    (leaf : (next.node rank).leaf = (state.node rank).leaf) : system.charge next rank = system.charge state rank := by
  have waits : system.Waits next rank ↔ system.Waits state rank := by rw [Waits, Waits, root, leaf]
  rw [charge, charge, root, leaf, if_congr waits rfl rfl]

/-- In a round that is under way all nodes have had their packages' parts of the total limit. -/
theorem Budget.started (budget : system.Budget total state) (inStep : system.InStep total state)
    (tree : system.topology.rootLevel ≠ 0) (known : rank < system.topology.numRank)
    (past : 0 < (system.rootRole state).announced) :
    0 ≤ (state.node rank).leaf.stepCount ∧ (state.node rank).leaf.Kept (system.settings rank) total := by
  have completed := (inStep.leaf_behind tree known).2.le
  have step : (state.node rank).leaf.progress.stepCount = (state.node rank).leaf.stepCount := rfl
  have nonneg : 0 ≤ (state.node rank).leaf.stepCount := by omega
  exact ⟨nonneg, (budget.leaves rank known).kept (by omega)⟩

/-- What a leaf may do: it stays in its step, it goes on to the next one, or it starts again. -/
structure Goes (system : System) (total : ℚ) (state : State) (rank : Nat) (node : Node) : Prop where
  stocked : node.leaf.Stocked (system.settings rank) total (system.numPackage rank)
  requested : node.walks % 2 = 1 → node.leaf.stepCount ≠ -1 ∧ node.leaf.Requested (system.settings rank)
  forward : BalancerStep.ofCount node.leaf.stepCount = .reduceLimit →
    (state.node rank).leaf.stepCount ≤ node.leaf.stepCount
  reduced : ∀ count, BalancerStep.ofCount count = .reduceLimit →
    (state.node rank).leaf.progress = ⟨count, true⟩ → node.leaf.progress = ⟨count, true⟩ →
      node.leaf.capSum = (state.node rank).leaf.capSum ∧ node.leaf.limitSum = (state.node rank).leaf.limitSum
  waits : 0 < (system.rootRole state).announced → system.Waits (state.setNode rank node) rank →
    system.Waits state rank ∧ node.leaf.limitSum = (state.node rank).leaf.limitSum
  charge : 0 < (system.rootRole state).announced →
    system.charge (state.setNode rank node) rank = system.charge state rank

/-- The rooms of a leaf are the same where its limits are. -/
theorem Goes.roomSum (goes : system.Goes total state rank node) (budget : system.Budget total state)
    (known : rank < system.topology.numRank)
    (limits : node.leaf.limitSum = (state.node rank).leaf.limitSum) :
    node.leaf.roomSum (system.settings rank) = (state.node rank).leaf.roomSum (system.settings rank) := by
  rw [LeafRole.roomSum_eq, LeafRole.roomSum_eq, goes.stocked.length, (budget.leaves rank known).length, limits]

/-- The leaf of a node goes on. -/
theorem Budget.setLeaf (budget : system.Budget total state) (inStep : system.InStep total state)
    (known : rank < system.topology.numRank) (agents : node.agent = (state.node rank).agent)
    (nextInStep : system.InStep total (state.setNode rank node)) (goes : system.Goes total state rank node) :
    system.Budget total (state.setNode rank node) := by
  have root : system.rootRole (state.setNode rank node) = system.rootRole state := rootRole_setNode agents
  have other {leaf : Nat} (differs : leaf ≠ rank) :
      ((state.setNode rank node).node leaf).leaf = (state.node leaf).leaf := by
    rw [State.setNode_node_other differs]
  have charge_other {leaf : Nat} (differs : leaf ≠ rank) :
      system.charge (state.setNode rank node) leaf = system.charge state leaf := charge_congr root (other differs)
  constructor
  case leaves =>
      intro leaf leafKnown
      by_cases self : leaf = rank
      · subst self
        rw [State.setNode_node_self]
        exact goes.stocked
      · rw [other self]
        exact budget.leaves leaf leafKnown
  case requested =>
      intro leaf leafKnown odd
      by_cases self : leaf = rank
      · subst self
        rw [State.setNode_node_self] at odd ⊢
        exact goes.requested odd
      · rw [State.setNode_node_other self] at odd ⊢
        exact budget.requested leaf leafKnown odd
  case numNode =>
      rw [root]
      exact budget.numNode
  case fresh =>
      rw [root]
      exact budget.fresh
  case gives => exact budget.gives.setNode agents (budget.gives 0 rank)
  case carries =>
      rw [root]
      exact fun sends => (budget.carries sends).setNode agents (budget.carries sends 0 rank)
  case tells =>
      intro level child isLink sample held step reduces
      have step_nonneg : 0 ≤ (((state.setNode rank node).node child).progress level).stepCount := by
        by_contra negative
        have zero : (((state.setNode rank node).node child).progress level).stepCount.toNat = 0 := by omega
        rw [BalancerStep.ofCount, zero] at reduces
        cases reduces
      generalize counted : (((state.setNode rank node).node child).progress level).stepCount = count
        at step reduces step_nonneg
      have complete : ((state.setNode rank node).node child).progress level = ⟨count, true⟩ := by
        obtain ⟨reported, same, completed⟩ := (nextInStep.follows level child isLink).sample sample held
        have equal : reported = count := Int.cast_injective (Number.value.inj (same.symm.trans step))
        exact Progress.eq_of_completed (equal ▸ completed) counted.le
      have before : (state.node child).progress level = ⟨count, true⟩ := by
        obtain ⟨reported, same, completed⟩ := (inStep.follows level child isLink).sample sample held
        have equal : reported = count := Int.cast_injective (Number.value.inj (same.symm.trans step))
        rw [equal] at completed
        by_cases self : level = 0 ∧ child = rank
        case pos =>
            obtain ⟨rfl, rfl⟩ := self
            rw [State.setNode_node_self] at counted
            have leafCount : node.leaf.stepCount = count := counted
            refine Progress.eq_of_completed completed ?_
            have forward := goes.forward (leafCount ▸ reduces)
            change (state.node child).leaf.stepCount ≤ count
            omega
        case neg =>
            rw [← complete]
            cases level with
            | zero =>
                rw [State.setNode_node_other fun same => self ⟨rfl, same⟩]
            | succ level => rw [Node.progress, Node.progress, agent_setNode agents]
      have tells := budget.tells level child isLink sample held (by rw [before]; exact step) (by rw [before]; exact reduces)
      refine tells.congr fun leaf member => ?_
      by_cases self : leaf = rank
      case neg =>
          rw [other self]
          exact ⟨rfl, rfl, rfl⟩
      case pos =>
          obtain ⟨leafKnown, above⟩ := Topology.mem_leaves.mp member
          have now := nextInStep.leaf_below leafKnown step_nonneg isLink.inside (by rw [above]; exact complete)
          have earlier := inStep.leaf_below leafKnown step_nonneg isLink.inside (by rw [above]; exact before)
          subst self
          rw [State.setNode_node_self] at now ⊢
          obtain ⟨caps, limits⟩ := goes.reduced count reduces earlier now
          exact ⟨caps, limits, goes.roomSum budget known limits⟩
  case shares =>
      rw [root]
      intro past sends
      obtain ⟨given, nonneg, fits⟩ := budget.shares past sends
      refine ⟨given, nonneg, fun leaf leafKnown waits => ?_⟩
      by_cases self : leaf = rank
      case neg =>
          rw [other self]
          refine fits leaf leafKnown ?_
          rwa [Waits, root, other self] at waits
      case pos =>
          subst self
          obtain ⟨waited, limits⟩ := goes.waits past waits
          rw [State.setNode_node_self, goes.roomSum budget known limits]
          exact fits leaf leafKnown waited
  case conserved =>
      rw [root]
      intro past
      rw [← Finset.sum_congr rfl fun leaf _ => ?_]
      · exact budget.conserved past
      · by_cases self : leaf = rank
        · rw [self]
          exact (goes.charge past).symm
        · exact (charge_other self).symm

end System

end Balancer

end Geopm
