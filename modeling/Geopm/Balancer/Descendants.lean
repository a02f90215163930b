import Geopm.Balancer.NewCaps
import Geopm.Balancer.TreeSteps
import Mathlib.Algebra.BigOperators.Group.Finset.Sigma
import Mathlib.Algebra.Order.BigOperators.Group.Finset

namespace Geopm

/-! The leaves below a node of the tree, and how far they are. -/

namespace Topology

variable (topology : Topology)

/-- The rank that the leaf of a rank is below in the level. -/
def ancestor : Nat → Nat → Nat
  | 0, rank => rank
  | level + 1, rank => topology.parent level (ancestor level rank)

/-- Each rank of a level is once among its members. -/
def Distinct : Prop :=
  ∀ level rank, rank < topology.numRank → level < topology.numLevelCtl rank → (topology.members level rank).Nodup

/-- The leaves below a rank in the level. -/
def leaves (level rank : Nat) : Finset Nat :=
  (Finset.range topology.numRank).filter fun leaf => topology.ancestor level leaf = rank

variable {topology} {level rank leaf : Nat}

theorem mem_leaves : leaf ∈ topology.leaves level rank ↔
    leaf < topology.numRank ∧ topology.ancestor level leaf = rank := by
  rw [leaves, Finset.mem_filter, Finset.mem_range]

theorem ancestor_known (known : leaf < topology.numRank) : ∀ level, level ≤ topology.rootLevel →
    topology.ancestor level leaf < topology.numRank ∧ level ≤ topology.numLevelCtl (topology.ancestor level leaf)
  | 0, _ => ⟨known, Nat.zero_le _⟩
  | level + 1, inside => by
      obtain ⟨known, takesPart⟩ := ancestor_known known level (Nat.le_of_lt inside)
      exact topology.parent_known _ known level inside takesPart

theorem isLink_ancestor (known : leaf < topology.numRank) (inside : level < topology.rootLevel) :
    topology.IsLink level (topology.ancestor level leaf) := by
  obtain ⟨known, takesPart⟩ := ancestor_known known level (Nat.le_of_lt inside)
  exact ⟨known, inside, takesPart⟩

/-- All leaves are below the root. -/
theorem leaves_root : topology.leaves topology.rootLevel 0 = Finset.range topology.numRank := by
  rw [leaves, Finset.filter_true_of_mem]
  intro leaf member
  obtain ⟨known, controls⟩ := ancestor_known (Finset.mem_range.mp member) _ (Nat.le_refl topology.rootLevel)
  exact (controls_all known).mp (Nat.le_antisymm (numLevelCtl_le known) controls)

/-- A leaf is the only one below itself. -/
theorem leaves_zero (known : rank < topology.numRank) : topology.leaves 0 rank = {rank} := by
  ext leaf
  rw [mem_leaves, Finset.mem_singleton]
  exact ⟨And.right, fun same => ⟨same ▸ known, same⟩⟩

/-- What the leaves below a rank have together is what those below its children have. -/
theorem sum_leaves_succ {values : Nat → ℚ} (known : rank < topology.numRank)
    (controls : level < topology.numLevelCtl rank) (distinct : (topology.members level rank).Nodup) :
    ∑ leaf ∈ topology.leaves (level + 1) rank, values leaf =
      ((topology.members level rank).map fun child => ∑ leaf ∈ topology.leaves level child, values leaf).sum := by
  have inside : level < topology.rootLevel := Nat.lt_of_lt_of_le controls (numLevelCtl_le known)
  have below : ∀ leaf ∈ topology.leaves (level + 1) rank,
      topology.ancestor level leaf ∈ (topology.members level rank).toFinset := by
    intro leaf member
    obtain ⟨leafKnown, parent⟩ := mem_leaves.mp member
    rw [List.mem_toFinset]
    exact (mem_members_iff known controls (isLink_ancestor leafKnown inside)).mpr parent
  rw [← List.sum_toFinset _ distinct, ← Finset.sum_fiberwise_of_maps_to below]
  apply Finset.sum_congr rfl
  intro child member
  apply Finset.sum_congr _ fun _ _ => rfl
  ext leaf
  rw [Finset.mem_filter, mem_leaves, mem_leaves]
  rw [List.mem_toFinset] at member
  have isChild := (topology.mem_members rank known level controls child).mp member
  constructor
  · exact fun both => ⟨both.1.1, both.2⟩
  · intro both
    refine ⟨⟨both.1, ?_⟩, both.2⟩
    rw [ancestor, both.2]
    exact isChild.2.2

end Topology

namespace TreeComm

variable {dims : List Nat} {split : (Nat → SplitCall) → Nat → List Nat}

/-- The communicators that `TreeComm` splits have no rank twice. -/
theorem topology_distinct (positive : ∀ dim ∈ dims, 1 ≤ dim) (splits : Splits dims.prod split) :
    (topology positive splits).Distinct := by
  intro level rank known controls
  have controls : level < numLevelCtl dims rank := controls
  have inside : level < dims.length := Nat.lt_of_lt_of_le controls numLevelCtl_le
  have takesPart : TakesPart dims level rank := (takesPart_iff_le inside).mpr (Nat.le_of_lt controls)
  exact (sorted_levelComm splits positive known inside takesPart).imp Nat.ne_of_lt

end TreeComm

namespace RootRole

/-- The step of the policy that the root has sent, or that it will send as its step is complete. -/
def announced (role : RootRole) : Int := if role.isStepComplete then role.stepCount + 1 else role.stepCount

end RootRole

namespace Balancer

namespace Progress

variable {progress : Progress} {count earlier : Int}

theorem Completed.mono (completed : progress.Completed count) (before : earlier ≤ count) :
    progress.Completed earlier := by
  cases completed with
  | inl less => exact .inl (by omega)
  | inr same =>
      by_cases equal : earlier = count
      · exact equal ▸ .inr same
      · exact .inl (by omega)

theorem eq_of_completed (completed : progress.Completed count) (behind : progress.stepCount ≤ count) :
    progress = ⟨count, true⟩ := by
  obtain ⟨stepCount, isComplete⟩ := progress
  cases completed with
  | inl less =>
      simp only at less behind
      omega
  | inr same => rw [same.1, show isComplete = true from same.2]

end Progress

namespace System

variable {system : System} {total : ℚ} {state : State} {level rank leaf : Nat} {count : Int}

/-- A parent that has completed a step is no new one, and its children have completed it. -/
theorem InStep.child_completed (inStep : system.InStep total state) (isLink : system.topology.IsLink level rank)
    (nonneg : 0 ≤ count)
    (completed : ((state.node (system.topology.parent level rank)).agent level).progress.Completed count) :
    (state.link level rank).policy ≠ none ∧ ((state.node rank).progress level).Completed count := by
  have follows := inStep.follows level rank isLink
  have known : ¬((state.node (system.topology.parent level rank)).agent level).IsNew := by
    intro isNew
    cases role : (state.node (system.topology.parent level rank)).agent level with
    | tree role =>
        rw [role] at isNew completed
        have few := completed.le
        simp only [Agent.progress, Agent.stepCount, isNew.1] at few
        omega
    | root role =>
        rw [role] at isNew completed
        cases completed with
        | inl less =>
            simp only [Agent.progress, Agent.stepCount, isNew.2.1] at less
            omega
        | inr same => exact Bool.false_ne_true (isNew.2.2.symm.trans same.2)
  have sent := mt follows.silent.mp known
  refine ⟨sent, ?_⟩
  have trails := follows.trails_sent sent
  cases completed with
  | inl less => exact trails.before.mono (by omega)
  | inr same => exact same.1 ▸ trails.complete same.2

/-- Where a node has completed its step all below it are in that step and have completed it. -/
theorem InStep.below (inStep : system.InStep total state) (known : leaf < system.topology.numRank)
    (nonneg : 0 ≤ count) : ∀ level lower, lower ≤ level → level < system.topology.rootLevel →
      (state.node (system.topology.ancestor level leaf)).progress level = ⟨count, true⟩ →
      (state.node (system.topology.ancestor lower leaf)).progress lower = ⟨count, true⟩
  | 0, lower, under, _, complete => by
      rw [Nat.le_zero.mp under]
      exact complete
  | level + 1, lower, under, inside, complete => by
      by_cases same : lower = level + 1
      · rw [same]
        exact complete
      · have isLink := Topology.isLink_ancestor known (Nat.lt_of_succ_lt inside)
        have parent : ((state.node (system.topology.parent level (system.topology.ancestor level leaf))).agent
            level).progress = ⟨count, true⟩ := complete
        obtain ⟨sent, completed⟩ := inStep.child_completed isLink nonneg (by rw [parent]; exact .inr ⟨rfl, rfl⟩)
        have behind := ((inStep.follows level _ isLink).trails_sent sent).behind
        rw [parent] at behind
        exact inStep.below known nonneg level lower (by omega) (Nat.lt_of_succ_lt inside)
          (Progress.eq_of_completed completed behind)

/-- `below` for the leaf itself. -/
theorem InStep.leaf_below (inStep : system.InStep total state) (known : leaf < system.topology.numRank)
    (nonneg : 0 ≤ count) (inside : level < system.topology.rootLevel)
    (complete : (state.node (system.topology.ancestor level leaf)).progress level = ⟨count, true⟩) :
    (state.node leaf).leaf.progress = ⟨count, true⟩ :=
  inStep.below known nonneg level 0 (Nat.zero_le level) inside complete

/-- The highest level has the role of the root. -/
theorem InStep.root (inStep : system.InStep total state) (tree : system.topology.rootLevel ≠ 0) :
    (state.node 0).agent (system.topology.rootLevel - 1) = .root (system.rootRole state) ∧
      Agent.Rooted total (system.rootRole state) := by
  have isRoot : system.topology.rootLevel - 1 + 1 = system.topology.rootLevel := Nat.succ_pred_eq_of_ne_zero tree
  have plays := inStep.plays (system.topology.rootLevel - 1) 0 system.topology.some_rank
    (by rw [system.topology.root]; omega)
  cases found : (state.node 0).agent (system.topology.rootLevel - 1) with
  | tree role =>
      rw [found] at plays
      exact absurd isRoot plays
  | root role =>
      rw [found] at plays
      rw [rootRole_eq isRoot found]
      exact ⟨rfl, plays.2⟩

theorem InStep.root_nonneg (inStep : system.InStep total state) (tree : system.topology.rootLevel ≠ 0) :
    0 ≤ (system.rootRole state).stepCount := by
  cases (inStep.root tree).2 with
  | inl isNew => exact isNew.2.1.ge
  | inr holds => exact holds.nonneg

/-- No node is ahead of the root, and each has completed the step before the one that the root has announced. -/
theorem InStep.behind_root (inStep : system.InStep total state) (tree : system.topology.rootLevel ≠ 0) (depth : Nat) :
    ∀ level rank, system.topology.IsLink level rank → level + depth + 1 = system.topology.rootLevel →
      ((state.node rank).progress level).stepCount ≤ (system.rootRole state).stepCount ∧
        ((state.node rank).progress level).Completed ((system.rootRole state).announced - 1) := by
  obtain ⟨found, plays⟩ := inStep.root tree
  have nonneg := inStep.root_nonneg tree
  induction depth with
  | zero =>
      intro level rank isLink top
      obtain ⟨parentKnown, parentControls⟩ := isLink.parent_known
      have parent := Topology.first_of_root parentKnown parentControls top
      have highest : system.topology.rootLevel - 1 = level := by omega
      have follows := inStep.follows level rank isLink
      rw [highest] at found
      rw [parent, found] at follows
      cases sent : (state.link level rank).policy with
      | none =>
          have isNew := follows.silent.mp sent
          have trails := follows.trails
          rw [Link.heard, if_pos sent] at trails
          rw [RootRole.announced, isNew.2.1, isNew.2.2, if_neg Bool.false_ne_true]
          exact ⟨trails.behind, trails.before⟩
      | some policy =>
          have trails := follows.trails_sent (by rw [sent]; exact Option.some_ne_none policy)
          refine ⟨trails.behind, ?_⟩
          rw [RootRole.announced]
          split
          · next complete =>
              rw [add_sub_cancel_right]
              exact trails.complete complete
          · exact trails.before
  | succ depth ih =>
      intro level rank isLink below
      obtain ⟨parentKnown, parentControls⟩ := isLink.parent_known
      have above := Topology.isLink_above parentKnown parentControls (by omega)
      obtain ⟨ahead, completed⟩ := ih (level + 1) _ above (by omega)
      have follows := inStep.follows level rank isLink
      cases sent : (state.link level rank).policy with
      | none =>
          have isNew := follows.silent.mp sent
          have trails := follows.trails
          rw [Link.heard, if_pos sent] at trails
          refine ⟨trails.behind.trans nonneg, trails.before.mono ?_⟩
          have plays := inStep.plays level _ parentKnown parentControls
          cases kind : (state.node (system.topology.parent level rank)).agent level with
          | tree role =>
              rw [kind] at isNew
              rw [Node.progress, kind] at completed
              have few := completed.le
              have start : role.stepCount = -1 := isNew.1
              simp only [Agent.progress, Agent.stepCount, start] at few
              simpa using few
          | root role =>
              rw [kind] at plays
              exact absurd plays.1 (by omega)
      | some policy =>
          have trails := follows.trails_sent (by rw [sent]; exact Option.some_ne_none policy)
          refine ⟨trails.behind.trans ahead, ?_⟩
          cases completed with
          | inl less => exact trails.before.mono (by simp only [Node.progress] at less; omega)
          | inr same =>
              rw [same.1]
              exact trails.complete same.2

/-- No node is in a step that the root has yet to announce. -/
theorem InStep.parent_behind (inStep : system.InStep total state) (tree : system.topology.rootLevel ≠ 0)
    (isLink : system.topology.IsLink level rank) :
    ((state.node (system.topology.parent level rank)).agent level).stepCount ≤ (system.rootRole state).stepCount := by
  obtain ⟨parentKnown, parentControls⟩ := isLink.parent_known
  have below := isLink.inside
  by_cases top : level + 1 = system.topology.rootLevel
  case pos =>
      have highest : system.topology.rootLevel - 1 = level := by omega
      have found := (inStep.root tree).1
      rw [Topology.first_of_root parentKnown parentControls top, ← highest, found]
      exact Int.le_refl _
  case neg =>
      have above := Topology.isLink_above parentKnown parentControls top
      exact (inStep.behind_root tree (system.topology.rootLevel - (level + 2)) (level + 1) _ above (by omega)).1

theorem InStep.leaf_behind (inStep : system.InStep total state) (tree : system.topology.rootLevel ≠ 0)
    (known : leaf < system.topology.numRank) :
    (state.node leaf).leaf.stepCount ≤ (system.rootRole state).stepCount ∧
      (state.node leaf).leaf.progress.Completed ((system.rootRole state).announced - 1) :=
  inStep.behind_root tree (system.topology.rootLevel - 1) 0 leaf
    ⟨known, Nat.pos_of_ne_zero tree, Nat.zero_le _⟩ (by omega)

end System

end Balancer

end Geopm
