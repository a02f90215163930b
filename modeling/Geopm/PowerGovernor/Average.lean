import Geopm.Controllers.Gather
import Geopm.PowerGovernor.Levels
import Mathlib.Algebra.BigOperators.Ring.List

namespace Geopm

/-! A sample of a level is the average of the samples of the leaves below it. -/

namespace Topology

variable {topology : Topology} {level rank leaf : Nat}

/-- All ranks of a level have as many children. -/
def Even (topology : Topology) (fanIn : Nat → Nat) : Prop :=
  ∀ level rank, rank < topology.numRank → level < topology.numLevelCtl rank →
    (topology.members level rank).length = fanIn level

/-- Each rank is its own child in the levels that it controls. -/
theorem mem_members_self (known : rank < topology.numRank) (controls : level < topology.numLevelCtl rank) :
    rank ∈ topology.members level rank :=
  (topology.mem_members rank known level controls rank).mpr
    ⟨known, Nat.le_of_lt controls, topology.parent_self rank known level controls⟩

/-- What is below a child is below its parent. -/
theorem leaves_child {child : Nat} (known : rank < topology.numRank) (controls : level < topology.numLevelCtl rank)
    (member : child ∈ topology.members level rank) (below : leaf ∈ topology.leaves level child) :
    leaf ∈ topology.leaves (level + 1) rank := by
  obtain ⟨leafKnown, ancestor⟩ := mem_leaves.mp below
  rw [mem_leaves, Topology.ancestor, ancestor]
  exact ⟨leafKnown, ((topology.mem_members rank known level controls child).mp member).2.2⟩

/-- A leaf below a rank is below a child of it. -/
theorem exists_child (known : rank < topology.numRank) (controls : level < topology.numLevelCtl rank)
    (below : leaf ∈ topology.leaves (level + 1) rank) :
    ∃ child ∈ topology.members level rank, leaf ∈ topology.leaves level child := by
  obtain ⟨leafKnown, ancestor⟩ := mem_leaves.mp below
  have inside : level < topology.rootLevel := Nat.lt_of_lt_of_le controls (numLevelCtl_le known)
  exact ⟨_, (mem_members_iff known controls (isLink_ancestor leafKnown inside)).mpr ancestor,
    mem_leaves.mpr ⟨leafKnown, rfl⟩⟩

theorem mem_leaves_self (known : rank < topology.numRank) : rank ∈ topology.leaves 0 rank :=
  mem_leaves.mpr ⟨known, rfl⟩

theorem card_leaves {fanIn : Nat → Nat} (even : topology.Even fanIn) (distinct : topology.Distinct)
    (known : rank < topology.numRank) (takesPart : level ≤ topology.numLevelCtl rank) :
    (topology.leaves level rank).card = ((List.range level).map fanIn).prod := by
  induction level generalizing rank with
  | zero =>
      rw [leaves_zero known]
      rfl
  | succ level ih =>
      have one : ∀ (leaves : Finset Nat), ∑ leaf ∈ leaves, (1 : ℚ) = leaves.card := by simp
      have children : ((topology.members level rank).map fun child => ∑ leaf ∈ topology.leaves level child, (1 : ℚ)) =
          (topology.members level rank).map fun _ => (((List.range level).map fanIn).prod : ℚ) := by
        apply List.map_congr_left
        intro child member
        have isChild := (topology.mem_members rank known level takesPart child).mp member
        rw [one, ih isChild.1 isChild.2.1]
      have total : ∑ leaf ∈ topology.leaves (level + 1) rank, (1 : ℚ) = _ :=
        sum_leaves_succ known takesPart (distinct level rank known takesPart)
      rw [one, children, List.map_const', List.sum_replicate, even level rank known takesPart, nsmul_eq_mul] at total
      rw [List.range_succ, List.map_append, List.prod_append, List.map_singleton, List.prod_singleton, Nat.mul_comm]
      exact_mod_cast total

/-- The average of the leaves below a rank. -/
def leafAverage (topology : Topology) (level rank : Nat) (values : Nat → ℚ) : ℚ :=
  (∑ leaf ∈ topology.leaves level rank, values leaf) / (topology.leaves level rank).card

/-- The children have as many leaves, so that the average of their averages is the one of all leaves. -/
theorem average_children {fanIn : Nat → Nat} {values : Nat → ℚ} (even : topology.Even fanIn) (distinct : topology.Distinct)
    (known : rank < topology.numRank) (controls : level < topology.numLevelCtl rank) :
    ((topology.members level rank).map fun child => topology.leafAverage level child values).sum /
      (topology.members level rank).length = topology.leafAverage (level + 1) rank values := by
  have children : ((topology.members level rank).map fun child => topology.leafAverage level child values) =
      (topology.members level rank).map fun child => (∑ leaf ∈ topology.leaves level child, values leaf) *
        (((List.range level).map fanIn).prod : ℚ)⁻¹ := by
    apply List.map_congr_left
    intro child member
    have isChild := (topology.mem_members rank known level controls child).mp member
    rw [leafAverage, card_leaves even distinct isChild.1 isChild.2.1, div_eq_mul_inv]
  have width : ((topology.leaves (level + 1) rank).card : ℚ) = ((List.range level).map fanIn).prod * fanIn level := by
    rw [card_leaves even distinct known controls, List.range_succ, List.map_append, List.prod_append, List.map_singleton,
      List.prod_singleton, Nat.cast_mul]
  rw [children, List.sum_map_mul_right, ← sum_leaves_succ known controls (distinct level rank known controls),
    even level rank known controls, ← div_eq_mul_inv, div_div, leafAverage, width]

end Topology

namespace TreeComm

variable {dims : List Nat} {split : (Nat → SplitCall) → Nat → List Nat}

theorem topology_even (positive : ∀ dim ∈ dims, 1 ≤ dim) (splits : Splits dims.prod split) :
    (topology positive splits).Even fun level => (levelSize dims level).getD 0 := by
  intro level rank known controls
  have controls : level < numLevelCtl dims rank := controls
  have inside : level < dims.length := Nat.lt_of_lt_of_le controls numLevelCtl_le
  have takesPart : TakesPart dims level rank := (takesPart_iff_le inside).mpr (Nat.le_of_lt controls)
  have size := (levelFormed splits positive inside).size rank known takesPart
  exact (congrArg (·.getD 0) size).symm

end TreeComm

namespace Agg

variable {values : List ℚ}

theorem average_value (some : values ≠ []) :
    average (values.map .value) = .value (values.sum / values.length) := by
  obtain ⟨first, rest, rfl⟩ := List.exists_cons_of_ne_nil some
  have read := Number.rationals_value (first :: rest)
  rw [average, sum, read]
  rfl

/-- All operands are ones. -/
theorem logicalAnd_one {operand : List Number} (some : operand ≠ []) (ones : ∀ number ∈ operand, number = .value 1) :
    logicalAnd operand = .value 1 := by
  have same : operand = (List.replicate operand.length (1 : ℚ)).map .value := by
    rw [List.map_replicate]
    exact List.eq_replicate_of_mem ones
  obtain ⟨length, counts⟩ : ∃ length, operand.length = length + 1 :=
    ⟨operand.length - 1, (Nat.succ_pred_eq_of_pos (List.length_pos_of_ne_nil some)).symm⟩
  rw [logicalAnd, same, Number.rationals_value, counts, List.replicate_succ]
  simp

end Agg

namespace PowerGovernor

open Controllers.System (Gathers)

variable {job : Job} {level rank : Nat} {sample : Sample} {leafOf : Nat → Sample} {inSample : List Sample}

/-- The sample that an agent sends: its children have all met the budget. -/
theorem aggregateSample_sends {outSample : Sample} {agent after : LevelAgent}
    (made : agent.aggregateSample inSample outSample = (sample, after)) (sends : after.base.doSendSample = true) :
    sample = LevelAgent.aggregate inSample ∧ ∀ child ∈ inSample, child.isConverged.eq (.value 0) = false := by
  rw [LevelAgent.aggregateSample, Prod.mk.injEq] at made
  obtain ⟨out, rfl⟩ := made
  have sending : (inSample.all fun sample => !sample.isConverged.eq (.value 0)) && decide (agent.ascendCount = 0) := sends
  rw [if_pos sending] at out
  rw [Bool.and_eq_true, List.all_eq_true] at sending
  exact ⟨out.symm, fun child member => by simpa using sending.1 child member⟩

theorem combines_aggregate (combines : job.system.Combines inSample sample) :
    sample = LevelAgent.aggregate inSample ∧ ∀ child ∈ inSample, child.isConverged.eq (.value 0) = false := by
  obtain ⟨outSample, agent, after, made, sends⟩ := combines.made
  exact aggregateSample_sends (Except.ok.inj made) sends

/-- What the leaves below a rank have reported. -/
structure Reads (job : Job) (level rank : Nat) (leafOf : Nat → Sample) (power enforced : Nat → ℚ) : Prop where
  power : ∀ leaf ∈ job.system.topology.leaves level rank, (leafOf leaf).power = .value (power leaf)
  enforced : ∀ leaf ∈ job.system.topology.leaves level rank, (leafOf leaf).powerEnforced = .value (enforced leaf)
  isConverged : ∀ leaf ∈ job.system.topology.leaves level rank,
    (leafOf leaf).isConverged = .value 0 ∨ (leafOf leaf).isConverged = .value 1

/-- What a sample says about them. Above the leaves all have met their budgets. -/
structure Averages (job : Job) (level rank : Nat) (leafOf : Nat → Sample) (power enforced : Nat → ℚ)
    (sample : Sample) : Prop where
  power : sample.power = .value (job.system.topology.leafAverage level rank power)
  enforced : sample.powerEnforced = .value (job.system.topology.leafAverage level rank enforced)
  converged : level ≠ 0 → sample.isConverged = .value 1 ∧
    ∀ leaf ∈ job.system.topology.leaves level rank, (leafOf leaf).isConverged = .value 1

theorem leafAverage_zero {topology : Topology} {values : Nat → ℚ} (known : rank < topology.numRank) :
    topology.leafAverage 0 rank values = values rank := by
  rw [Topology.leafAverage, Topology.leaves_zero known, Finset.sum_singleton, Finset.card_singleton, Nat.cast_one, div_one]

theorem Reads.child {power enforced : Nat → ℚ} {child : Nat} (reads : Reads job (level + 1) rank leafOf power enforced)
    (known : rank < job.system.topology.numRank) (controls : level < job.system.topology.numLevelCtl rank)
    (member : child ∈ job.system.topology.members level rank) : Reads job level child leafOf power enforced where
  power leaf below := reads.power leaf (Topology.leaves_child known controls member below)
  enforced leaf below := reads.enforced leaf (Topology.leaves_child known controls member below)
  isConverged leaf below := reads.isConverged leaf (Topology.leaves_child known controls member below)

theorem averages_leaf {power enforced : Nat → ℚ} (known : rank < job.system.topology.numRank)
    (reads : Reads job 0 rank leafOf power enforced) : Averages job 0 rank leafOf power enforced (leafOf rank) where
  power := (reads.power rank (Topology.mem_leaves_self known)).trans (by rw [leafAverage_zero known])
  enforced := (reads.enforced rank (Topology.mem_leaves_self known)).trans (by rw [leafAverage_zero known])
  converged above := absurd rfl above

/-- The average of a field of the samples of the children. -/
theorem average_field {field : Sample → Number} {values : Nat → ℚ} {set : Nat → Sample}
    (known : rank < job.system.topology.numRank) (controls : level < job.system.topology.numLevelCtl rank)
    (each : ∀ child ∈ job.system.topology.members level rank,
      field (set child) = .value (job.system.topology.leafAverage level child values)) :
    Agg.average (((job.system.topology.members level rank).map set).map field) =
      .value (job.system.topology.leafAverage (level + 1) rank values) := by
  have even := TreeComm.topology_even job.positive job.splits
  have distinct := TreeComm.topology_distinct job.positive job.splits
  have some : job.system.topology.members level rank ≠ [] :=
    List.ne_nil_of_mem (Topology.mem_members_self known controls)
  have read : ((job.system.topology.members level rank).map set).map field =
      ((job.system.topology.members level rank).map fun child =>
        job.system.topology.leafAverage level child values).map .value := by
    rw [List.map_map, List.map_map]
    exact List.map_congr_left each
  rw [read, Agg.average_value (by simpa using some), List.length_map]
  exact congrArg Number.value (Topology.average_children even distinct known controls)

/-- A child whose sample is used has met its budget, and so have the leaves below it. -/
theorem child_converged {power enforced : Nat → ℚ} {child : Nat} (known : child < job.system.topology.numRank)
    (gathers : job.system.Gathers leafOf level child sample) (reads : Reads job level child leafOf power enforced)
    (averages : Averages job level child leafOf power enforced sample)
    (stable : sample.isConverged.eq (.value 0) = false) : sample.isConverged = .value 1 ∧
      ∀ leaf ∈ job.system.topology.leaves level child, (leafOf leaf).isConverged = .value 1 := by
  cases gathers with
  | @node level _ _ set children combines => exact averages.converged (Nat.succ_ne_zero level)
  | leaf =>
      have one : (leafOf child).isConverged = .value 1 := by
        cases reads.isConverged child (Topology.mem_leaves_self known) with
        | inl zero =>
            rw [zero] at stable
            cases stable
        | inr one => exact one
      refine ⟨one, fun leaf below => ?_⟩
      rw [Topology.leaves_zero known, Finset.mem_singleton] at below
      exact below ▸ one

/-- A sample is the average over all leaves below the rank, as every rank of a level has as many of them. -/
theorem gathers_averages {power enforced : Nat → ℚ} (gathers : job.system.Gathers leafOf level rank sample)
    (known : rank < job.system.topology.numRank) (takesPart : level ≤ job.system.topology.numLevelCtl rank)
    (reads : Reads job level rank leafOf power enforced) : Averages job level rank leafOf power enforced sample := by
  induction gathers with
  | leaf rank => exact averages_leaf known reads
  | @node level rank sample set children combines ih =>
      obtain ⟨same, stable⟩ := combines_aggregate combines
      have isChild := job.system.topology.mem_members rank known level takesPart
      have averages : ∀ child ∈ job.system.topology.members level rank,
          Averages job level child leafOf power enforced (set child) := fun child member =>
        ih child member ((isChild child).mp member).1 ((isChild child).mp member).2.1 (reads.child known takesPart member)
      have met : ∀ child ∈ job.system.topology.members level rank, (set child).isConverged = .value 1 ∧
          ∀ leaf ∈ job.system.topology.leaves level child, (leafOf leaf).isConverged = .value 1 := fun child member =>
        child_converged ((isChild child).mp member).1 (children child member) (reads.child known takesPart member)
          (averages child member) (stable _ (List.mem_map_of_mem member))
      rw [same]
      constructor
      case power => exact average_field known takesPart fun child member => (averages child member).power
      case enforced => exact average_field known takesPart fun child member => (averages child member).enforced
      case converged =>
          intro _
          constructor
          · have self := Topology.mem_members_self known takesPart
            apply Agg.logicalAnd_one (List.ne_nil_of_mem (List.mem_map_of_mem (List.mem_map_of_mem self)))
            intro number member
            rw [List.map_map, List.mem_map] at member
            obtain ⟨child, inside, rfl⟩ := member
            exact (met child inside).1
          · intro leaf below
            obtain ⟨child, member, under⟩ := Topology.exists_child known takesPart below
            exact (met child member).2 leaf under

end PowerGovernor

end Geopm
