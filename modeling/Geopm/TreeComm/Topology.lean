import Geopm.TreeComm.Tree

namespace Geopm

/-! The tree of the controllers, as far as what passes along it depends on it. -/

/-- The ranks of a level are those that control no fewer levels below it. Each of them has its
parent there, which controls the level; a rank is its own parent in the levels that it controls. -/
structure Topology where
  numRank : Nat
  rootLevel : Nat
  numLevelCtl : Nat → Nat
  /-- The ranks of the communicator of a level whose first rank is the given one. -/
  members : Nat → Nat → List Nat
  parent : Nat → Nat → Nat
  some_rank : 0 < numRank
  root : numLevelCtl 0 = rootLevel
  below : ∀ rank < numRank, rank ≠ 0 → numLevelCtl rank < rootLevel
  parent_known : ∀ rank < numRank, ∀ level < rootLevel, level ≤ numLevelCtl rank →
    parent level rank < numRank ∧ level < numLevelCtl (parent level rank)
  parent_self : ∀ rank < numRank, ∀ level < numLevelCtl rank, parent level rank = rank
  mem_members : ∀ head < numRank, ∀ level < numLevelCtl head, ∀ rank,
    rank ∈ members level head ↔ rank < numRank ∧ level ≤ numLevelCtl rank ∧ parent level rank = head

namespace Topology

variable {topology : Topology} {rank level : Nat}

theorem numLevelCtl_le (known : rank < topology.numRank) :
    topology.numLevelCtl rank ≤ topology.rootLevel := by
  by_cases first : rank = 0
  · rw [first, topology.root]
  · exact Nat.le_of_lt (topology.below rank known first)

theorem controls_all (known : rank < topology.numRank) :
    topology.numLevelCtl rank = topology.rootLevel ↔ rank = 0 := by
  constructor
  · intro all
    by_contra other
    exact Nat.ne_of_lt (topology.below rank known other) all
  · intro first
    rw [first, topology.root]

end Topology

namespace TreeComm

open Cartesian

variable {dims : List Nat} {split : (Nat → SplitCall) → Nat → List Nat}

theorem takesPart_iff_le {rank level : Nat} (inside : level < dims.length) :
    TakesPart dims level rank ↔ level ≤ numLevelCtl dims rank := by
  rw [← lt_maxLevel inside, TakesPart, levelCall_eq]
  by_cases below : level < maxLevel dims rank
  · simp [below]
  · simp [below]

/-- The tree that `TreeComm` builds. -/
def topology (positive : ∀ dim ∈ dims, 1 ≤ dim) (splits : Splits dims.prod split) : Topology where
  numRank := dims.prod
  rootLevel := dims.length
  numLevelCtl := numLevelCtl dims
  members level head := levelComm split dims level head
  parent := base dims
  some_rank := prod_pos positive
  root := by
    apply Nat.le_antisymm numLevelCtl_le
    cases length : dims.length with
    | zero => exact Nat.zero_le _
    | succ highest =>
        exact (lt_numLevelCtl positive (prod_pos positive) (by omega)).mpr (Nat.dvd_zero _)
  below rank known other := numLevelCtl_lt positive known other
  parent_known rank known level inside takesPart := by
    have parentKnown : base dims level rank < dims.prod := Nat.lt_of_le_of_lt base_le known
    exact ⟨parentKnown, (lt_numLevelCtl positive parentKnown inside).mpr (Nat.dvd_sub_mod rank)⟩
  parent_self rank known level controls := by
    have inside : level < dims.length := Nat.lt_of_lt_of_le controls numLevelCtl_le
    exact ((span_dvd_iff positive).mp ((lt_numLevelCtl positive known inside).mp controls)).symm
  mem_members head known level controls rank := by
    have inside : level < dims.length := Nat.lt_of_lt_of_le controls numLevelCtl_le
    have takesPart : TakesPart dims level head := (takesPart_iff_le inside).mpr (Nat.le_of_lt controls)
    have self : base dims level head = head :=
      ((span_dvd_iff positive).mp ((lt_numLevelCtl positive known inside).mp controls)).symm
    rw [mem_levelComm splits positive known inside takesPart, takesPart_iff_le inside, self]

end TreeComm

end Geopm
