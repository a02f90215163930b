import Geopm.Balancer.Descendants
import Geopm.Controllers.Flow

namespace Geopm

/-! Each sample of a rank comes from one sample of each leaf below it. -/

namespace Controllers

namespace System

variable {Policy Sample Agent Reading Reason : Type} {system : System Policy Sample Agent Reading Reason}
  {state : State Policy Sample Agent} {level rank head : Nat} {sample : Sample} {leafOf other : Nat → Sample}

/-- The sample that a rank of a level has from samples of the leaves below it. -/
inductive Gathers (system : System Policy Sample Agent Reading Reason) (leafOf : Nat → Sample) :
    Nat → Nat → Sample → Prop where
  | leaf (rank : Nat) : Gathers system leafOf 0 rank (leafOf rank)
  | node {level head : Nat} {sample : Sample} (set : Nat → Sample)
      (children : ∀ child ∈ system.topology.members level head, Gathers system leafOf level child (set child))
      (combines : system.Combines ((system.topology.members level head).map set) sample) :
      Gathers system leafOf (level + 1) head sample

/-- The other leaves do not matter. -/
theorem Gathers.congr (gathers : system.Gathers leafOf level rank sample) (known : rank < system.topology.numRank)
    (takesPart : level ≤ system.topology.numLevelCtl rank)
    (same : ∀ leaf ∈ system.topology.leaves level rank, leafOf leaf = other leaf) :
    system.Gathers other level rank sample := by
  induction gathers with
  | leaf rank =>
      rw [same rank (Topology.mem_leaves.mpr ⟨known, rfl⟩)]
      exact .leaf rank
  | @node level head sample set children combines ih =>
      refine .node set (fun child member => ?_) combines
      have isChild := (system.topology.mem_members head known level takesPart child).mp member
      refine ih child member isChild.1 isChild.2.1 fun leaf below => same leaf ?_
      obtain ⟨leafKnown, ancestor⟩ := Topology.mem_leaves.mp below
      rw [Topology.mem_leaves, Topology.ancestor, ancestor]
      exact ⟨leafKnown, isChild.2.2⟩

/-- The places of the samples of the leaves, and the samples there. -/
structure GathersFrom (system : System Policy Sample Agent Reading Reason) (state : State Policy Sample Agent)
    (level rank : Nat) (pick : Nat → Nat → Nat) : Prop where
  ordered : ∀ leaf, StrictMono (pick leaf)
  found : ∀ (index : Nat) sample, (state.link level rank).samples.sent[index]? = some sample →
    ∃ leafOf, (∀ leaf ∈ system.topology.leaves level rank,
      (state.link 0 leaf).samples.sent[pick leaf index]? = some (leafOf leaf)) ∧ system.Gathers leafOf level rank sample

/-- Each sample that a rank has sent has one of each leaf below it, in the order in which the leaves have sent them, and no
sample of a leaf is in two. -/
theorem Flows.gathersFrom (flows : system.Flows state) (known : rank < system.topology.numRank)
    (takesPart : level ≤ system.topology.numLevelCtl rank) : ∃ pick, system.GathersFrom state level rank pick := by
  induction level generalizing rank with
  | zero =>
      refine ⟨fun _ => id, fun _ => strictMono_id, fun index sample found => ⟨fun _ => sample, ?_, .leaf rank⟩⟩
      intro leaf below
      rw [Topology.leaves_zero known, Finset.mem_singleton] at below
      rw [below]
      exact found
  | succ level ih =>
      obtain ⟨sets, chosen, passes⟩ := flows.passes level rank known takesPart
      obtain ⟨thin, thinned⟩ := exists_picks passes.thinned
      have each : ∀ child, ∃ hop pick, StrictMono hop ∧ (∀ leaf, StrictMono (pick leaf)) ∧
          (child ∈ system.topology.members level rank →
            Picks hop (sets.map (· child)) (state.link level child).samples.sent ∧
              system.GathersFrom state level child pick) := by
        intro child
        by_cases member : child ∈ system.topology.members level rank
        · have isChild := (system.topology.mem_members rank known level takesPart child).mp member
          obtain ⟨hop, hops⟩ := exists_picks (passes.taken child member ▸ (flows.inOrder level child).taken)
          obtain ⟨pick, gathers⟩ := ih isChild.1 isChild.2.1
          exact ⟨hop, pick, hops.1, gathers.ordered, fun _ => ⟨hops, gathers⟩⟩
        · exact ⟨id, fun _ => id, strictMono_id, fun _ => strictMono_id, fun inside => absurd inside member⟩
      choose hop pick hopOrdered pickOrdered picks using each
      let above := system.topology.ancestor level
      refine ⟨fun leaf index => pick (above leaf) leaf (hop (above leaf) (thin index)), ?_, ?_⟩
      · intro leaf
        exact (pickOrdered _ leaf).comp ((hopOrdered _).comp thinned.1)
      · intro index sample found
        obtain ⟨set, here, combines⟩ := made_of_forall₂ passes.made found
        have child : ∀ child ∈ system.topology.members level rank, ∃ leafOf,
            (∀ leaf ∈ system.topology.leaves level child,
              (state.link 0 leaf).samples.sent[pick child leaf (hop child (thin index))]? = some (leafOf leaf)) ∧
            system.Gathers leafOf level child (set child) := by
          intro child member
          obtain ⟨hops, gathers⟩ := picks child member
          refine gathers.found _ _ (hops.2 _ _ ?_)
          rw [List.getElem?_map, thinned.2 _ _ here]
          rfl
        have some : Nonempty Sample := ⟨system.methods.unsetSample⟩
        choose! leafOf leaves gathers using child
        refine ⟨fun leaf => leafOf (above leaf) leaf, fun leaf below => ?_, .node set (fun child member => ?_) combines⟩
        · obtain ⟨leafKnown, ancestor⟩ := Topology.mem_leaves.mp below
          have inside : level < system.topology.rootLevel := Nat.lt_of_lt_of_le takesPart (Topology.numLevelCtl_le known)
          have member : above leaf ∈ system.topology.members level rank :=
            (Topology.mem_members_iff known takesPart (Topology.isLink_ancestor leafKnown inside)).mpr ancestor
          exact leaves _ member leaf (Topology.mem_leaves.mpr ⟨leafKnown, rfl⟩)
        · have isChild := (system.topology.mem_members rank known level takesPart child).mp member
          refine (gathers child member).congr isChild.1 isChild.2.1 fun leaf below => ?_
          have ancestor : above leaf = child := (Topology.mem_leaves.mp below).2
          simp only [ancestor]

end System

end Controllers

end Geopm
