import Geopm.Balancer.BudgetLeaf

namespace Outcome

/-- What is read of the results that a loop has found is what is read of its items. -/
theorem map_of_mapM {Item Found Read : Type*} {find : Item → Option Found} {items : List Item} {results : List Found}
    {read : Found → Read} {value : Item → Read} (done : items.mapM find = some results)
    (each : ∀ item ∈ items, ∀ found, find item = some found → read found = value item) :
    results.map read = items.map value := by
  have held := map_eq_of_mapM done
  apply List.map_injective_iff.mpr (Option.some_injective Read)
  rw [List.map_map, List.map_map, show some ∘ read = Option.map read ∘ some from rfl, ← List.map_map, ← held,
    List.map_map]
  apply List.map_congr_left
  intro item member
  obtain ⟨found, _, same⟩ := List.mem_map.mp (held ▸ List.mem_map_of_mem member)
  rw [Function.comp_apply, Function.comp_apply, ← same, Option.map_some, each item member found same.symm]

end Outcome

namespace Geopm

/-! What the nodes may use together while samples are sent up. -/

namespace Agg

variable {values : List ℚ} {operand : List Number} {value : ℚ}

theorem sum_value (some_value : values ≠ []) : sum (values.map .value) = .value values.sum := by
  rw [sum, Number.rationals_value]
  cases values with
  | nil => exact absurd rfl some_value
  | cons head tail => rfl

theorem min_exists (member : .value value ∈ operand) : ∃ least, min operand = .value least := by
  rw [min]
  cases smallest : (Number.rationals operand).min? with
  | none =>
      have inside := Number.mem_rationals.mpr member
      rw [List.min?_eq_none_iff.mp smallest] at inside
      cases inside
  | some least => exact ⟨least, rfl⟩

end Agg

/-- Slack is given out in the step after the limits are lowered. -/
theorem BalancerStep.ofCount_before {count : Int} (nonneg : 0 ≤ count)
    (next : ofCount (count + 1) = .sendDownLimit) : ofCount count = .reduceLimit := by
  have first : (count + 1).toNat % 3 = 0 := by
    rw [ofCount] at next
    split at next
    · assumption
    · cases next
    · cases next
  have last : count.toNat % 3 = 2 := by omega
  simp only [ofCount, last]

namespace Balancer

namespace System

variable {system : System} {total : ℚ} {state next : State} {level rank : Nat} {node : Node} {samples : List Sample}

/-- The samples of links change, and not their policies. -/
theorem Budget.setLinks {ranks : List Nat} (budget : system.Budget total state) (change : Link → Link)
    (policies : ∀ link, (change link).policy = link.policy)
    (tells : ∀ other ∈ ranks, system.topology.IsLink level other → ∀ sample,
      (change (state.link level other)).sample = some sample →
        sample.stepCount = .value ((state.node other).progress level).stepCount →
          BalancerStep.ofCount ((state.node other).progress level).stepCount = .reduceLimit →
            system.Tells state level other sample) : system.Budget total (state.setLinks level ranks change) := by
  have policy (upper other : Nat) :
      ((state.setLinks level ranks change).link upper other).policy = (state.link upper other).policy := by
    by_cases member : upper = level ∧ other ∈ ranks
    · obtain ⟨rfl, member⟩ := member
      rw [State.setLinks_link_member member, policies]
    · rw [State.setLinks_link_other fun same inside => member ⟨same, inside⟩]
  constructor
  case leaves => exact budget.leaves
  case requested => exact budget.requested
  case numNode => exact budget.numNode
  case fresh => exact budget.fresh
  case gives =>
      intro upper other isLink start sent held
      rw [policy] at held
      exact budget.gives upper other isLink start sent held
  case carries =>
      intro sends upper other isLink now sent held
      rw [policy] at held
      exact budget.carries sends upper other isLink now sent held
  case tells =>
      intro upper other isLink sample held step reduces
      have told : system.Tells state upper other sample := by
        by_cases member : upper = level ∧ other ∈ ranks
        · obtain ⟨rfl, member⟩ := member
          rw [State.setLinks_link_member member] at held
          exact tells other member isLink sample held step reduces
        · rw [State.setLinks_link_other fun same inside => member ⟨same, inside⟩] at held
          exact budget.tells upper other isLink sample held step reduces
      exact ⟨told.slack, told.room⟩
  case shares => exact budget.shares
  case conserved => exact budget.conserved

theorem Budget.receiveUp {ranks : List Nat} (budget : system.Budget total state) :
    system.Budget total (state.setLinks level ranks fun link => { link with sample := none }) :=
  budget.setLinks _ (fun _ => rfl) fun _ _ _ _ held => by cases held

/-- The samples of all children of an agent that together report its step. -/
structure Gathers (system : System) (state : State) (level rank : Nat) (samples : List Sample) : Prop where
  known : rank < system.topology.numRank
  controls : level < system.topology.numLevelCtl rank
  notNew : ¬((state.node rank).agent level).IsNew
  received : (system.topology.members level rank).mapM (fun child => (state.link level child).sample) = some samples
  least : (Sample.aggregate samples).stepCount = .value ((state.node rank).agent level).stepCount

/-- Each child has completed the step, and its sample reports that. -/
theorem Gathers.child (gathers : system.Gathers state level rank samples) (inStep : system.InStep total state) {other : Nat}
    (member : other ∈ system.topology.members level rank) : system.topology.IsLink level other ∧
      (state.node other).progress level = ⟨((state.node rank).agent level).stepCount, true⟩ ∧
      ∃ sample ∈ samples, (state.link level other).sample = some sample ∧
        sample.stepCount = .value ((state.node rank).agent level).stepCount := by
  have inside := Nat.lt_of_lt_of_le gathers.controls (Topology.numLevelCtl_le gathers.known)
  obtain ⟨otherKnown, takesPart, parent⟩ :=
    (system.topology.mem_members rank gathers.known level gathers.controls other).mp member
  have isLink : system.topology.IsLink level other := ⟨otherKnown, inside, takesPart⟩
  have follows := inStep.follows level other isLink
  have trails := follows.trails_sent (mt follows.silent.mp (parent ▸ gathers.notNew))
  rw [parent] at trails
  have completed := inStep.reported gathers.known gathers.controls gathers.notNew gathers.received gathers.least isLink parent
  have complete := Progress.eq_of_completed completed trails.behind
  refine ⟨isLink, complete, ?_⟩
  obtain ⟨sample, among, held⟩ := sample_received gathers.known gathers.controls gathers.received isLink parent
  obtain ⟨count, step, counted⟩ := follows.sample sample held
  have upper := counted.le
  rw [complete] at upper
  have upper : count ≤ ((state.node rank).agent level).stepCount := upper
  have lower : (((state.node rank).agent level).stepCount : ℚ) ≤ count :=
    Agg.min_le gathers.least (step ▸ List.mem_map_of_mem among)
  have same : count = ((state.node rank).agent level).stepCount := Int.le_antisymm upper (Int.cast_le.mp lower)
  exact ⟨sample, among, held, by rw [step, same]⟩

/-- What the children tell together is what they tell of the leaves below their parent. -/
theorem Gathers.tells (gathers : system.Gathers state level rank samples) (inStep : system.InStep total state)
    (budget : system.Budget total state) (affords : system.Affords total)
    (reduces : BalancerStep.ofCount ((state.node rank).agent level).stepCount = .reduceLimit) :
    system.Tells state (level + 1) rank (Sample.aggregate samples) := by
  have inside := Nat.lt_of_lt_of_le gathers.controls (Topology.numLevelCtl_le gathers.known)
  have child {other : Nat} (member : other ∈ system.topology.members level rank) {sample : Sample}
      (held : (state.link level other).sample = some sample) : system.Tells state level other sample := by
    obtain ⟨isLink, complete, own, _, same, step⟩ := gathers.child inStep member
    rw [held] at same
    cases same
    have count : ((state.node other).progress level).stepCount = ((state.node rank).agent level).stepCount :=
      congrArg Progress.stepCount complete
    exact budget.tells level other isLink _ held (by rw [step, count]) (by rw [count]; exact reduces)
  have self : rank ∈ system.topology.members level rank := by
    rw [Topology.mem_members_iff gathers.known gathers.controls (Topology.isLink_self gathers.known gathers.controls)]
    exact system.topology.parent_self rank gathers.known level gathers.controls
  constructor
  case slack =>
      have slacks := Outcome.map_of_mapM gathers.received fun other member sample held => (child member held).slack
      have some_slack : (system.topology.members level rank).map (fun other =>
          ∑ leaf ∈ system.topology.leaves level other,
            ((state.node leaf).leaf.capSum - (state.node leaf).leaf.limitSum)) ≠ [] :=
        fun none => List.not_mem_nil (List.map_eq_nil_iff.mp none ▸ self)
      have whole := Agg.sum_value some_slack
      rw [List.map_map] at whole
      rw [Sample.aggregate, slacks, Topology.sum_leaves_succ gathers.known gathers.controls
        (affords.distinct level rank gathers.known gathers.controls)]
      exact whole
  case room =>
      obtain ⟨_, _, sample, among, held, _⟩ := gathers.child inStep self
      obtain ⟨room, given, _, _⟩ := (child self held).room
      have told : sample.minPowerHeadroom ∈ samples.map Sample.minPowerHeadroom := List.mem_map_of_mem among
      obtain ⟨least, found⟩ := Agg.min_exists (given ▸ told)
      refine ⟨least, found, ?_, fun leaf member => ?_⟩
      · obtain ⟨other, otherAmong, same⟩ := List.mem_map.mp (Agg.min_mem found)
        have inside : some other ∈ (system.topology.members level rank).map fun child => (state.link level child).sample := by
          rw [Outcome.map_eq_of_mapM gathers.received]
          exact List.mem_map_of_mem otherAmong
        obtain ⟨from_child, member, held⟩ := List.mem_map.mp inside
        obtain ⟨own, ownGiven, nonneg, _⟩ := (child member held).room
        cases ownGiven.symm.trans same
        exact nonneg
      · obtain ⟨leafKnown, parent⟩ := Topology.mem_leaves.mp member
        have isLink := Topology.isLink_ancestor leafKnown inside
        have inMembers := (Topology.mem_members_iff gathers.known gathers.controls isLink).mpr parent
        obtain ⟨_, _, sample, among, held, _⟩ := gathers.child inStep inMembers
        obtain ⟨own, ownGiven, _, below⟩ := (child inMembers held).room
        exact (Agg.min_le found (ownGiven ▸ List.mem_map_of_mem among)).trans
          (below leaf (Topology.mem_leaves.mpr ⟨leafKnown, rfl⟩))

/-- Where all children of the root report its step all leaves have completed that step. -/
theorem Gathers.leaves_complete (gathers : system.Gathers state level 0 samples) (inStep : system.InStep total state)
    (isRoot : level + 1 = system.topology.rootLevel) (nonneg : 0 ≤ ((state.node 0).agent level).stepCount)
    (known : rank < system.topology.numRank) :
    (state.node rank).leaf.progress = ⟨((state.node 0).agent level).stepCount, true⟩ := by
  have inside : level < system.topology.rootLevel := by omega
  refine inStep.leaf_below known nonneg inside (gathers.child inStep ?_).2.1
  have isLink := Topology.isLink_ancestor known inside
  have below := (Topology.mem_leaves.mp (Topology.leaves_root ▸ Finset.mem_range.mpr known)).2
  rw [← isRoot] at below
  exact (Topology.mem_members_iff gathers.known gathers.controls isLink).mpr below

/-- The slack that is to be given out is no more than that of each node, on average, and than the room of each. -/
theorem Tells.slack_of {sample : Sample} (tells : system.Tells state system.topology.rootLevel 0 sample)
    (limits : ∀ rank < system.topology.numRank, (state.node rank).leaf.limitSum ≤ (state.node rank).leaf.capSum) :
    ∃ slack, (sample.sumPowerSlack / .value system.topology.numRank).least sample.minPowerHeadroom = .value slack ∧
      0 ≤ slack ∧ (∀ rank < system.topology.numRank, slack ≤ (state.node rank).leaf.roomSum (system.settings rank)) ∧
      ∑ rank ∈ Finset.range system.topology.numRank, ((state.node rank).leaf.limitSum + slack) ≤
        ∑ rank ∈ Finset.range system.topology.numRank, (state.node rank).leaf.capSum := by
  obtain ⟨least, given, least_nonneg, below⟩ := tells.room
  have slack := tells.slack
  rw [Topology.leaves_root] at slack below
  have some_rank : (0 : ℚ) < system.topology.numRank := Nat.cast_pos.mpr system.topology.some_rank
  have sum_nonneg : 0 ≤ ∑ rank ∈ Finset.range system.topology.numRank,
      ((state.node rank).leaf.capSum - (state.node rank).leaf.limitSum) :=
    Finset.sum_nonneg fun rank member => sub_nonneg.mpr (limits rank (Finset.mem_range.mp member))
  refine ⟨min ((∑ rank ∈ Finset.range system.topology.numRank,
      ((state.node rank).leaf.capSum - (state.node rank).leaf.limitSum)) / system.topology.numRank) least, ?_, ?_, ?_, ?_⟩
  · rw [slack, given, Number.value_div, Number.least_value]
  · exact le_min (div_nonneg sum_nonneg some_rank.le) least_nonneg
  · exact fun rank known => (min_le_right _ _).trans (below rank (Finset.mem_range.mpr known))
  · rw [Finset.sum_add_distrib, Finset.sum_const, Finset.card_range, nsmul_eq_mul, Finset.sum_sub_distrib]
    have part := min_le_left ((∑ rank ∈ Finset.range system.topology.numRank,
      ((state.node rank).leaf.capSum - (state.node rank).leaf.limitSum)) / system.topology.numRank) least
    rw [le_div_iff₀ some_rank, Finset.sum_sub_distrib] at part
    linarith

/-- What the root has become that has completed its step with a sample. -/
structure Completes (role : RootRole) (sample : Sample) (done : RootRole) : Prop where
  numNode : done.numNode = role.numNode
  rootCap : done.rootCap = role.rootCap
  stepCount : done.stepCount = role.stepCount
  announced : done.announced = role.stepCount + 1
  slack : BalancerStep.ofCount role.stepCount = .reduceLimit →
    done.policy.powerSlack = (sample.sumPowerSlack / .value role.numNode).least sample.minPowerHeadroom
  same : BalancerStep.ofCount role.stepCount = .sendDownLimit → done.policy.powerSlack = role.policy.powerSlack

theorem completes_updatePolicy {role : RootRole} {sample : Sample} {stepCount : Number} :
    Completes role sample { role with
      isStepComplete := true
      policy := { (BalancerStep.ofCount role.stepCount).updatePolicy role.numNode sample role.policy with stepCount } } where
  numNode := rfl
  rootCap := rfl
  stepCount := rfl
  announced := RootRole.announced_of_complete rfl
  slack := by
    intro reduces
    rw [reduces]
    rfl
  same := by
    intro sends
    rw [sends]
    rfl

/-- The root completes its step. -/
theorem Budget.finish (budget : system.Budget total state) (inStep : system.InStep total state)
    (affords : system.Affords total) (role done : RootRole) (node : Node) (isRoot : level + 1 = system.topology.rootLevel)
    (found : (state.node 0).agent level = .root role) (incomplete : role.isStepComplete = false)
    (gathers : system.Gathers state level 0 samples) (completes : Completes role (Sample.aggregate samples) done)
    (leaf : node.leaf = (state.node 0).leaf) (walks : node.walks = (state.node 0).walks)
    (agents : node.agent = Function.update (state.node 0).agent level (.root done)) :
    system.Budget total ((state.setNode 0 node).setLinks level (system.topology.members level 0)
      fun link => { link with sample := none }) := by
  have tree : system.topology.rootLevel ≠ 0 := by omega
  have before := rootRole_eq isRoot found
  have numNode := budget.numNode
  rw [before] at numNode
  have holds : role.Holds total := by
    have rooted := (inStep.root tree).2
    rw [before] at rooted
    refine rooted.resolve_left fun isNew => gathers.notNew ?_
    rw [found]
    exact isNew
  have nonneg := holds.nonneg
  have agentStep : ((state.node 0).agent level).stepCount = role.stepCount := by
    rw [found]
    rfl
  have atStep {rank : Nat} (known : rank < system.topology.numRank) :
      (state.node rank).leaf.stepCount = role.stepCount ∧ (state.node rank).leaf.Kept (system.settings rank) total := by
    have complete := gathers.leaves_complete inStep isRoot (agentStep ▸ nonneg) known
    have step : (state.node rank).leaf.stepCount = role.stepCount := agentStep ▸ congrArg Progress.stepCount complete
    exact ⟨step, (budget.leaves rank known).kept (by omega)⟩
  -- before the step is complete no leaf has yet to take the slack
  have whole : ∑ rank ∈ Finset.range system.topology.numRank, (state.node rank).leaf.capSum ≤
      system.topology.numRank * total := by
    by_cases start : role.stepCount = 0
    case pos =>
        have each : ∀ rank ∈ Finset.range system.topology.numRank, (state.node rank).leaf.capSum = total := by
          intro rank member
          have known := Finset.mem_range.mp member
          obtain ⟨step, kept⟩ := atStep known
          refine LeafRole.capSum_of_capped (fun none => ?_) (kept.capped (step.trans start))
          have length := (budget.leaves rank known).length
          have some_package := affords.some_package rank known
          rw [none, List.length_nil] at length
          omega
        rw [Finset.sum_congr rfl each, Finset.sum_const, Finset.card_range, nsmul_eq_mul]
    case neg =>
        have conserved := budget.conserved (by rw [before, RootRole.announced_of_incomplete incomplete]; omega)
        refine le_of_eq_of_le (Finset.sum_congr rfl fun rank member => ?_) conserved
        rw [charge, if_neg]
        intro waits
        have late := waits.2
        rw [before, RootRole.announced_of_incomplete incomplete, (atStep (Finset.mem_range.mp member)).1] at late
        omega
  have slack (reduces : BalancerStep.ofCount role.stepCount = .reduceLimit) :=
    (isRoot ▸ gathers.tells inStep budget affords (agentStep ▸ reduces) :
      system.Tells state system.topology.rootLevel 0 (Sample.aggregate samples)).slack_of fun rank known =>
        (atStep known).2.limitSum_le
  refine budget.setRoot done node _ isRoot leaf walks agents (by rw [before, completes.numNode]) (fun none => ?_)
    (fun link sample held => by cases held) (fun other isLink parent => ?_) (fun sends => ?_)
    (fun past sends => ?_) fun past => ?_
  · rw [completes.rootCap, holds.rootCap] at none
    cases none
  · intro start policy held
    have gives := budget.gives level other isLink
    rw [parent, found] at gives
    exact gives (completes.stepCount.symm.trans start) policy held
  · rw [completes.stepCount] at sends ⊢
    have carries := budget.carries (by rw [before]; exact sends)
    have same : done.slack = role.slack := by rw [RootRole.slack, RootRole.slack, completes.same sends]
    rw [before] at carries
    rw [same]
    refine ⟨fun other isLink parent start policy held => ?_, fun upper other isLink _ => carries upper other isLink⟩
    have carried := carries level other isLink
    rw [parent, found] at carried
    exact carried rfl policy held
  · rw [completes.announced] at sends
    have reduces := BalancerStep.ofCount_before nonneg sends
    obtain ⟨slack, same, positive, rooms, _⟩ := slack reduces
    have given := completes.slack reduces
    rw [numNode, same] at given
    have found : done.slack = slack := by
      rw [RootRole.slack, given]
      rfl
    rw [found]
    exact ⟨given, positive, fun rank known _ => rooms rank known⟩
  · rw [completes.announced]
    by_cases sends : BalancerStep.ofCount (role.stepCount + 1) = .sendDownLimit
    case pos =>
        have reduces := BalancerStep.ofCount_before nonneg sends
        obtain ⟨slack, same, _, _, fits⟩ := slack reduces
        have given := completes.slack reduces
        rw [numNode, same] at given
        have found : done.slack = slack := by
          rw [RootRole.slack, given]
          rfl
        refine le_trans (le_of_eq (Finset.sum_congr rfl fun rank member => ?_)) (fits.trans whole)
        rw [if_pos ⟨sends, by rw [(atStep (Finset.mem_range.mp member)).1]⟩, found]
    case neg =>
        refine le_of_eq_of_le (Finset.sum_congr rfl fun rank _ => ?_) whole
        rw [if_neg fun both => sends both.1]

/-- How far `walk_up` has come. -/
structure Lifted (system : System) (total : ℚ) (level rank : Nat) (walk : Option Sample × State) : Prop where
  risen : system.Risen total level rank walk
  budget : system.Budget total walk.2
  carried : ∀ sample, walk.1 = some sample →
    sample.stepCount = .value ((walk.2.node rank).progress level).stepCount →
      BalancerStep.ofCount ((walk.2.node rank).progress level).stepCount = .reduceLimit →
        system.Tells walk.2 level rank sample

theorem sendSample_budget {walk : Option Sample × State} (lifted : system.Lifted total level rank walk) :
    system.Budget total (sendSample level rank walk) := by
  obtain ⟨carried, state⟩ := walk
  cases carried with
  | none => exact lifted.budget
  | some sample =>
      refine lifted.budget.setLinks (fun link => { link with sample := some sample }) (fun _ => rfl) fun other member isLink held same step reduces => ?_
      obtain rfl := List.mem_singleton.mp member
      cases same
      exact lifted.carried sample rfl step reduces

/-- The start of `walk_up`. -/
theorem samplePlatform_lifted {measured : Nat → Measured} (inStep : system.InStep total state)
    (budget : system.Budget total state) (tree : system.topology.rootLevel ≠ 0)
    (known : rank < system.topology.numRank) (walked : (state.node rank).walks % 2 = 1) :
    Outcome.Keeps (fun reason => ¬reason.IsStepError) (system.Lifted total 0 rank)
      (system.samplePlatform rank measured state) := by
  have risen := @samplePlatform_risen system total state rank measured inStep fun first => by
    rw [first] at walked
    omega
  cases done : system.samplePlatform rank measured state with
  | error reason =>
      rw [done] at risen
      exact risen
  | ok walk =>
      rw [done] at risen
      have risen : system.Risen total 0 rank walk := risen
      rw [samplePlatform] at done
      obtain ⟨⟨doSend, outSample, leaf⟩, sampled, ends⟩ := Transition.ok_of_bind done
      clear done
      cases ends
      obtain ⟨started, requested⟩ := budget.requested rank known walked
      have kept := (budget.leaves rank known).kept started
      obtain ⟨nextKept, caps, length, limits⟩ := kept.sampled requested sampled
      obtain ⟨_, step, isComplete, sample⟩ := LeafRole.samplePlatform_cases sampled
      refine ⟨risen, ?_, ?_⟩
      · refine budget.setLeaf inStep known rfl risen.inStep
          (budget.goes_stays inStep tree known rfl started nextKept length step (fun odd => ?_) caps limits)
        have next : ((state.node rank).walks + 1) % 2 = 1 := odd
        omega
      · intro held carried counted reduces
        cases doSend with
        | false => cases carried
        | true =>
            cases carried
            rw [State.setNode_node_self] at reduces
            have reported := nextKept.reported reduces isComplete.symm
            rw [← sample] at reported
            refine ⟨?_, leaf.roomSum (system.settings rank), reported.2, nextKept.roomSum_nonneg, fun other member => ?_⟩
            · rw [Topology.leaves_zero known, Finset.sum_singleton, State.setNode_node_self]
              exact reported.1
            · rw [Topology.leaves_zero known, Finset.mem_singleton] at member
              rw [member, State.setNode_node_self]

/-- What an agent does with the samples of all its children. -/
theorem aggregateSample_lifted (inStep : system.InStep total state) (budget : system.Budget total state)
    (affords : system.Affords total) (known : rank < system.topology.numRank)
    (controls : level < system.topology.numLevelCtl rank) (walks : rank = 0 → (state.node 0).walks ≠ 0)
    (received : (system.topology.members level rank).mapM (fun child => (state.link level child).sample) = some samples) :
    Outcome.Keeps (fun reason => ¬reason.IsStepError) (system.Lifted total (level + 1) rank)
      (aggregateSample level rank samples (state.setLinks level (system.topology.members level rank)
        fun link => { link with sample := none })) := by
  have risen := aggregateSample_risen inStep known controls walks received
  obtain ⟨result, ascended, ascends, plays⟩ := inStep.ascend samples known controls walks
  rw [aggregateSample, State.setLinks_node, ascended] at risen ⊢
  obtain ⟨doSend, outSample, agent⟩ := result
  cases doSend with
  | false =>
      have same : Function.update (state.node rank).agent level agent = (state.node rank).agent := by
        rw [show agent = (state.node rank).agent level from ascends, Function.update_eq_self]
      exact ⟨risen, budget.receiveUp.setNode same rfl rfl, fun sample carried => by cases carried⟩
  | true =>
      obtain ⟨step, aggregated, finishes⟩ : outSample.stepCount = .value ((state.node rank).agent level).stepCount ∧
        outSample = Sample.aggregate samples ∧ ((state.node rank).agent level).Finishes agent := ascends
      obtain ⟨notNew, _⟩ := inStep.finishes_known known controls walks finishes
      rw [aggregated] at step
      have gathers : system.Gathers state level rank samples := ⟨known, controls, notNew, received, step⟩
      let node : Node := { state.node rank with agent := Function.update (state.node rank).agent level agent }
      have next : system.Budget total ((state.setNode rank node).setLinks level (system.topology.members level rank)
          fun link => { link with sample := none }) := by
        by_cases isRoot : level + 1 = system.topology.rootLevel
        case neg =>
            refine budget.setAgent rfl _ known controls isRoot rfl rfl (fun link sample held => by cases held)
              (fun sample held same => finishes.stepCount) (fun other isLink parent start => ?_)
              fun sends other isLink parent start => ?_
            · have gives := budget.gives level other isLink
              rw [parent] at gives
              exact gives (finishes.stepCount.symm.trans start)
            · have carries := budget.carries sends level other isLink
              rw [parent] at carries
              exact carries (finishes.stepCount.symm.trans start)
        case pos =>
            obtain rfl := Topology.first_of_root known controls isRoot
            cases found : (state.node 0).agent level with
            | tree role =>
                have plays := inStep.plays level 0 known controls
                rw [found] at plays
                exact absurd isRoot plays
            | root role =>
                rw [found, Agent.ascend] at ascended
                cases rises : role.ascend samples with
                | error reason =>
                    rw [rises] at ascended
                    cases ascended
                | ok result =>
                    obtain ⟨result, sample, done⟩ := result
                    rw [rises] at ascended
                    cases ascended
                    cases RootRole.ascend_cases rises with
                    | inr stays => cases stays.1
                    | inl completes =>
                        obtain ⟨_, incomplete, _, _, _, ends⟩ := completes
                        have completed : Completes role (Sample.aggregate samples) done := by
                          rw [ends, aggregated]
                          exact completes_updatePolicy
                        exact budget.finish inStep affords role done node isRoot found incomplete gathers completed rfl rfl rfl
      refine ⟨risen, next, fun sample carried _ reduces => ?_⟩
      cases carried
      have same : (((state.setNode rank node).node rank).progress (level + 1)).stepCount =
          ((state.node rank).agent level).stepCount := by
        rw [Node.progress, agent_changed rfl]
        exact finishes.stepCount
      have told := gathers.tells inStep budget affords (same ▸ reduces)
      rw [aggregated]
      exact told.congr_leaf (leaf_setNode rfl)

/-- One round of the loop of `walk_up`. -/
theorem riseLevel_lifted {walk : Option Sample × State} (affords : system.Affords total)
    (known : rank < system.topology.numRank) (controls : level < system.topology.numLevelCtl rank)
    (lifted : system.Lifted total level rank walk) :
    Outcome.Keeps (fun reason => ¬reason.IsStepError) (system.Lifted total (level + 1) rank)
      (system.riseLevel rank walk level) := by
  have risen := riseLevel_risen known controls lifted.risen
  obtain ⟨inStep, nodes⟩ := sendSample_inStep lifted.risen
  have budget := sendSample_budget lifted
  have walks := lifted.risen.walks
  rw [riseLevel, receiveUp] at risen ⊢
  generalize sendSample level rank walk = state at inStep nodes budget risen ⊢
  rw [← nodes] at walks
  cases received : (system.topology.members level rank).mapM fun child => (state.link level child).sample with
  | none =>
      rw [received] at risen
      exact ⟨risen, budget, fun sample carried => by cases carried⟩
  | some samples =>
      rw [received] at risen
      by_cases nan : samples.any Sample.hasNan
      case pos =>
          simp only [nan, if_true] at risen ⊢
          exact ⟨risen, budget.receiveUp, fun sample carried => by cases carried⟩
      case neg =>
          simp only [nan, Bool.false_eq_true, if_false]
          exact aggregateSample_lifted inStep budget affords known controls walks received

theorem walkUp_budget {measured : Nat → Measured} (affords : system.Affords total)
    (tree : system.topology.rootLevel ≠ 0) (known : rank < system.topology.numRank)
    (inStep : system.InStep total state) (budget : system.Budget total state)
    (walked : (state.node rank).walks % 2 = 1) :
    Outcome.Keeps (fun reason => ¬reason.IsStepError)
      (fun next => system.InStep total next ∧ system.Budget total next) (system.walkUp rank measured state) := by
  rw [walkUp]
  refine (samplePlatform_lifted inStep budget tree known walked).bind fun start lifted => ?_
  have loop := @Outcome.keeps_range _ _ (fun reason => ¬AgentError.IsStepError reason)
    (fun level => system.Lifted total level rank) (system.riseLevel rank) (system.topology.numLevelCtl rank) start lifted
    fun level walk controls _ lifted => riseLevel_lifted affords known controls lifted
  refine loop.bind fun walk lifted => ?_
  by_cases root : system.topology.numLevelCtl rank = system.topology.rootLevel
  · simp only [root, if_true]
    exact ⟨lifted.risen.inStep, lifted.budget⟩
  · simp only [root, if_false]
    exact ⟨(sendSample_inStep lifted.risen).1, sendSample_budget lifted⟩

end System

end Balancer

end Geopm
