import Geopm.Balancer.NewCaps
import Geopm.Balancer.StepSync

namespace Geopm

/-! Runs in which a new total limit reaches every leaf. -/

namespace Sample

/-- All of the samples report the first step, or none of them does. -/
def Alike (samples : List Sample) : Prop :=
  (∀ sample ∈ samples, sample.stepCount = .value 0) ∨ ∀ sample ∈ samples, sample.stepCount ≠ .value 0

instance (samples : List Sample) : Decidable (Alike samples) := inferInstanceAs (Decidable (_ ∨ _))

/-- Where the least step is the first, all samples report it. -/
theorem Alike.all_first {samples : List Sample} (alike : Alike samples)
    (least : (aggregate samples).stepCount = .value 0) : ∀ sample ∈ samples, sample.stepCount = .value 0 := by
  refine alike.resolve_right fun none => ?_
  obtain ⟨sample, member, step⟩ := List.mem_map.mp (Agg.min_mem least)
  exact none sample member step

end Sample

namespace Balancer

namespace System

variable {system : System} {first total : ℚ} {state next : State} {level rank : Nat} {samples : List Sample}

/-- The samples that an agent in the first step takes are alike while a limit is sent. -/
def TakesAlike (system : System) (state : State) (level rank : Nat) (samples : List Sample) : Prop :=
  (system.rootRole state).Active → ((state.node rank).agent level).progress = ⟨0, false⟩ → Sample.Alike samples

theorem Passing.reported (passing : system.Passing first state) (known : rank < system.topology.numRank)
    (controls : level < system.topology.numLevelCtl rank) (active : (system.rootRole state).Active)
    (received : (system.topology.members level rank).mapM (fun child => (state.link level child).sample) = some samples)
    (alike : Sample.Alike samples) (least : (Sample.aggregate samples).stepCount = .value 0) {other : Nat}
    (isLink : system.topology.IsLink level other) (parent : system.topology.parent level other = rank) :
    (state.node other).progress level = ⟨0, true⟩ := by
  obtain ⟨sample, member, held⟩ := sample_received known controls received isLink parent
  exact ((passing.generation active).links level other isLink).sample sample held (alike.all_first least sample member)

/-- The samples of the children are taken. -/
theorem Passing.takeSamples (passing : system.Passing first state) (level : Nat) (ranks : List Nat) :
    system.Passing first (state.setLinks level ranks fun link => { link with sample := none }) :=
  passing.setLinks _ fun other _ isLink =>
    ⟨(passing.links level other isLink).receiveUp, fun _ generation => (generation.links level other isLink).receiveUp⟩

/-- An agent that goes on as it is. -/
theorem Passing.stay {agent : Agent} (passing : system.Passing first state)
    (same : (state.node rank).agent level = agent) : system.Passing first (state.setNode rank { state.node rank with
      agent := Function.update (state.node rank).agent level agent }) := by
  have agents : Function.update (state.node rank).agent level agent = (state.node rank).agent := by
    rw [← same, Function.update_eq_self]
  exact passing.setNode _ agents fun _ generation => ⟨generation.links 0 rank, generation.leaves rank⟩

/-- A role below the root completes its step. -/
theorem Passing.complete (passing : system.Passing first state) (role : TreeRole)
    (known : rank < system.topology.numRank) (controls : level < system.topology.numLevelCtl rank)
    (found : (state.node rank).agent level = .tree role) (incomplete : role.isStepComplete = false)
    (received : (system.topology.members level rank).mapM (fun child => (state.link level child).sample) = some samples)
    (alike : system.TakesAlike state level rank samples)
    (least : (Sample.aggregate samples).stepCount = .value role.stepCount) :
    0 ≤ role.stepCount ∧ system.Passing first ((state.setNode rank { state.node rank with
        agent := Function.update (state.node rank).agent level (.tree { role with isStepComplete := true }) }).setLinks
      level (system.topology.members level rank) fun link => { link with sample := none }) := by
  have plays := passing.agents level rank known controls
  rw [found] at plays
  have inner : level + 1 ≠ system.topology.rootLevel := plays
  have notNew : ¬Agent.IsNew (.tree role) := by
    intro isNew
    rw [isNew.2] at incomplete
    cases incomplete
  have self := passing.links level rank (Topology.isLink_self known controls)
  rw [system.topology.parent_self rank known level controls, found] at self
  have nonneg : 0 ≤ role.stepCount := self.nonneg notNew
  have nextKnown : ¬Agent.IsNew (.tree { role with isStepComplete := true }) := by
    intro isNew
    have step : role.stepCount = -1 := isNew.1
    omega
  refine ⟨nonneg, passing.setAgent _ _ _ known controls inner rfl rfl (fun other isLink parent => ?_) ?_⟩
  case refine_1 =>
      obtain ⟨sample, _, held⟩ := sample_received known controls received isLink parent
      have conforms := passing.links level other isLink
      rw [parent, found] at conforms
      refine ⟨conforms.complete notNew nextKnown rfl (by rw [held]; exact Option.some_ne_none sample),
        fun active generation => ?_⟩
      have current := generation.links level other isLink
      rw [parent, found] at current
      refine current.finish rfl fun start => ?_
      have zero : role.stepCount = 0 := start
      have waits : ((state.node rank).agent level).progress = ⟨0, false⟩ := by
        rw [found, Agent.progress, Agent.stepCount, Agent.isStepComplete, zero, incomplete]
      rw [zero, Int.cast_zero] at least
      exact passing.reported known controls active received (alike active waits) least isLink parent
  case refine_2 =>
      have isLink := Topology.isLink_above known controls inner
      have progress : (state.node rank).progress (level + 1) = (Agent.tree role).progress := by
        rw [Node.progress, found]
      have above := passing.links (level + 1) rank isLink
      rw [progress] at above
      refine ⟨above.change fun _ step => step, fun _ generation => ?_⟩
      have current := generation.links (level + 1) rank isLink
      rw [progress] at current
      exact current.grow rfl fun _ => rfl

/-- The root completes its step. -/
theorem Passing.finish (passing : system.Passing first state) (role done : RootRole) (node : Node)
    (isRoot : level + 1 = system.topology.rootLevel) (found : (state.node 0).agent level = .root role)
    (incomplete : role.isStepComplete = false) (runs : done.Runs) (step : done.stepCount = role.stepCount)
    (cap : done.rootCap = role.rootCap)
    (received : (system.topology.members level 0).mapM (fun child => (state.link level child).sample) = some samples)
    (alike : system.TakesAlike state level 0 samples)
    (least : (Sample.aggregate samples).stepCount = .value role.stepCount) (leaf : node.leaf = (state.node 0).leaf)
    (agents : node.agent = Function.update (state.node 0).agent level (.root done)) :
    system.Passing first ((state.setNode 0 node).setLinks level (system.topology.members level 0)
      fun link => { link with sample := none }) := by
  have controls : level < system.topology.numLevelCtl 0 := by
    rw [system.topology.root]
    omega
  have known := system.topology.some_rank
  have before := rootRole_eq isRoot found
  obtain ⟨total, value⟩ := runs.rootCap
  have notNew : ¬Agent.IsNew (.root role) := fun isNew => by cases value.symm.trans (cap.trans isNew.1)
  have nextKnown : ¬Agent.IsNew (.root done) := fun isNew => by cases value.symm.trans isNew.1
  have after : system.rootRole ((state.setNode 0 node).setLinks level (system.topology.members level 0)
      fun link => { link with sample := none }) = done :=
    rootRole_eq isRoot (agent_changed agents)
  have due : system.due first ((state.setNode 0 node).setLinks level (system.topology.members level 0)
      fun link => { link with sample := none }) = system.due first state := by
    rw [System.due, System.due, after, before, cap]
  constructor
  case agents => exact passing.agents.setAgent agents ⟨isRoot, .inr runs⟩
  case links =>
      refine passing.links.setAgent agents _ known controls leaf (fun other isLink parent => ?_)
        fun inner => absurd isRoot inner
      obtain ⟨sample, _, held⟩ := sample_received known controls received isLink parent
      have conforms := passing.links level other isLink
      rw [parent, found] at conforms
      exact conforms.complete notNew nextKnown step (by rw [held]; exact Option.some_ne_none sample)
  case fits =>
      rw [due]
      exact passing.fits
  case generation =>
      intro active
      rw [after] at active
      rw [due]
      have start : role.stepCount = 0 := step.symm.trans active.1
      have waiting : (system.rootRole state).Active := by
        rw [before]
        exact ⟨start, fun complete => by rw [incomplete] at complete; cases complete⟩
      have generation := passing.generation waiting
      have waits : ((state.node 0).agent level).progress = ⟨0, false⟩ := by
        rw [found, Agent.progress, Agent.stepCount, Agent.isStepComplete, start, incomplete]
      rw [start, Int.cast_zero] at least
      refine ⟨generation.links.setAgent agents _ known controls leaf (fun other isLink parent => ?_)
        fun inner => absurd isRoot inner, fun other otherKnown first => ?_⟩
      · have current := generation.links level other isLink
        rw [parent, found] at current
        exact current.finish step fun _ =>
          passing.reported known controls waiting received (alike waiting waits) least isLink parent
      · rw [State.setLinks_node, leaf_setNode leaf] at first ⊢
        exact generation.leaves other otherKnown first

/-- What an agent does with the samples of all its children. -/
theorem aggregateSample_ascended (passing : system.Passing first state)
    (known : rank < system.topology.numRank) (controls : level < system.topology.numLevelCtl rank)
    (received : (system.topology.members level rank).mapM (fun child => (state.link level child).sample) = some samples)
    (alike : system.TakesAlike state level rank samples) :
    Outcome.Keeps (fun _ => True) (system.Ascended first (level + 1) rank)
      (aggregateSample level rank samples (state.setLinks level (system.topology.members level rank)
        fun link => { link with sample := none })) := by
  have plays := passing.agents level rank known controls
  have taken := passing.takeSamples level (system.topology.members level rank)
  rw [aggregateSample, State.setLinks_node]
  refine Outcome.keeps_bind (fun _ _ => trivial) fun result ascended => ?_
  obtain ⟨doSend, outSample, agent⟩ := result
  have silent (same : (state.node rank).agent level = agent) : system.Ascended first (level + 1) rank
      (none, (state.setLinks level (system.topology.members level rank) fun link => { link with sample := none }).setNode
        rank { state.node rank with agent := Function.update (state.node rank).agent level agent }) :=
    ⟨taken.stay same, fun sample carried => by cases carried⟩
  cases found : (state.node rank).agent level with
  | tree role =>
      rw [found] at ascended
      rw [Agent.ascend] at ascended
      cases ascends : role.ascend samples with
      | error reason =>
          rw [ascends] at ascended
          cases ascended
      | ok result =>
          obtain ⟨result, sample, next⟩ := result
          rw [ascends] at ascended
          cases ascended
          cases TreeRole.ascend_cases ascends with
          | inr stays =>
              obtain ⟨rfl, rfl⟩ := stays
              exact silent found
          | inl finishes =>
              obtain ⟨rfl, incomplete, rfl, least, rfl⟩ := finishes
              obtain ⟨nonneg, completed⟩ := passing.complete role known controls found incomplete received alike least
              refine ⟨completed, fun sample carried => ?_⟩
              cases carried
              simp only [Node.progress, State.setNode_node_self, Function.update_self]
              refine ⟨least, rfl, fun _ => ?_⟩
              change role.stepCount ≠ -1
              omega
  | root role =>
      rw [found] at plays ascended
      obtain ⟨isRoot, sound⟩ := plays
      obtain rfl := Topology.first_of_root known controls isRoot
      rw [Agent.ascend] at ascended
      cases ascends : role.ascend samples with
      | error reason =>
          rw [ascends] at ascended
          cases ascended
      | ok result =>
          obtain ⟨result, sample, next⟩ := result
          rw [ascends] at ascended
          cases ascended
          cases RootRole.ascend_cases ascends with
          | inr stays =>
              obtain ⟨rfl, rfl⟩ := stays
              exact silent found
          | inl finishes =>
              obtain ⟨rfl, incomplete, rfl, least, step, rfl⟩ := finishes
              have runs : role.Runs := by
                refine sound.resolve_left fun isNew => ?_
                cases step.symm.trans isNew.2
              have nonneg := runs.nonneg
              refine ⟨passing.finish role _ _ isRoot found incomplete (runs.finish incomplete _) rfl rfl received alike
                least rfl rfl, fun sample carried => ?_⟩
              cases carried
              simp only [Node.progress, State.setNode_node_self, Function.update_self]
              refine ⟨least, rfl, fun _ => ?_⟩
              change role.stepCount ≠ -1
              omega

/-- One round of the loop of `walk_up`. -/
theorem riseLevel_ascended {walk : Option Sample × State} (known : rank < system.topology.numRank)
    (controls : level < system.topology.numLevelCtl rank) (ascended : system.Ascended first level rank walk)
    (alike : ∀ samples ∈ (system.receiveUp level rank (sendSample level rank walk)).1,
      system.TakesAlike (sendSample level rank walk) level rank samples) :
    Outcome.Keeps (fun _ => True) (system.Ascended first (level + 1) rank) (system.riseLevel rank walk level) := by
  have passing := (sendSample_passes ascended).1
  rw [receiveUp] at alike
  rw [riseLevel, receiveUp]
  generalize sendSample level rank walk = state at passing alike ⊢
  cases received : (system.topology.members level rank).mapM fun child => (state.link level child).sample with
  | none => exact ⟨passing, fun sample carried => by cases carried⟩
  | some samples =>
      rw [received] at alike
      by_cases nan : samples.any Sample.hasNan
      case pos =>
          simp only [nan, if_true]
          exact ⟨passing.takeSamples level _, fun sample carried => by cases carried⟩
      case neg =>
          simp only [nan, Bool.false_eq_true, if_false] at alike ⊢
          exact aggregateSample_ascended passing known controls received (alike samples rfl)

/-- Each agent of the rank that takes samples in a walk up takes samples that are alike. -/
def RisesAlike (system : System) (state : State) (rank : Nat) (measured : Nat → Measured) : Prop :=
  ∀ level < system.topology.numLevelCtl rank, ∀ start, system.samplePlatform rank measured state = .ok start →
    ∀ walk, (List.range level).foldlM (system.riseLevel rank) start = .ok walk →
      ∀ samples ∈ (system.receiveUp level rank (sendSample level rank walk)).1,
        system.TakesAlike (sendSample level rank walk) level rank samples

theorem walkUp_passes {measured : Nat → Measured} (passing : system.Passing first state)
    (known : rank < system.topology.numRank) (rises : system.RisesAlike state rank measured) :
    Outcome.Keeps (fun _ => True) (system.Passing first) (system.walkUp rank measured state) := by
  rw [walkUp]
  refine Outcome.keeps_bind (fun _ _ => trivial) fun start sampled => ?_
  have ascended := @samplePlatform_ascended system first state rank measured passing
  rw [sampled] at ascended
  have loop := @Outcome.keeps_range _ _ (fun _ => True) (fun level => system.Ascended first level rank)
    (system.riseLevel rank) (system.topology.numLevelCtl rank) start ascended
    fun level walk controls ran ascended =>
      riseLevel_ascended known controls ascended (rises level controls start sampled walk ran)
  refine loop.bind fun walk ascended => ?_
  by_cases root : system.topology.numLevelCtl rank = system.topology.rootLevel
  · simp only [root, if_true]
    exact ascended.passing
  · simp only [root, if_false]
    exact (sendSample_passes ascended).1

/-- What each walk has to respect while a total limit is sent to the leaves. -/
def Delivers (system : System) (first : ℚ) (state : State) : Action → Prop
  | .walkDown rank endpointPolicy _ => system.TakesInOrder first state rank endpointPolicy
  | .walkUp rank measured => system.RisesAlike state rank measured

/-- The controllers walk as they do, and each walk respects this. -/
def Admits (system : System) (first : ℚ) (reached : Except AgentError State) (action : Action) : Prop :=
  ∀ state, reached = .ok state → system.Permits state action ∧ system.Delivers first state action

/-- The root has completed the step that a total limit has started. -/
def HasSent (system : System) (state : State) : Prop :=
  (system.rootRole state).stepCount = 0 ∧ (system.rootRole state).isStepComplete = true ∧
    (system.rootRole state).policy.stepCount = .value 1

/-- Where the root has completed the step each package of each node has its part of the limit as its cap. -/
def CapsDelivered (system : System) (reached : Except AgentError State) : Prop :=
  ∀ state, reached = .ok state → system.topology.rootLevel ≠ 0 → system.HasSent state →
    ∃ total, (system.rootRole state).rootCap = .value total ∧
      ∀ rank < system.topology.numRank, (state.node rank).leaf.Capped total

theorem initial_passing (tree : system.topology.rootLevel ≠ 0) (fits : system.Fits first) :
    system.Passing first system.initial := by
  have plays : system.EachAgent RootRole.Sound system.initial := by
    intro level rank known controls
    simp only [initial]
    split
    · next isRoot => exact ⟨isRoot, .inl ⟨⟨rfl, rfl, rfl⟩, rfl⟩⟩
    · next inner => exact inner
  have root : system.rootRole system.initial = .new system.topology.numRank := by
    have top : system.topology.rootLevel - 1 + 1 = system.topology.rootLevel := Nat.succ_pred_eq_of_ne_zero tree
    simp only [rootRole, initial, top, if_true]
  have due : system.due first system.initial = first := by
    rw [System.due, root]
    rfl
  have early (level rank : Nat) : ((system.initial.node rank).agent level).stepCount ≤ 0 ∧
      ((system.initial.node rank).agent level).progress ≠ ⟨0, true⟩ ∧
      ¬(0 < ((system.initial.node rank).agent level).stepCount ∨
        ((system.initial.node rank).agent level).stepCount = 0 ∧
          ((system.initial.node rank).agent level).isStepComplete = true) := by
    simp only [initial]
    split <;> simp [Agent.stepCount, Agent.progress, Agent.isStepComplete, RootRole.new, TreeRole.new]
  refine ⟨plays, fun level rank isLink => ?_, due.symm ▸ fits, fun _ => ⟨fun level rank isLink => ?_, ?_⟩⟩
  · exact ⟨⟨fun _ => initial_isNew, fun _ => rfl⟩, fun policy sent => (by cases sent),
      fun _ some => absurd rfl some, fun _ past => absurd past (early level _).2.2⟩
  · exact ⟨fun policy sent => (by cases sent), fun _ => (early level _).1, fun sample held => (by cases held),
      fun complete => absurd complete (early level _).2.1⟩
  · intro rank known start
    cases start

theorem Passing.perform {action : Action} (passing : system.Passing first state)
    (tree : system.topology.rootLevel ≠ 0) (permits : system.Permits state action)
    (delivers : system.Delivers first state action) :
    Outcome.Keeps (fun _ => True) (system.Passing first) (system.perform state action) := by
  cases action with
  | walkDown rank endpointPolicy clock => exact walkDown_passes passing tree permits.1 delivers
  | walkUp rank measured => exact walkUp_passes passing permits.1 delivers

theorem run_passing {actions : List Action} (tree : system.topology.rootLevel ≠ 0) (fits : system.Fits first)
    (permitted : Transition.Permitted system.step (system.Admits first) (.ok system.initial) actions) :
    Outcome.Keeps (fun _ => True) (system.Passing first)
      (Transition.run system.step (.ok system.initial) actions) := by
  refine @Transition.invariant_run _ _ system.step (system.Admits first) _ actions
    (Outcome.Keeps (fun _ => True) (system.Passing first)) (fun reached action keeps admits => ?_)
    (initial_passing tree fits) permitted
  cases reached with
  | error reason => exact trivial
  | ok state =>
      obtain ⟨permits, delivers⟩ := admits state rfl
      exact Passing.perform keeps tree permits delivers

/-- Where the root has completed the first step so has every agent below it, level by level. -/
theorem Passing.all_complete (passing : system.Passing first state) (sent : system.HasSent state) (depth : Nat) :
    ∀ level rank, system.topology.IsLink level rank → level + depth + 1 = system.topology.rootLevel →
      (state.node rank).progress level = ⟨0, true⟩ := by
  have active : (system.rootRole state).Active := ⟨sent.1, fun _ => sent.2.2⟩
  have generation := passing.generation active
  induction depth with
  | zero =>
      intro level rank isLink top
      have isRoot : level + 1 = system.topology.rootLevel := top
      obtain ⟨parentKnown, parentControls⟩ := isLink.parent_known
      have parent := Topology.first_of_root parentKnown parentControls isRoot
      rw [parent] at parentKnown parentControls
      have plays := passing.agents level 0 parentKnown parentControls
      have link := generation.links level rank isLink
      rw [parent] at link
      refine link.complete ?_
      cases found : (state.node 0).agent level with
      | tree role =>
          rw [found] at plays
          exact absurd isRoot plays
      | root role =>
          have root := rootRole_eq isRoot found
          rw [HasSent, root] at sent
          rw [Agent.progress, Agent.stepCount, Agent.isStepComplete, sent.1, sent.2.1]
  | succ depth ih =>
      intro level rank isLink below
      obtain ⟨parentKnown, parentControls⟩ := isLink.parent_known
      have above := Topology.isLink_above parentKnown parentControls (by omega)
      exact (generation.links level rank isLink).complete (ih (level + 1) _ above (by omega))

/-- New caps reach every leaf before the root completes the step that the limit starts, in every run that is admitted. -/
theorem caps_delivered {actions : List Action} (fits : system.Fits first)
    (permitted : Transition.Permitted system.step (system.Admits first) (.ok system.initial) actions) :
    system.CapsDelivered (Transition.run system.step (.ok system.initial) actions) := by
  intro state ran tree sent
  have passing := run_passing tree fits permitted
  rw [ran] at passing
  have generation := passing.generation ⟨sent.1, fun _ => sent.2.2⟩
  have capped (rank : Nat) (known : rank < system.topology.numRank) :
      (state.node rank).leaf.Capped (system.due first state) := by
    have isLink : system.topology.IsLink 0 rank := ⟨known, Nat.pos_of_ne_zero tree, Nat.zero_le _⟩
    have complete := Passing.all_complete passing sent (system.topology.rootLevel - 1) 0 rank isLink (by omega)
    exact generation.leaves rank known (congrArg Progress.stepCount complete)
  obtain ⟨highest, top⟩ := Nat.exists_eq_succ_of_ne_zero tree
  have controls : highest < system.topology.numLevelCtl 0 := by
    rw [system.topology.root, top]
    omega
  have plays := passing.agents highest 0 system.topology.some_rank controls
  cases found : (state.node 0).agent highest with
  | tree role =>
      rw [found] at plays
      exact absurd top.symm plays
  | root role =>
      rw [found] at plays
      have root := rootRole_eq top.symm found
      rw [HasSent, root] at sent
      have runs : role.Runs := by
        refine plays.2.resolve_left fun isNew => ?_
        cases sent.2.2.symm.trans isNew.2
      obtain ⟨total, cap⟩ := runs.rootCap
      have due : system.due first state = total := by
        rw [System.due, root, cap]
      rw [due] at capped
      exact ⟨total, by rw [root, cap], capped⟩

instance (system : System) (state : State) : Decidable (system.HasSent state) := inferInstanceAs (Decidable (_ ∧ _ ∧ _))

instance (system : System) (total : ℚ) : Decidable (system.Fits total) := inferInstanceAs (Decidable (_ ∧ _))

instance (system : System) : ∀ limit : Number, Decidable (∃ total, limit = .value total ∧ system.Fits total)
  | .nan => isFalse fun fits => nomatch fits
  | .value total => decidable_of_iff (system.Fits total)
      ⟨fun fits => ⟨total, rfl, fits⟩, fun ⟨_, same, fits⟩ => Number.value.inj same ▸ fits⟩

instance (system : System) (state : State) : Decidable (system.NoneAtStart state) :=
  decidable_of_iff (∀ level < system.topology.rootLevel, ∀ rank < system.topology.numRank,
      level ≤ system.topology.numLevelCtl rank → ((state.node rank).progress level).stepCount ≠ 0 ∧
        ∀ sample ∈ (state.link level rank).sample, sample.stepCount ≠ .value 0)
    ⟨fun each level rank isLink => each level isLink.inside rank isLink.known isLink.takesPart,
      fun each level inside rank known takesPart => each level rank ⟨known, inside, takesPart⟩⟩

instance (system : System) (first : ℚ) (state : State) (limit : Number) :
    Decidable (system.MayAccept first state limit) :=
  decidable_of_iff (_ ∧ _ ∧ _)
    ⟨fun all => ⟨all.1, all.2.1, all.2.2⟩, fun may => ⟨may.fits, may.isFirst, may.changed⟩⟩

instance (system : System) (first : ℚ) (state : State) (rank : Nat) (inPolicy : Policy) :
    Decidable (system.KnowsLimit first state rank inPolicy) :=
  inferInstanceAs (Decidable (_ → ∀ valid, inPolicy.validate (system.settings rank) = .ok valid →
    valid.powerPackageLimitTotal = .value (system.due first state)))

instance (system : System) (first : ℚ) (state : State) (rank : Nat) (endpointPolicy : Policy) :
    Decidable (system.TakesInOrder first state rank endpointPolicy) :=
  inferInstanceAs (Decidable (if rank = 0 then
      if ((system.source endpointPolicy).read Policy.same (state.node 0).lastPolicy).1 = true then
        ∀ valid, (system.source endpointPolicy).policy.validate (system.settings 0) = .ok valid →
          valid.powerPackageLimitTotal.eq (system.rootRole state).rootCap = false →
            system.MayAccept first state valid.powerPackageLimitTotal
      else (system.rootRole state).rootCap = .nan → system.KnowsLimit first state 0 (system.source endpointPolicy).policy
    else (state.link (system.topology.numLevelCtl rank) rank).policy = none →
      system.KnowsLimit first state rank (state.node rank).inPolicy))

instance (system : System) (state : State) (level rank : Nat) (samples : List Sample) :
    Decidable (system.TakesAlike state level rank samples) :=
  inferInstanceAs (Decidable (_ → _ → _))

instance (system : System) (state : State) (rank : Nat) (measured : Nat → Measured) :
    Decidable (system.RisesAlike state rank measured) :=
  inferInstanceAs (Decidable (∀ level < system.topology.numLevelCtl rank, ∀ start,
    system.samplePlatform rank measured state = .ok start → ∀ walk,
      (List.range level).foldlM (system.riseLevel rank) start = .ok walk →
        ∀ samples ∈ (system.receiveUp level rank (sendSample level rank walk)).1,
          system.TakesAlike (sendSample level rank walk) level rank samples))

instance (system : System) (first : ℚ) (state : State) : ∀ action, Decidable (system.Delivers first state action)
  | .walkDown rank endpointPolicy _ => inferInstanceAs (Decidable (system.TakesInOrder first state rank endpointPolicy))
  | .walkUp rank measured => inferInstanceAs (Decidable (system.RisesAlike state rank measured))

instance (system : System) (first : ℚ) (reached : Except AgentError State) (action : Action) :
    Decidable (system.Admits first reached action) :=
  inferInstanceAs (Decidable (∀ _, _ → _ ∧ _))

/-- The nodes of a tree with the same packages, whose root reads an endpoint. -/
def withEndpoint (topology : Topology) : System where
  topology
  settings _ := ⟨50, 300, 200⟩
  numPackage _ := 1
  filePolicy := none

/-- The first limit is sent, then the root begins the next step, in which another limit arrives. -/
def newLimit : List Action :=
  [.walkDown 0 ⟨.value 150, .value 0, .value 0, .value 0⟩ fun _ => 0, .walkDown 1 .unset fun _ => 0, .walkUp 1 idle,
    .walkUp 0 idle, .walkDown 0 ⟨.value 150, .value 0, .value 1, .value 0⟩ fun _ => 0, .walkDown 1 .unset fun _ => 0,
    .walkUp 0 idle, .walkDown 0 ⟨.value 180, .value 0, .value 1, .value 0⟩ fun _ => 0, .walkUp 1 idle,
    .walkDown 1 .unset fun _ => 0, .walkUp 1 idle, .walkUp 0 idle]

/-- The node below the root begins without a policy, and the root counts the sample of that. -/
def tooEarly : List Action :=
  [.walkDown 1 .unset fun _ => 0, .walkUp 1 idle, .walkDown 0 ⟨.value 150, .value 0, .value 0, .value 0⟩ fun _ => 0,
    .walkUp 0 idle]

theorem caps_delivered_pair : (withEndpoint pair).CapsDelivered
    (Transition.run (withEndpoint pair).step (.ok (withEndpoint pair).initial) newLimit) :=
  @caps_delivered _ 150 _ (by decide +kernel) (by decide +kernel)

/-- The root completes the first step with a sample that is older than its limit. -/
theorem not_caps_delivered_pair :
    ¬∀ (system : System) (actions : List Action),
      Transition.Permitted system.step (fun reached action => ∀ state, reached = .ok state →
          system.Permits state action) (.ok system.initial) actions →
        system.CapsDelivered (Transition.run system.step (.ok system.initial) actions) := by
  intro all
  have delivered := all (withEndpoint pair) tooEarly (by decide +kernel)
  have completes : Outcome.failure (Transition.run (withEndpoint pair).step (.ok (withEndpoint pair).initial) tooEarly) =
      none := by decide +kernel
  have late : ∀ state, Transition.run (withEndpoint pair).step (.ok (withEndpoint pair).initial) tooEarly = .ok state →
      (withEndpoint pair).HasSent state ∧ ((withEndpoint pair).rootRole state).rootCap = .value 150 ∧
        (state.node 1).leaf.packages.map (fun package => package.powerBalancer.powerCap) = [.value 200] := by
    decide +kernel
  cases ran : Transition.run (withEndpoint pair).step (.ok (withEndpoint pair).initial) tooEarly with
  | error reason =>
      rw [ran] at completes
      cases completes
  | ok state =>
      obtain ⟨sent, cap, held⟩ := late state ran
      obtain ⟨total, same, capped⟩ := delivered state ran (by decide) sent
      cases cap.symm.trans same
      obtain ⟨package, only, powerCap⟩ := List.map_eq_singleton_iff.mp held
      have part := capped 1 (by decide) package (by rw [only]; exact List.mem_singleton_self package)
      rw [powerCap, only, List.length_singleton, Nat.cast_one, div_one] at part
      exact absurd part (by decide)

end System

end Balancer

end Geopm
