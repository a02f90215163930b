import Geopm.Balancer.Links

namespace Geopm

/-! The steps of the nodes of a tree whose total limit does not change. -/

namespace Balancer

namespace System

variable {system : System} {total : ℚ} {state next : State} {level rank : Nat} {node : Node} {agent : Agent}

/-- The root has had a policy. -/
def Started (system : System) (state : State) : Prop :=
  ∀ level, level + 1 = system.topology.rootLevel → ¬((state.node 0).agent level).IsNew

/-- The agents are those of a tree, and each of them follows its parent. -/
structure InStep (system : System) (total : ℚ) (state : State) : Prop where
  plays : system.EachAgent (Agent.Rooted total) state
  follows : system.EachLink (fun _ => Follows) state
  started : (state.node 0).walks ≠ 0 → system.Started state

/-- A node whose agents stay the same. -/
theorem InStep.setNode (inStep : system.InStep total state) (node : Node) (agents : node.agent = (state.node rank).agent)
    (leaf : system.topology.IsLink 0 rank →
      Follows (state.link 0 rank) ((state.node (system.topology.parent 0 rank)).agent 0) node.leaf.progress)
    (walks : rank = 0 → node.walks ≠ 0 → system.Started state) :
    system.InStep total (state.setNode rank node) where
  plays := inStep.plays.setNode agents
  follows := inStep.follows.setNode agents leaf
  started := by
    intro walked
    have started : system.Started state := by
      by_cases first : 0 = rank
      · rw [← first, State.setNode_node_self] at walked
        exact walks first.symm walked
      · rw [State.setNode_node_other first] at walked
        exact inStep.started walked
    rw [Started, agent_setNode agents]
    exact started

/-- A node of which one agent changes, and the links to its children. -/
theorem InStep.setAgent (inStep : system.InStep total state) (agent : Agent) (node : Node) (change : Link → Link)
    (known : rank < system.topology.numRank) (controls : level < system.topology.numLevelCtl rank)
    (leaf : node.leaf = (state.node rank).leaf) (walks : node.walks = (state.node rank).walks)
    (agents : node.agent = Function.update (state.node rank).agent level agent)
    (plays : agent.Plays (Agent.Rooted total) (level + 1 = system.topology.rootLevel))
    (stays : ¬((state.node rank).agent level).IsNew → ¬agent.IsNew)
    (children : ∀ other, system.topology.IsLink level other → system.topology.parent level other = rank →
      Follows (change (state.link level other)) agent ((state.node other).progress level))
    (child : level + 1 ≠ system.topology.rootLevel → Follows (state.link (level + 1) rank)
      ((state.node (system.topology.parent (level + 1) rank)).agent (level + 1)) agent.progress) :
    system.InStep total
      ((state.setNode rank node).setLinks level (system.topology.members level rank) change) where
  plays := inStep.plays.setAgent agents plays
  follows := inStep.follows.setAgent agents change known controls leaf children child
  started := by
    intro walked upper isRoot
    rw [State.setLinks_node] at walked ⊢
    have before : system.Started state := by
      apply inStep.started
      by_cases first : 0 = rank
      · rwa [first, State.setNode_node_self, walks, ← first] at walked
      · rwa [State.setNode_node_other first] at walked
    by_cases here : 0 = rank ∧ upper = level
    · rw [here.1, here.2, agent_changed agents]
      apply stays
      rw [← here.1, ← here.2]
      exact before upper isRoot
    · rw [agent_other agents here]
      exact before upper isRoot

/-- No other policy than that of its parent lets a leaf fail. -/
def Harmless (settings : PowerSettings) (leaf : LeafRole) (inPolicy : Policy) : Prop :=
  ∀ valid, inPolicy.validate settings = .ok valid → valid.powerPackageLimitTotal.eq (.value 0) = false ∨
    leaf.StartsWith valid

/-- The node has the policy that its parent in the level has sent, or one that does no harm. -/
structure Heard (system : System) (level rank : Nat) (state : State) : Prop where
  sent : ∀ policy, (state.link level rank).policy = some policy → (state.node rank).inPolicy = policy
  silent : (state.link level rank).policy = none →
    Harmless (system.settings rank) (state.node rank).leaf (state.node rank).inPolicy

/-- How far `walk_down` has come. -/
structure Walked (system : System) (total : ℚ) (level rank : Nat) (walk : Bool × State) : Prop where
  inStep : system.InStep total walk.2
  heard : system.Heard level rank walk.2
  sent : walk.1 = true → (walk.2.link level rank).policy ≠ none
  started : rank = 0 → system.Started walk.2

theorem receiveDown_walked (inStep : system.InStep total state)
    (silent : (state.link level rank).policy = none →
      Harmless (system.settings rank) (state.node rank).leaf (state.node rank).inPolicy)
    (started : rank = 0 → system.Started state) :
    system.Walked total level rank (state.receiveDown level rank) := by
  cases received : (state.link level rank).policy with
  | none =>
      rw [State.receiveDown, received]
      refine ⟨inStep, ⟨?_, silent⟩, fun sent => (by cases sent), started⟩
      intro policy sent
      rw [received] at sent
      cases sent
  | some policy =>
      rw [State.receiveDown, received]
      have kept := inStep.setNode { state.node rank with inPolicy := policy } rfl (inStep.follows 0 rank) (fun first walked => inStep.started (first ▸ walked))
      refine ⟨kept, ⟨?_, ?_⟩, fun _ => ?_, ?_⟩
      · intro other sent
        rw [State.setNode_link, received] at sent
        rw [State.setNode_node_self]
        exact Option.some.inj sent
      · intro none
        rw [State.setNode_link, received] at none
        cases none
      · rw [State.setNode_link, received]
        exact Option.some_ne_none policy
      · intro first upper isRoot
        subst first
        rw [State.setNode_node_self]
        exact started rfl upper isRoot

/-- A tree role that has not had a policy has a parent in the first step. -/
theorem InStep.announced_first {policy : Policy} (inStep : system.InStep total state)
    (known : rank < system.topology.numRank) (controls : level < system.topology.numLevelCtl rank)
    (inner : level + 1 ≠ system.topology.rootLevel) (sent : (state.link (level + 1) rank).policy = some policy)
    (silent : (state.link level rank).policy = none) : policy.stepCount = .value 0 := by
  have plays := inStep.plays level rank known controls
  have below := inStep.follows level rank (Topology.isLink_self known controls)
  have above := inStep.follows (level + 1) rank (Topology.isLink_above known controls inner)
  have isNew := below.silent.mp silent
  rw [system.topology.parent_self rank known level controls] at isNew
  have trails := above.trails_sent (by rw [sent]; exact Option.some_ne_none policy)
  have announces := above.sent policy sent
  have nonneg := announces.nonneg
  have step : ((state.node rank).agent level).stepCount = -1 := by
    cases role : (state.node rank).agent level with
    | tree role =>
        rw [role] at isNew
        exact isNew.1
    | root role =>
        rw [role] at plays
        exact absurd plays.1 inner
  have late := trails.step
  simp only [Node.progress, Agent.progress, step] at late
  have first : ((state.node (system.topology.parent (level + 1) rank)).agent (level + 1)).stepCount = 0 := by omega
  rw [announces.stepCount, first, Int.cast_zero]

/-- A policy of the parent is taken and sent on, or left as it is. -/
theorem splitPolicy_inner {policy : Policy} (inStep : system.InStep total state)
    (known : rank < system.topology.numRank) (controls : level < system.topology.numLevelCtl rank)
    (inner : level + 1 ≠ system.topology.rootLevel) (sent : (state.link (level + 1) rank).policy = some policy)
    (heard : (state.node rank).inPolicy = policy) (started : rank = 0 → system.Started state) :
    Outcome.Keeps (fun reason => ¬reason.IsStepError)
      (fun next => system.InStep total next ∧ (rank = 0 → system.Started next) ∧
        next.link (level + 1) = state.link (level + 1) ∧ (next.node rank).inPolicy.stepCount = policy.stepCount)
      (system.splitPolicy level rank state) := by
  have above := inStep.follows (level + 1) rank (Topology.isLink_above known controls inner)
  have trails := above.trails_sent (by rw [sent]; exact Option.some_ne_none policy)
  have announces := above.sent policy sent
  have plays := inStep.plays level rank known controls
  rw [Node.progress] at trails
  rw [splitPolicy, heard]
  refine Outcome.keeps_bind (fun reason refused => Policy.validate_error refused) fun valid accepted => ?_
  cases found : (state.node rank).agent level with
  | root role =>
      rw [found] at plays
      exact absurd plays.1 inner
  | tree role =>
      rw [found] at trails
      obtain ⟨result, descended, descends, ⟨next, isTree⟩, moved⟩ :=
        Agent.descend_tree (system.settings rank) (announces.validate accepted) trails
      have step : valid.stepCount = policy.stepCount := by
        rw [(announces.validate accepted).stepCount, announces.stepCount]
      rw [descended]
      obtain ⟨doSend, agent⟩ := result
      cases isTree
      have kept (node : Node) (agents : node.agent = Function.update (state.node rank).agent level (.tree next)) :
          rank = 0 → system.Started (state.setNode rank node) := by
        intro first upper isRoot
        rw [first, State.setNode_node_self, agents, Function.update_of_ne (by omega), first]
        exact started first upper isRoot
      cases doSend with
      | false =>
          have same : Function.update (state.node rank).agent level (.tree next) = (state.node rank).agent := by
            rw [show Agent.tree next = .tree role from descends, ← found, Function.update_eq_self]
          refine ⟨inStep.setNode _ same (inStep.follows 0 rank) fun first walked => inStep.started (first ▸ walked),
            kept _ rfl, rfl, ?_⟩
          rw [if_neg Bool.false_ne_true, State.setNode_node_self]
          exact step
      | true =>
          have sends : Agent.Sends (.tree role) (.tree next) := descends
          obtain ⟨other, reached⟩ := moved rfl
          have grown := trails.advance other (Agent.tree next).progress reached
          refine ⟨inStep.setAgent (.tree next) { state.node rank with
            inPolicy := valid, agent := Function.update (state.node rank).agent level (.tree next) }
            (fun link => { link with policy := some next.policy }) known controls rfl rfl rfl inner
            (fun _ => sends.known) ?_ fun _ => ?_, kept _ rfl, ?_, ?_⟩
          · intro child isLink parent
            have follows := inStep.follows level child isLink
            rw [parent, found] at follows
            exact follows.sendDown sends.announces sends.incomplete sends.known sends.first sends.other
          · rw [Node.progress, found] at above
            refine above.change ?_ grown.2.2
            rw [Link.heard, if_neg (by rw [sent]; exact Option.some_ne_none policy)]
            exact grown.1
          · funext other
            rw [if_pos rfl]
            exact State.setLinks_link_other fun same => absurd same (Nat.succ_ne_self level)
          · rw [if_pos rfl, State.setLinks_node, State.setNode_node_self]
            exact step

/-- The root sends its first policy, or what it has when its step is complete. -/
theorem splitPolicy_root (inStep : system.InStep total state) (isRoot : level + 1 = system.topology.rootLevel)
    (limit : ∀ valid, (state.node 0).inPolicy.validate (system.settings 0) = .ok valid →
      valid.powerPackageLimitTotal = .value total) :
    Outcome.Keeps (fun reason => ¬reason.IsStepError)
      (fun next => system.InStep total next ∧ system.Started next) (system.splitPolicy level 0 state) := by
  have controls : level < system.topology.numLevelCtl 0 := by
    rw [system.topology.root]
    omega
  have plays := inStep.plays level 0 system.topology.some_rank controls
  rw [splitPolicy]
  refine Outcome.keeps_bind (fun reason refused => Policy.validate_error refused) fun valid accepted => ?_
  cases found : (state.node 0).agent level with
  | tree role =>
      rw [found] at plays
      exact absurd isRoot plays
  | root role =>
      rw [found] at plays
      refine (Agent.descend_root plays.2 (limit valid accepted)).bind fun result descended => ?_
      obtain ⟨descends, next, isRootRole, holds⟩ := descended
      obtain ⟨doSend, agent⟩ := result
      cases isRootRole
      have known : ¬Agent.IsNew (.root next) := by
        intro isNew
        have none := isNew.1
        rw [holds.rootCap] at none
        cases none
      have kept (node : Node) (agents : node.agent = Function.update (state.node 0).agent level (.root next)) :
          system.Started (state.setNode 0 node) := by
        intro upper top
        obtain rfl : upper = level := by omega
        rw [State.setNode_node_self, agents, Function.update_self]
        exact known
      cases doSend with
      | false =>
          have same : Function.update (state.node 0).agent level (.root next) = (state.node 0).agent := by
            rw [show Agent.root next = .root role from descends, ← found, Function.update_eq_self]
          exact ⟨inStep.setNode _ same (inStep.follows 0 0) fun _ => inStep.started, kept _ rfl⟩
      | true =>
          have sends : Agent.Sends (.root role) (.root next) := descends
          refine ⟨inStep.setAgent (.root next) { state.node 0 with
            inPolicy := valid, agent := Function.update (state.node 0).agent level (.root next) }
            (fun link => { link with policy := some next.policy }) system.topology.some_rank controls rfl rfl rfl
            ⟨isRoot, .inr holds⟩ (fun _ => known) ?_ fun inner => absurd isRoot inner, kept _ rfl⟩
          intro child isLink parent
          have follows := inStep.follows level child isLink
          rw [parent, found] at follows
          exact follows.sendDown sends.announces sends.incomplete sends.known sends.first sends.other

/-- One round of the loop of `walk_down` below the root. -/
theorem walkLevel_inner {walk : Bool × State} (known : rank < system.topology.numRank)
    (controls : level < system.topology.numLevelCtl rank) (inner : level + 1 ≠ system.topology.rootLevel)
    (walked : system.Walked total (level + 1) rank walk) :
    Outcome.Keeps (fun reason => ¬reason.IsStepError) (system.Walked total level rank)
      (system.walkLevel rank walk level) := by
  obtain ⟨doSend, state⟩ := walk
  have silent {next : State} (inStep : system.InStep total next)
      (link : next.link (level + 1) = state.link (level + 1)) (policy : Policy)
      (sent : (state.link (level + 1) rank).policy = some policy)
      (step : (next.node rank).inPolicy.stepCount = policy.stepCount)
      (none : (next.link level rank).policy = none) :
      Harmless (system.settings rank) (next.node rank).leaf (next.node rank).inPolicy := by
    intro valid accepted
    have first := inStep.announced_first known controls inner (link ▸ sent) none
    refine .inr (.inl ?_)
    rw [← Int.cast_zero] at first ⊢
    exact Policy.validate_stepCount accepted (step.trans first)
  rw [walkLevel]
  cases doSend with
  | true =>
      cases sent : (state.link (level + 1) rank).policy with
      | none => exact absurd sent (walked.sent rfl)
      | some policy =>
          have split := splitPolicy_inner walked.inStep known controls inner sent (walked.heard.sent policy sent)
            walked.started
          refine split.bind fun next after => ?_
          obtain ⟨inStep, started, link, step⟩ := after
          exact receiveDown_walked inStep (silent inStep link policy sent step) started
  | false =>
      refine receiveDown_walked walked.inStep (fun none => ?_) walked.started
      cases sent : (state.link (level + 1) rank).policy with
      | none => exact walked.heard.silent sent
      | some policy =>
          exact silent walked.inStep rfl policy sent (by rw [walked.heard.sent policy sent]) none

/-- The first round of the loop at the root. -/
theorem walkLevel_root {walk : Bool × State} (isRoot : level + 1 = system.topology.rootLevel)
    (inStep : system.InStep total walk.2) (holds : walk.1 = true ∨ system.Started walk.2)
    (limit : ∀ valid, (walk.2.node 0).inPolicy.validate (system.settings 0) = .ok valid →
      valid.powerPackageLimitTotal = .value total) :
    Outcome.Keeps (fun reason => ¬reason.IsStepError) (system.Walked total level 0)
      (system.walkLevel 0 walk level) := by
  obtain ⟨doSend, state⟩ := walk
  have controls : level < system.topology.numLevelCtl 0 := by
    rw [system.topology.root]
    omega
  have received {next : State} (inStep : system.InStep total next) (started : system.Started next) :
      system.Walked total level 0 (next.receiveDown level 0) := by
    refine receiveDown_walked inStep (fun none => ?_) fun _ => started
    have below := inStep.follows level 0 (Topology.isLink_self system.topology.some_rank controls)
    have isNew := below.silent.mp none
    rw [system.topology.parent_self 0 system.topology.some_rank level controls] at isNew
    exact absurd isNew (started level isRoot)
  rw [walkLevel]
  cases doSend with
  | true =>
      exact (splitPolicy_root inStep isRoot limit).bind fun next after => received after.1 after.2
  | false => exact received inStep (holds.resolve_left Bool.false_ne_true)

/-- The end of `walk_down`. -/
theorem adjustPlatform_inStep {walk : Bool × State} {clock : Nat → ℚ} (tree : system.topology.rootLevel ≠ 0)
    (known : rank < system.topology.numRank) (walked : system.Walked total 0 rank walk) :
    Outcome.Keeps (fun reason => ¬reason.IsStepError) (system.InStep total)
      (system.adjustPlatform rank clock walk.2) := by
  have isLink : system.topology.IsLink 0 rank := ⟨known, Nat.pos_of_ne_zero tree, Nat.zero_le _⟩
  have follows := walked.inStep.follows 0 rank isLink
  have many : system.isSingleNode = false := decide_eq_false tree
  rw [adjustPlatform]
  refine Outcome.keeps_bind (fun reason refused => Policy.validate_error refused) fun valid accepted => ?_
  have taken := LeafRole.takePolicy_follows (system.settings rank)
    { (walk.2.node rank).leaf with policy := valid } follows.trails ?_ ?_
  · obtain ⟨entered, entersStep, trails, more⟩ := taken
    have adjusted := LeafRole.adjustPlatform_progress false system.topology.numRank clock entersStep
    obtain ⟨adjusts, leaf, adjusted, same, _⟩ := adjusted
    rw [many, adjusted]
    refine walked.inStep.setNode _ rfl (fun _ => ?_) fun first _ => walked.started first
    change Follows _ _ leaf.progress
    rw [same]
    exact follows.change trails more
  · intro limit
    rw [Link.heard]
    cases sent : (walk.2.link 0 rank).policy with
    | none => rfl
    | some policy =>
        have announces := follows.sent policy sent
        have nonneg := announces.nonneg
        rw [walked.heard.sent policy sent] at accepted
        rw [if_neg (Option.some_ne_none policy)]
        by_contra later
        have zero := (announces.validate accepted).limit (lt_of_le_of_ne nonneg (Ne.symm later))
        simp [zero] at limit
  · intro limit
    rw [Link.heard]
    cases sent : (walk.2.link 0 rank).policy with
    | none =>
        have harmless := walked.heard.silent sent valid accepted
        rw [limit] at harmless
        cases harmless.resolve_left Bool.true_eq_false.mp with
        | inl first =>
            left
            simpa using first
        | inr same => exact .inr same
    | some policy =>
        rw [walked.heard.sent policy sent] at accepted
        rw [if_neg (Option.some_ne_none policy)]
        exact .inl ((follows.sent policy sent).validate accepted).stepCount

/-- The root has a policy from its first walk down, and its total limit is always the same. -/
structure HoldsPolicy (system : System) (total : ℚ) (state : State) (endpointPolicy : Policy) : Prop where
  first : (state.node 0).walks = 0 →
    ((system.source endpointPolicy).read Policy.same (state.node 0).lastPolicy).1 = true
  limit : ∀ valid, (system.source endpointPolicy).policy.validate (system.settings 0) = .ok valid →
    valid.powerPackageLimitTotal = .value total

/-- A node of the tree that has not heard of its parent does no harm. -/
def WaitsInOrder (system : System) (state : State) (rank : Nat) : Prop :=
  rank ≠ 0 → (state.link (system.topology.numLevelCtl rank) rank).policy = none →
    Harmless (system.settings rank) (state.node rank).leaf (state.node rank).inPolicy

theorem walkDown_inStep {endpointPolicy : Policy} {clock : Nat → ℚ} (inStep : system.InStep total state)
    (tree : system.topology.rootLevel ≠ 0) (known : rank < system.topology.numRank)
    (root : rank = 0 → system.HoldsPolicy total state endpointPolicy) (waits : system.WaitsInOrder state rank) :
    Outcome.Keeps (fun reason => ¬reason.IsStepError) (system.InStep total)
      (system.walkDown rank endpointPolicy clock state) := by
  have below {walk : Bool × State} {level : Nat} (controlled : level ≤ system.topology.numLevelCtl rank)
      (inside : level < system.topology.rootLevel) (walked : system.Walked total level rank walk) :
      Outcome.Keeps (fun reason => ¬reason.IsStepError) (system.Walked total 0 rank)
        ((List.range level).reverse.foldlM (system.walkLevel rank) walk) := by
    exact @Outcome.keeps_range_reverse _ _ _ (fun level => system.Walked total level rank) _ _ _ walked
      fun index walk under walked => walkLevel_inner known (by omega) (by omega) walked
  rw [walkDown]
  refine Outcome.Keeps.bind ?_ fun walk walked => adjustPlatform_inStep tree known walked
  by_cases first : rank = 0
  case neg =>
      have inside := system.topology.below rank known first
      refine below (Nat.le_refl _) inside ?_
      rw [startWalk, if_neg (Nat.ne_of_lt inside)]
      exact receiveDown_walked inStep (waits first) fun isFirst => absurd isFirst first
  case pos =>
      subst first
      obtain ⟨highest, top⟩ := Nat.exists_eq_succ_of_ne_zero tree
      have holds := root rfl
      rw [startWalk, if_pos system.topology.root, system.topology.root, top, List.range_succ, List.reverse_append,
        List.reverse_singleton, List.singleton_append, List.foldlM_cons]
      refine (walkLevel_root top.symm ?_ ?_ ?_).bind fun walk walked =>
        below (by rw [system.topology.root, top]; omega) (by omega) walked
      · exact inStep.setNode _ rfl (inStep.follows 0 0) fun _ => inStep.started
      · by_cases walks : (state.node 0).walks = 0
        · exact .inl (holds.first walks)
        · right
          have started := inStep.started walks
          intro upper isRoot
          rw [State.setNode_node_self]
          exact started upper isRoot
      · intro valid accepted
        rw [State.setNode_node_self] at accepted
        exact holds.limit valid accepted

theorem InStep.setLinks (inStep : system.InStep total state) {ranks : List Nat} (change : Link → Link)
    (kept : ∀ other, other ∈ ranks → system.topology.IsLink level other →
      Follows (change (state.link level other)) ((state.node (system.topology.parent level other)).agent level)
        ((state.node other).progress level)) :
    system.InStep total (state.setLinks level ranks change) where
  plays := inStep.plays
  follows := inStep.follows.setLinks change kept
  started := inStep.started

/-- How far `walk_up` has come: a sample that is sent reports a step that is complete. -/
structure Risen (system : System) (total : ℚ) (level rank : Nat) (walk : Option Sample × State) : Prop where
  inStep : system.InStep total walk.2
  carried : ∀ sample, walk.1 = some sample →
    ∃ count : Int, sample.stepCount = .value count ∧ ((walk.2.node rank).progress level).Completed count
  walks : rank = 0 → (walk.2.node 0).walks ≠ 0

theorem sendSample_inStep {walk : Option Sample × State} (risen : system.Risen total level rank walk) :
    system.InStep total (sendSample level rank walk) ∧ (sendSample level rank walk).node = walk.2.node := by
  obtain ⟨carried, state⟩ := walk
  cases carried with
  | none => exact ⟨risen.inStep, rfl⟩
  | some sample =>
      obtain ⟨count, step, completed⟩ := risen.carried sample rfl
      refine ⟨risen.inStep.setLinks (fun link => { link with sample := some sample }) fun other member isLink => ?_, rfl⟩
      obtain rfl := List.mem_singleton.mp member
      exact (risen.inStep.follows level other isLink).sendUp step completed

/-- The start of `walk_up`. -/
theorem samplePlatform_risen {measured : Nat → Measured} (inStep : system.InStep total state)
    (walked : rank = 0 → (state.node 0).walks ≠ 0) :
    Outcome.Keeps (fun reason => ¬reason.IsStepError) (system.Risen total 0 rank)
      (system.samplePlatform rank measured state) := by
  rw [samplePlatform]
  refine (LeafRole.samplePlatform_follows _ _ _ _).bind fun result sampled => ?_
  obtain ⟨doSend, outSample, leaf⟩ := result
  obtain ⟨step, same, complete, stays⟩ := sampled
  have more (above : Progress) (trails : above.Trails (state.node rank).leaf.progress) :=
    trails.finish leaf.progress same fun done => complete.symm.trans (stays done)
  refine ⟨inStep.setNode _ rfl (fun isLink => ?_) fun first _ => inStep.started (walked first), ?_, ?_⟩
  · have follows := inStep.follows 0 rank isLink
    have grown := more _ follows.trails
    exact follows.change grown.1 grown.2
  · intro sample carried
    cases doSend with
    | false => cases carried
    | true =>
        cases carried
        refine ⟨leaf.stepCount, by rw [step, same], ?_⟩
        rw [State.setNode_node_self]
        exact .inr ⟨rfl, complete.symm⟩
  · intro first
    subst first
    rw [State.setNode_node_self]
    exact Nat.succ_ne_zero _

/-- Samples that together report the step of the parent come from children that have completed it. -/
theorem InStep.reported {samples : List Sample} (inStep : system.InStep total state)
    (known : rank < system.topology.numRank) (controls : level < system.topology.numLevelCtl rank)
    (notNew : ¬((state.node rank).agent level).IsNew)
    (received : (system.topology.members level rank).mapM (fun child => (state.link level child).sample) = some samples)
    (least : (Sample.aggregate samples).stepCount = .value ((state.node rank).agent level).stepCount) {other : Nat}
    (isLink : system.topology.IsLink level other) (parent : system.topology.parent level other = rank) :
    ((state.node other).progress level).Completed ((state.node rank).agent level).stepCount := by
  have follows := inStep.follows level other isLink
  have trails := follows.trails_sent (mt follows.silent.mp (parent ▸ notNew))
  obtain ⟨sample, inside, same⟩ := sample_received known controls received isLink parent
  obtain ⟨count, step, completed⟩ := follows.sample sample same
  have lower : (((state.node rank).agent level).stepCount : ℚ) ≤ count :=
    Agg.min_le least (step ▸ List.mem_map_of_mem inside)
  have upper := completed.le
  have behind := trails.behind
  rw [parent] at behind
  simp only [Agent.progress] at behind
  have same : ((state.node rank).agent level).stepCount = count := by
    have order := Int.cast_le.mp lower
    omega
  rw [same]
  exact completed

theorem InStep.ascend (samples : List Sample) (inStep : system.InStep total state)
    (known : rank < system.topology.numRank) (controls : level < system.topology.numLevelCtl rank)
    (walks : rank = 0 → (state.node 0).walks ≠ 0) :
    ∃ result, ((state.node rank).agent level).ascend samples = .ok result ∧
      ((state.node rank).agent level).Ascends samples result ∧
      result.2.2.Plays (Agent.Rooted total) (level + 1 = system.topology.rootLevel) := by
  have plays := inStep.plays level rank known controls
  cases found : (state.node rank).agent level with
  | tree role =>
      rw [found] at plays
      obtain ⟨result, ascended, ascends, next, isTree⟩ := Agent.ascend_tree role samples
      refine ⟨result, ascended, ascends, ?_⟩
      rw [isTree]
      exact plays
  | root role =>
      rw [found] at plays
      obtain ⟨isRoot, plays⟩ := plays
      have first := Topology.first_of_root known controls isRoot
      have started := inStep.started (walks first) level isRoot
      rw [← first, found] at started
      obtain ⟨result, ascended, ascends, next, isRootRole, holds⟩ :=
        Agent.ascend_root (plays.resolve_left started) samples
      refine ⟨result, ascended, ascends, ?_⟩
      rw [isRootRole]
      exact ⟨isRoot, .inr holds⟩

/-- An agent that is in a step is not new, also when it completes it. -/
theorem InStep.finishes_known (inStep : system.InStep total state)
    (known : rank < system.topology.numRank) (controls : level < system.topology.numLevelCtl rank)
    (walks : rank = 0 → (state.node 0).walks ≠ 0) (finishes : ((state.node rank).agent level).Finishes agent) :
    ¬((state.node rank).agent level).IsNew ∧ ¬agent.IsNew := by
  have plays := inStep.plays level rank known controls
  have notNew : ¬((state.node rank).agent level).IsNew := by
    intro isNew
    have incomplete := finishes.incomplete
    cases found : (state.node rank).agent level with
    | tree role =>
        rw [found] at isNew incomplete
        exact Bool.false_ne_true (incomplete.symm.trans isNew.2)
    | root role =>
        rw [found] at plays
        have first := Topology.first_of_root known controls plays.1
        exact inStep.started (walks first) level plays.1 (first ▸ isNew)
  refine ⟨notNew, fun isNew => ?_⟩
  have self := inStep.follows level rank (Topology.isLink_self known controls)
  rw [system.topology.parent_self rank known level controls] at self
  cases sent : (state.link level rank).policy with
  | none => exact notNew (self.silent.mp sent)
  | some policy =>
      have nonneg := (self.sent policy sent).nonneg
      have step := finishes.stepCount
      cases agent with
      | tree next =>
          have start : next.stepCount = -1 := isNew.1
          simp only [Agent.stepCount] at step nonneg
          omega
      | root next => exact Bool.false_ne_true (isNew.2.2.symm.trans finishes.complete)

/-- What an agent does with the samples of all its children. -/
theorem aggregateSample_risen {samples : List Sample} (inStep : system.InStep total state)
    (known : rank < system.topology.numRank) (controls : level < system.topology.numLevelCtl rank)
    (walks : rank = 0 → (state.node 0).walks ≠ 0)
    (received : (system.topology.members level rank).mapM (fun child => (state.link level child).sample) = some samples) :
    Outcome.Keeps (fun reason => ¬reason.IsStepError) (system.Risen total (level + 1) rank)
      (aggregateSample level rank samples (state.setLinks level (system.topology.members level rank)
        fun link => { link with sample := none })) := by
  obtain ⟨result, ascended, ascends, plays⟩ := inStep.ascend samples known controls walks
  rw [aggregateSample, State.setLinks_node, ascended]
  obtain ⟨doSend, outSample, agent⟩ := result
  have walksNext (node : Node) (same : node.walks = (state.node rank).walks) :
      rank = 0 → ((state.setNode rank node).node 0).walks ≠ 0 := by
    intro first
    have walked := walks first
    subst first
    rw [State.setNode_node_self, same]
    exact walked
  cases doSend with
  | false =>
      have same : Function.update (state.node rank).agent level agent = (state.node rank).agent := by
        rw [show agent = (state.node rank).agent level from ascends, Function.update_eq_self]
      have taken : system.InStep total (state.setLinks level (system.topology.members level rank)
          fun link => { link with sample := none }) :=
        inStep.setLinks _ fun other _ isLink => (inStep.follows level other isLink).receiveUp
      exact ⟨taken.setNode _ same (taken.follows 0 rank) fun first walked => taken.started (first ▸ walked),
        fun sample carried => (by cases carried), walksNext _ rfl⟩
  | true =>
      obtain ⟨step, aggregated, finishes⟩ : outSample.stepCount = .value ((state.node rank).agent level).stepCount ∧
        outSample = Sample.aggregate samples ∧ ((state.node rank).agent level).Finishes agent := ascends
      obtain ⟨notNew, nextKnown⟩ := inStep.finishes_known known controls walks finishes
      rw [aggregated] at step
      have next := inStep.setAgent agent { state.node rank with
        agent := Function.update (state.node rank).agent level agent }
        (fun link => { link with sample := none }) known controls rfl rfl rfl plays (fun _ => nextKnown) ?_ ?_
      · refine ⟨next, fun sample carried => ?_, walksNext _ rfl⟩
        cases carried
        refine ⟨((state.node rank).agent level).stepCount, aggregated ▸ step, ?_⟩
        right
        change _ = (((state.setNode rank _).node rank).agent level).stepCount ∧
          (((state.setNode rank _).node rank).agent level).isStepComplete = true
        rw [State.setNode_node_self]
        simp only [Function.update_self]
        exact ⟨finishes.stepCount.symm, finishes.complete⟩
      · intro other isLink parent
        have completed := inStep.reported known controls notNew received step isLink parent
        have follows := inStep.follows level other isLink
        rw [parent] at follows
        exact (follows.complete notNew nextKnown finishes.stepCount completed).receiveUp
      · intro inner
        have above := inStep.follows (level + 1) rank (Topology.isLink_above known controls inner)
        have grown := above.trails.finish agent.progress finishes.stepCount fun _ => finishes.complete
        exact above.change grown.1 grown.2

/-- One round of the loop of `walk_up`. -/
theorem riseLevel_risen {walk : Option Sample × State} (known : rank < system.topology.numRank)
    (controls : level < system.topology.numLevelCtl rank) (risen : system.Risen total level rank walk) :
    Outcome.Keeps (fun reason => ¬reason.IsStepError) (system.Risen total (level + 1) rank)
      (system.riseLevel rank walk level) := by
  obtain ⟨inStep, nodes⟩ := sendSample_inStep risen
  have walks := risen.walks
  rw [riseLevel, receiveUp]
  generalize sendSample level rank walk = state at inStep nodes ⊢
  rw [← nodes] at walks
  have taken : system.InStep total (state.setLinks level (system.topology.members level rank)
      fun link => { link with sample := none }) :=
    inStep.setLinks _ fun other _ isLink => (inStep.follows level other isLink).receiveUp
  cases received : (system.topology.members level rank).mapM fun child => (state.link level child).sample with
  | none => exact ⟨inStep, fun sample carried => (by cases carried), walks⟩
  | some samples =>
      by_cases nan : samples.any Sample.hasNan
      case pos =>
          simp only [nan, if_true]
          exact ⟨taken, fun sample carried => (by cases carried), walks⟩
      case neg =>
          simp only [nan, Bool.false_eq_true, if_false]
          exact aggregateSample_risen inStep known controls walks received

theorem walkUp_inStep {measured : Nat → Measured} (inStep : system.InStep total state)
    (known : rank < system.topology.numRank) (walked : rank = 0 → (state.node 0).walks ≠ 0) :
    Outcome.Keeps (fun reason => ¬reason.IsStepError) (system.InStep total)
      (system.walkUp rank measured state) := by
  rw [walkUp]
  refine (samplePlatform_risen inStep walked).bind fun start risen => ?_
  have loop := @Outcome.keeps_range _ _ (fun reason => ¬AgentError.IsStepError reason)
    (fun level => system.Risen total level rank) (system.riseLevel rank) (system.topology.numLevelCtl rank) start risen
    fun level walk controls _ risen => riseLevel_risen known controls risen
  refine loop.bind fun walk risen => ?_
  by_cases root : system.topology.numLevelCtl rank = system.topology.rootLevel
  · simp only [root, if_true]
    exact risen.inStep
  · simp only [root, if_false]
    exact (sendSample_inStep risen).1

end System

end Balancer

end Geopm
