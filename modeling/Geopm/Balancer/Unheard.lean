import Geopm.Balancer.BudgetLeaf

namespace Geopm

/-! The policy of a node that has yet to hear of its parent. -/

namespace Balancer

theorem Agent.IsNew.early {agent : Agent} (isNew : agent.IsNew) : agent.stepCount ≤ 0 := by
  cases agent with
  | tree role =>
      rw [Agent.stepCount, isNew.1]
      decide
  | root role => exact Int.le_of_eq isNew.2.1

namespace System

variable (system : System) (total : ℚ)

/-- While the parent of a node is in no later step than the first, the node has the total limit in its policy. -/
def Hears (level rank : Nat) (state : State) : Prop :=
  ((state.node (system.topology.parent level rank)).agent level).stepCount ≤ 0 →
    (state.node rank).inPolicy.powerPackageLimitTotal = .value total

/-- A node that its parent has sent no policy has the total limit in its policy. -/
def Unheard (state : State) : Prop :=
  ∀ rank < system.topology.numRank, rank ≠ 0 →
    (state.link (system.topology.numLevelCtl rank) rank).policy = none →
      (state.node rank).inPolicy.powerPackageLimitTotal = .value total

/-- A walk down of a node changes no other node, and takes back no policy. -/
structure Spreads (rank : Nat) (state next : State) : Prop where
  others : ∀ other, other ≠ rank → next.node other = state.node other
  silent : ∀ level other, (next.link level other).policy = none → (state.link level other).policy = none

variable {system total} {state next : State} {level rank : Nat} {node : Node}

theorem Spreads.refl : Spreads rank state state := ⟨fun _ _ => rfl, fun _ _ => id⟩

theorem Spreads.setNode {start : State} (spreads : Spreads rank start state) :
    Spreads rank start (state.setNode rank node) where
  others := by
    intro other differs
    rw [State.setNode_node_other differs]
    exact spreads.others other differs
  silent := spreads.silent

theorem Spreads.setLinks {start : State} {ranks : List Nat} {policy : Policy} (spreads : Spreads rank start state) :
    Spreads rank start (state.setLinks level ranks fun link => { link with policy := some policy }) where
  others := spreads.others
  silent := by
    intro upper other none
    refine spreads.silent upper other ?_
    by_cases member : upper = level ∧ other ∈ ranks
    · obtain ⟨rfl, member⟩ := member
      rw [State.setLinks_link_member member] at none
      cases none
    · rwa [State.setLinks_link_other fun same inside => member ⟨same, inside⟩] at none

theorem Spreads.receiveDown {start : State} (spreads : Spreads rank start state) :
    Spreads rank start (state.receiveDown level rank).2 := by
  rw [State.receiveDown]
  cases (state.link level rank).policy with
  | none => exact spreads
  | some policy => exact spreads.setNode

theorem splitPolicy_spreads {start : State} (spreads : Spreads rank start state) :
    Outcome.Keeps (fun _ => True) (Spreads rank start) (system.splitPolicy level rank state) := by
  rw [splitPolicy]
  refine Outcome.keeps_bind (fun _ _ => trivial) fun inPolicy _ => ?_
  refine Outcome.keeps_bind (fun _ _ => trivial) fun result _ => ?_
  obtain ⟨doSend, agent⟩ := result
  cases doSend with
  | false => exact spreads.setNode
  | true => exact spreads.setNode.setLinks

theorem walkLevel_spreads {start : State} {walk : Bool × State} (spreads : Spreads rank start walk.2) :
    Outcome.Keeps (fun _ => True) (fun walk => Spreads rank start walk.2) (system.walkLevel rank walk level) := by
  obtain ⟨doSend, state⟩ := walk
  rw [walkLevel]
  cases doSend with
  | false => exact spreads.receiveDown
  | true => exact (splitPolicy_spreads spreads).bind fun next spreads => spreads.receiveDown

/-- The loop of `walk_down`. -/
theorem walkLevels_spreads {endpointPolicy : Policy} :
    Outcome.Keeps (fun _ => True) (fun walk => Spreads rank state walk.2)
      ((List.range (system.topology.numLevelCtl rank)).reverse.foldlM (system.walkLevel rank)
        (system.startWalk rank endpointPolicy state)) := by
  have start : Spreads rank state (system.startWalk rank endpointPolicy state).2 := by
    rw [startWalk]
    split
    · exact Spreads.refl.setNode
    · exact Spreads.refl.receiveDown
  exact Outcome.keeps_foldlM (fun walk level spreads => walkLevel_spreads spreads) start

theorem Unheard.spread {start : State} (unheard : system.Unheard total start) (spreads : Spreads rank start next)
    (self : rank ≠ 0 → (next.link (system.topology.numLevelCtl rank) rank).policy = none →
      (next.node rank).inPolicy.powerPackageLimitTotal = .value total) : system.Unheard total next := by
  intro other known notFirst none
  by_cases same : other = rank
  · subst same
    exact self notFirst none
  · rw [spreads.others other same]
    exact unheard other known notFirst (spreads.silent _ other none)

/-- Under a parent that has sent nothing no agent of the node is in a later step than the first. -/
theorem InStep.low (inStep : system.InStep total state) (known : rank < system.topology.numRank) (notFirst : rank ≠ 0)
    (silent : (state.link (system.topology.numLevelCtl rank) rank).policy = none) (depth : Nat) :
    ∀ level, level + depth = system.topology.numLevelCtl rank →
      ((state.node (system.topology.parent level rank)).agent level).stepCount ≤ 0 := by
  have inside := system.topology.below rank known notFirst
  induction depth with
  | zero =>
      intro level top
      have top : level = system.topology.numLevelCtl rank := top
      subst top
      exact ((inStep.follows _ rank ⟨known, inside, Nat.le_refl _⟩).silent.mp silent).early
  | succ depth ih =>
      intro level below
      have controls : level < system.topology.numLevelCtl rank := by omega
      have behind := (inStep.follows (level + 1) rank (Topology.isLink_above known controls (by omega))).trails.behind
      have above := ih (level + 1) (by omega)
      rw [system.topology.parent_self rank known level controls]
      refine behind.trans ?_
      rw [Link.heard]
      split
      · exact Int.le_refl 0
      · exact above

theorem Hears.unheard (hears : system.Hears total 0 rank state) (inStep : system.InStep total state)
    (known : rank < system.topology.numRank) (notFirst : rank ≠ 0)
    (silent : (state.link (system.topology.numLevelCtl rank) rank).policy = none) :
    (state.node rank).inPolicy.powerPackageLimitTotal = .value total :=
  hears (inStep.low known notFirst silent (system.topology.numLevelCtl rank) 0 (Nat.zero_add _))

/-- A policy that is received of a parent in the first step has the total limit. -/
theorem receiveDown_hears (inStep : system.InStep total state) (budget : system.Budget total state)
    (isLink : system.topology.IsLink level rank)
    (silent : (state.link level rank).policy = none →
      (state.node rank).inPolicy.powerPackageLimitTotal = .value total) :
    system.Hears total level rank (state.receiveDown level rank).2 := by
  rw [State.receiveDown]
  cases received : (state.link level rank).policy with
  | none => exact fun _ => silent received
  | some policy =>
      intro early
      have agents := @agent_setNode state rank { state.node rank with inPolicy := policy } rfl
        (system.topology.parent level rank)
      simp only [agents] at early
      rw [State.setNode_node_self]
      have nonneg := ((inStep.follows level rank isLink).sent policy received).nonneg
      exact budget.gives level rank isLink (Int.le_antisymm early nonneg) policy received

/-- A tree role that has not had a policy has a parent in no later step than the first. -/
theorem InStep.parent_early (inStep : system.InStep total state) (known : rank < system.topology.numRank)
    (controls : level < system.topology.numLevelCtl rank) (inner : level + 1 ≠ system.topology.rootLevel)
    (silent : (state.link level rank).policy = none) :
    ((state.node (system.topology.parent (level + 1) rank)).agent (level + 1)).stepCount ≤ 0 := by
  have above := inStep.follows (level + 1) rank (Topology.isLink_above known controls inner)
  cases sent : (state.link (level + 1) rank).policy with
  | none => exact (above.silent.mp sent).early
  | some policy =>
      have first := inStep.announced_first known controls inner sent silent
      have step := Number.value.inj ((above.sent policy sent).stepCount.symm.trans first)
      exact Int.le_of_eq (by exact_mod_cast step)

/-- How far `walk_down` has come. -/
structure Handed (system : System) (total : ℚ) (level rank : Nat) (walk : Bool × State) : Prop where
  walked : system.Walked total level rank walk
  budget : system.Budget total walk.2
  hears : system.Hears total level rank walk.2

theorem Budget.receiveDown (budget : system.Budget total state) : system.Budget total (state.receiveDown level rank).2 := by
  rw [State.receiveDown]
  cases (state.link level rank).policy with
  | none => exact budget
  | some policy => exact budget.setNode rfl rfl rfl

/-- One round of the loop of `walk_down` below the root. -/
theorem walkLevel_handed {walk : Bool × State} (affords : system.Affords total)
    (known : rank < system.topology.numRank) (controls : level < system.topology.numLevelCtl rank)
    (inner : level + 1 ≠ system.topology.rootLevel) (handed : system.Handed total (level + 1) rank walk) :
    Outcome.Keeps (fun reason => ¬reason.IsStepError) (system.Handed total level rank)
      (system.walkLevel rank walk level) := by
  have walked := walkLevel_inner known controls inner handed.walked
  have isLink := Topology.isLink_self known controls
  obtain ⟨doSend, state⟩ := walk
  rw [walkLevel] at walked ⊢
  cases doSend with
  | false =>
      refine ⟨walked, handed.budget.receiveDown, ?_⟩
      exact receiveDown_hears handed.walked.inStep handed.budget isLink fun none =>
        handed.hears (handed.walked.inStep.parent_early known controls inner none)
  | true =>
      cases sent : (state.link (level + 1) rank).policy with
      | none => exact absurd sent (handed.walked.sent rfl)
      | some policy =>
          have heard := handed.walked.heard.sent policy sent
          have kept := splitPolicy_inner handed.walked.inStep known controls inner sent heard handed.walked.started
          cases split : system.splitPolicy level rank state with
          | error reason =>
              rw [split] at kept
              exact kept
          | ok next =>
              rw [if_pos rfl, split] at walked
              rw [split] at kept
              obtain ⟨inStep, _, link, _⟩ := kept
              obtain ⟨budget, _, accepted, _⟩ :=
                splitPolicy_budget handed.budget handed.walked.inStep affords.fits known controls inner sent heard split
              refine ⟨walked, budget.receiveDown, receiveDown_hears inStep budget isLink fun none => ?_⟩
              have early := inStep.parent_early known controls inner none
              have before : policy.powerPackageLimitTotal = .value total := by
                have above := Topology.isLink_above known controls inner
                have first := inStep.announced_first known controls inner (link ▸ sent) none
                have step := (handed.walked.inStep.follows (level + 1) rank above).sent policy sent
                have start := Number.value.inj (step.stepCount.symm.trans first)
                exact handed.budget.gives (level + 1) rank above (by exact_mod_cast start) policy sent
              exact affords.fits.validate known before accepted

/-- The first round of the loop at the root. -/
theorem walkLevel_root_handed {walk : Bool × State} (isRoot : level + 1 = system.topology.rootLevel)
    (inStep : system.InStep total walk.2) (budget : system.Budget total walk.2)
    (holds : walk.1 = true ∨ system.Started walk.2)
    (limit : ∀ valid, (walk.2.node 0).inPolicy.validate (system.settings 0) = .ok valid →
      valid.powerPackageLimitTotal = .value total) :
    Outcome.Keeps (fun reason => ¬reason.IsStepError) (system.Handed total level 0)
      (system.walkLevel 0 walk level) := by
  have walked := walkLevel_root isRoot inStep holds limit
  have tree : system.topology.rootLevel ≠ 0 := by omega
  have controls : level < system.topology.numLevelCtl 0 := by
    rw [system.topology.root]
    omega
  have isLink := Topology.isLink_self system.topology.some_rank controls
  obtain ⟨doSend, state⟩ := walk
  -- the root that has a policy has sent it
  have received {next : State} (inStep : system.InStep total next) (started : system.Started next)
      (budget : system.Budget total next) : system.Hears total level 0 (next.receiveDown level 0).2 := by
    refine receiveDown_hears inStep budget isLink fun none => ?_
    have isNew := (inStep.follows level 0 isLink).silent.mp none
    rw [system.topology.parent_self 0 system.topology.some_rank level controls] at isNew
    exact absurd isNew (started level isRoot)
  rw [walkLevel] at walked ⊢
  cases doSend with
  | false => exact ⟨walked, budget.receiveDown, received inStep (holds.resolve_left Bool.false_ne_true) budget⟩
  | true =>
      have kept := splitPolicy_root inStep isRoot limit
      cases split : system.splitPolicy level 0 state with
      | error reason =>
          rw [split] at kept
          exact kept
      | ok next =>
          rw [if_pos rfl, split] at walked
          rw [split] at kept
          have next_budget := splitPolicy_root_budget budget inStep tree isRoot limit split
          exact ⟨walked, next_budget.receiveDown, received kept.1 kept.2 next_budget⟩

/-- The end of `walk_down`. -/
theorem adjustPlatform_budget {walk : Bool × State} {clock : Nat → ℚ} (affords : system.Affords total)
    (tree : system.topology.rootLevel ≠ 0) (known : rank < system.topology.numRank)
    (handed : system.Handed total 0 rank walk) (done : system.adjustPlatform rank clock walk.2 = .ok next) :
    system.InStep total next ∧ system.Budget total next ∧ Spreads rank walk.2 next ∧ (rank ≠ 0 →
      (next.link (system.topology.numLevelCtl rank) rank).policy = none →
        (next.node rank).inPolicy.powerPackageLimitTotal = .value total) := by
  have kept := @adjustPlatform_inStep _ _ _ _ clock tree known handed.walked
  rw [done] at kept
  have inStep : system.InStep total next := kept
  have many : system.isSingleNode = false := decide_eq_false tree
  rw [adjustPlatform, many] at done
  obtain ⟨valid, accepted, adjusts⟩ := Transition.ok_of_bind done
  obtain ⟨⟨adjusted, leaf⟩, adjusting, ends⟩ := Transition.ok_of_bind adjusts
  clear done adjusts kept
  cases ends
  refine ⟨inStep, handed.budget.setLeaf handed.walked.inStep known rfl inStep ?_, Spreads.refl.setNode, ?_⟩
  · refine handed.budget.goes_adjustPlatform handed.walked.inStep affords tree known handed.walked.heard.sent
      (fun none => ?_) accepted adjusting rfl
    have isLink : system.topology.IsLink 0 rank := ⟨known, Nat.pos_of_ne_zero tree, Nat.zero_le _⟩
    have early := ((handed.walked.inStep.follows 0 rank isLink).silent.mp none).early
    exact affords.fits.validate known (handed.hears early) accepted
  · intro notFirst silent
    rw [State.setNode_node_self]
    exact affords.fits.validate known (handed.hears.unheard handed.walked.inStep known notFirst silent) accepted

/-- A walk down of a job whose nodes read the total limit from a file. -/
theorem walkDown_budget {endpointPolicy policy : Policy} {clock : Nat → ℚ} (affords : system.Affords total)
    (file : system.filePolicy = some policy) (given : policy.powerPackageLimitTotal = .value total)
    (tree : system.topology.rootLevel ≠ 0) (known : rank < system.topology.numRank)
    (inStep : system.InStep total state) (budget : system.Budget total state) (unheard : system.Unheard total state) :
    Outcome.Keeps (fun reason => ¬reason.IsStepError)
      (fun next => system.InStep total next ∧ system.Budget total next ∧ system.Unheard total next)
      (system.walkDown rank endpointPolicy clock state) := by
  have source : system.source endpointPolicy = .file policy := by rw [System.source, file]
  have below {walk : Bool × State} {level : Nat} (controlled : level ≤ system.topology.numLevelCtl rank)
      (inside : level < system.topology.rootLevel) (handed : system.Handed total level rank walk) :
      Outcome.Keeps (fun reason => ¬reason.IsStepError) (system.Handed total 0 rank)
        ((List.range level).reverse.foldlM (system.walkLevel rank) walk) :=
    @Outcome.keeps_range_reverse _ _ _ (fun level => system.Handed total level rank) _ _ _ handed
      fun index walk under handed => walkLevel_handed affords known (by omega) (by omega) handed
  have loop : Outcome.Keeps (fun reason => ¬AgentError.IsStepError reason) (system.Handed total 0 rank)
      ((List.range (system.topology.numLevelCtl rank)).reverse.foldlM (system.walkLevel rank)
        (system.startWalk rank endpointPolicy state)) := by
    by_cases first : rank = 0
    case neg =>
        have inside := system.topology.below rank known first
        have isLink : system.topology.IsLink (system.topology.numLevelCtl rank) rank := ⟨known, inside, Nat.le_refl _⟩
        refine below (Nat.le_refl _) inside ?_
        rw [startWalk, if_neg (Nat.ne_of_lt inside)]
        refine ⟨receiveDown_walked inStep (fun none valid accepted => .inl ?_) fun isFirst => absurd isFirst first,
          budget.receiveDown, receiveDown_hears inStep budget isLink (unheard rank known first)⟩
        rw [affords.fits.validate known (unheard rank known first none) accepted, Number.eq_value]
        exact decide_eq_false (affords.share known).1.ne'
    case pos =>
        subst first
        obtain ⟨highest, top⟩ := Nat.exists_eq_succ_of_ne_zero tree
        rw [startWalk, if_pos system.topology.root, system.topology.root, top, List.range_succ, List.reverse_append,
          List.reverse_singleton, List.singleton_append, List.foldlM_cons, source]
        refine (walkLevel_root_handed top.symm ?_ ?_ (.inl rfl) ?_).bind fun walk handed =>
          below (by rw [system.topology.root, top]; omega) (by omega) handed
        · exact inStep.setNode _ rfl (inStep.follows 0 0) fun _ => inStep.started
        · exact budget.setNode rfl rfl rfl
        · intro valid accepted
          rw [State.setNode_node_self] at accepted
          exact affords.fits.validate system.topology.some_rank given accepted
  have spreads := @walkLevels_spreads system state rank endpointPolicy
  rw [walkDown]
  cases walked : (List.range (system.topology.numLevelCtl rank)).reverse.foldlM (system.walkLevel rank)
      (system.startWalk rank endpointPolicy state) with
  | error reason =>
      rw [walked] at loop
      exact loop
  | ok walk =>
      rw [walked] at loop spreads
      have handed : system.Handed total 0 rank walk := loop
      have spread : Spreads rank state walk.2 := spreads
      change Outcome.Keeps _ _ (system.adjustPlatform rank clock walk.2)
      have kept := @adjustPlatform_inStep _ _ _ _ clock tree known handed.walked
      cases done : system.adjustPlatform rank clock walk.2 with
      | error reason =>
          rw [done] at kept
          exact kept
      | ok next =>
          obtain ⟨nextInStep, nextBudget, adjusts, self⟩ := adjustPlatform_budget affords tree known handed done
          refine ⟨nextInStep, nextBudget, unheard.spread ⟨?_, ?_⟩ self⟩
          · exact fun other differs => (adjusts.others other differs).trans (spread.others other differs)
          · exact fun level other none => spread.silent level other (adjusts.silent level other none)

end System

end Balancer

end Geopm
