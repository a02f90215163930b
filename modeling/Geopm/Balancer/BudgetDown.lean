import Geopm.Balancer.Budget

namespace Geopm

/-! What the nodes may use together while policies are sent down. -/

namespace RootRole

variable {role next : RootRole} {settings : PowerSettings} {inPolicy : Policy} {result : Bool} {total : ℚ}

theorem announced_of_complete (complete : role.isStepComplete = true) : role.announced = role.stepCount + 1 :=
  if_pos complete

theorem announced_of_incomplete (incomplete : role.isStepComplete = false) : role.announced = role.stepCount := by
  rw [announced, incomplete, if_neg Bool.false_ne_true]

end RootRole

namespace Balancer

namespace System

variable {system : System} {total : ℚ} {state next : State} {level rank : Nat} {node : Node} {agent : Agent}

section SetAgent

variable (agents : node.agent = Function.update (state.node rank).agent level agent)

include agents

/-- The samples of a node of which one agent changes tell what they told. -/
theorem Budget.tells_setAgent (budget : system.Budget total state) (change : Link → Link)
    (leaf : node.leaf = (state.node rank).leaf)
    (samples : ∀ link sample, (change link).sample = some sample → link.sample = some sample)
    (stays : level + 1 ≠ system.topology.rootLevel → ∀ sample, (state.link (level + 1) rank).sample = some sample →
      sample.stepCount = .value agent.stepCount →
        agent.stepCount = ((state.node rank).agent level).stepCount) :
    ∀ upper other, system.topology.IsLink upper other → ∀ sample,
      (((state.setNode rank node).setLinks level (system.topology.members level rank) change).link upper other).sample =
        some sample →
      sample.stepCount = .value (((state.setNode rank node).node other).progress upper).stepCount →
        BalancerStep.ofCount (((state.setNode rank node).node other).progress upper).stepCount = .reduceLimit →
          system.Tells ((state.setNode rank node).setLinks level (system.topology.members level rank) change) upper other
            sample := by
  intro upper other isLink sample held step reduces
  have before : (state.link upper other).sample = some sample := by
    by_cases member : upper = level ∧ other ∈ system.topology.members level rank
    · obtain ⟨rfl, member⟩ := member
      rw [State.setLinks_link_member member] at held
      exact samples _ _ held
    · rwa [State.setLinks_link_other fun same inside => member ⟨same, inside⟩] at held
  have same : (((state.setNode rank node).node other).progress upper).stepCount =
      ((state.node other).progress upper).stepCount := by
    by_cases here : other = rank ∧ upper = level + 1
    case pos =>
        obtain ⟨rfl, rfl⟩ := here
        rw [Node.progress, agent_changed agents] at step ⊢
        exact stays (Nat.ne_of_lt isLink.inside) sample before step
    case neg => rw [progress_other agents leaf here]
  rw [same] at step reduces
  exact (budget.tells upper other isLink sample before step reduces).congr_leaf (leaf_setNode leaf)

/-- A node below the root of which one agent changes, and the links to its children. -/
theorem Budget.setAgent (budget : system.Budget total state) (change : Link → Link)
    (known : rank < system.topology.numRank) (controls : level < system.topology.numLevelCtl rank)
    (inner : level + 1 ≠ system.topology.rootLevel) (leaf : node.leaf = (state.node rank).leaf)
    (walks : node.walks = (state.node rank).walks)
    (samples : ∀ link sample, (change link).sample = some sample → link.sample = some sample)
    (stays : ∀ sample, (state.link (level + 1) rank).sample = some sample →
      sample.stepCount = .value agent.stepCount → agent.stepCount = ((state.node rank).agent level).stepCount)
    (gives : ∀ other, system.topology.IsLink level other → system.topology.parent level other = rank →
      Gives total level (change (state.link level other)) agent ((state.node other).progress level))
    (carries : BalancerStep.ofCount (system.rootRole state).stepCount = .sendDownLimit →
      ∀ other, system.topology.IsLink level other → system.topology.parent level other = rank →
        Carries (system.rootRole state).slack (system.rootRole state).stepCount level
          (change (state.link level other)) agent ((state.node other).progress level)) :
    system.Budget total ((state.setNode rank node).setLinks level (system.topology.members level rank) change) := by
  have top := Topology.numLevelCtl_le known
  have root : system.rootRole ((state.setNode rank node).setLinks level (system.topology.members level rank) change) =
      system.rootRole state :=
    rootRole_congr (agent_other agents fun same => inner (by omega))
  constructor
  case leaves =>
      intro other otherKnown
      rw [State.setLinks_node, leaf_setNode leaf]
      exact budget.leaves other otherKnown
  case requested =>
      intro other otherKnown odd
      rw [State.setLinks_node, leaf_setNode leaf]
      refine budget.requested other otherKnown ?_
      by_cases self : other = rank
      · subst self
        rwa [State.setLinks_node, State.setNode_node_self, walks] at odd
      · rwa [State.setLinks_node, State.setNode_node_other self] at odd
  case numNode =>
      rw [root]
      exact budget.numNode
  case fresh =>
      rw [root]
      exact budget.fresh
  case gives =>
      exact budget.gives.setAgent agents change known controls leaf gives fun inner =>
        budget.gives (level + 1) rank (Topology.isLink_above known controls inner)
  case carries =>
      rw [root]
      intro sends
      exact (budget.carries sends).setAgent agents change known controls leaf (carries sends) fun inner =>
        budget.carries sends (level + 1) rank (Topology.isLink_above known controls inner)
  case tells => exact budget.tells_setAgent agents change leaf samples fun _ => stays
  case shares =>
      rw [root]
      intro past sends
      obtain ⟨given, nonneg, fits⟩ := budget.shares past sends
      refine ⟨given, nonneg, fun other otherKnown waits => ?_⟩
      rw [Waits, root, State.setLinks_node, leaf_setNode leaf] at waits
      rw [State.setLinks_node, leaf_setNode leaf]
      exact fits other otherKnown waits
  case conserved =>
      rw [root]
      intro past
      rw [Finset.sum_congr rfl fun other _ => charge_congr root (leaf_setNode leaf other)]
      exact budget.conserved past

end SetAgent

/-- The root and the links to its children change. -/
theorem Budget.setRoot (budget : system.Budget total state) (done : RootRole) (node : Node) (change : Link → Link)
    (isRoot : level + 1 = system.topology.rootLevel)
    (leaf : node.leaf = (state.node 0).leaf) (walks : node.walks = (state.node 0).walks)
    (agents : node.agent = Function.update (state.node 0).agent level (.root done))
    (numNode : done.numNode = (system.rootRole state).numNode) (known_cap : done.rootCap ≠ .nan)
    (samples : ∀ link sample, (change link).sample = some sample → link.sample = some sample)
    (gives : ∀ other, system.topology.IsLink level other → system.topology.parent level other = 0 →
      Gives total level (change (state.link level other)) (.root done) ((state.node other).progress level))
    (carries : BalancerStep.ofCount done.stepCount = .sendDownLimit →
      (∀ other, system.topology.IsLink level other → system.topology.parent level other = 0 →
        Carries done.slack done.stepCount level (change (state.link level other)) (.root done)
          ((state.node other).progress level)) ∧
      ∀ upper other, system.topology.IsLink upper other → upper ≠ level →
        Carries done.slack done.stepCount upper (state.link upper other)
          ((state.node (system.topology.parent upper other)).agent upper) ((state.node other).progress upper))
    (shares : 0 < done.announced → BalancerStep.ofCount done.announced = .sendDownLimit →
      done.policy.powerSlack = .value done.slack ∧ 0 ≤ done.slack ∧ ∀ rank < system.topology.numRank,
        (state.node rank).leaf.stepCount + 1 = done.announced →
          done.slack ≤ (state.node rank).leaf.roomSum (system.settings rank))
    (conserved : 0 < done.announced → ∑ rank ∈ Finset.range system.topology.numRank,
      (if BalancerStep.ofCount done.announced = .sendDownLimit ∧ (state.node rank).leaf.stepCount + 1 = done.announced
        then (state.node rank).leaf.limitSum + done.slack else (state.node rank).leaf.capSum) ≤
          system.topology.numRank * total) :
    system.Budget total ((state.setNode 0 node).setLinks level (system.topology.members level 0) change) := by
  have controls : level < system.topology.numLevelCtl 0 := by
    rw [system.topology.root]
    omega
  have known := system.topology.some_rank
  have root : system.rootRole ((state.setNode 0 node).setLinks level (system.topology.members level 0) change) = done :=
    rootRole_eq isRoot (agent_changed agents)
  constructor
  case leaves =>
      intro other otherKnown
      rw [State.setLinks_node, leaf_setNode leaf]
      exact budget.leaves other otherKnown
  case requested =>
      intro other otherKnown odd
      rw [State.setLinks_node, leaf_setNode leaf]
      refine budget.requested other otherKnown ?_
      by_cases self : other = 0
      · subst self
        rwa [State.setLinks_node, State.setNode_node_self, walks] at odd
      · rwa [State.setLinks_node, State.setNode_node_other self] at odd
  case numNode =>
      rw [root, numNode]
      exact budget.numNode
  case fresh =>
      rw [root]
      exact fun none => absurd none known_cap
  case gives =>
      exact budget.gives.setAgent agents change known controls leaf gives fun inner => absurd isRoot inner
  case carries =>
      rw [root]
      intro sends
      obtain ⟨children, others⟩ := carries sends
      refine eachLink_setAgent agents change known controls leaf (fun upper other isLink notBelow => ?_) children
        fun inner => absurd isRoot inner
      refine others upper other isLink fun same => notBelow ⟨?_, same⟩
      obtain ⟨parentKnown, parentControls⟩ := isLink.parent_known
      exact Topology.first_of_root parentKnown parentControls (by omega)
  case tells => exact budget.tells_setAgent agents change leaf samples fun inner => absurd isRoot inner
  case shares =>
      rw [root]
      intro past sends
      obtain ⟨given, nonneg, fits⟩ := shares past sends
      refine ⟨given, nonneg, fun other otherKnown waits => ?_⟩
      rw [Waits, root, State.setLinks_node, leaf_setNode leaf] at waits
      rw [State.setLinks_node, leaf_setNode leaf]
      exact fits other otherKnown waits.2
  case conserved =>
      rw [root]
      intro past
      refine le_of_eq_of_le (Finset.sum_congr rfl fun other _ => ?_) (conserved past)
      have waits : system.Waits ((state.setNode 0 node).setLinks level (system.topology.members level 0) change) other ↔
          BalancerStep.ofCount done.announced = .sendDownLimit ∧
            (state.node other).leaf.stepCount + 1 = done.announced := by
        rw [Waits, root, State.setLinks_node, leaf_setNode leaf]
      rw [charge, root, State.setLinks_node, leaf_setNode leaf, if_congr waits rfl rfl]

/-- A node of which neither the agents nor the leaf change. -/
theorem Budget.setNode (budget : system.Budget total state) (agents : node.agent = (state.node rank).agent)
    (leaf : node.leaf = (state.node rank).leaf) (walks : node.walks = (state.node rank).walks) :
    system.Budget total (state.setNode rank node) := by
  have root : system.rootRole (state.setNode rank node) = system.rootRole state := rootRole_setNode agents
  constructor
  case leaves =>
      intro other known
      rw [leaf_setNode leaf]
      exact budget.leaves other known
  case requested =>
      intro other known odd
      rw [leaf_setNode leaf]
      refine budget.requested other known ?_
      by_cases self : other = rank
      · subst self
        rwa [State.setNode_node_self, walks] at odd
      · rwa [State.setNode_node_other self] at odd
  case numNode =>
      rw [root]
      exact budget.numNode
  case fresh =>
      rw [root]
      exact budget.fresh
  case gives =>
      exact budget.gives.setNode agents fun isLink => by
        rw [leaf]
        exact budget.gives 0 rank isLink
  case carries =>
      rw [root]
      exact fun sends => (budget.carries sends).setNode agents fun isLink => by
        rw [leaf]
        exact budget.carries sends 0 rank isLink
  case tells =>
      intro level other isLink sample held step reduces
      rw [progress_setNode agents leaf] at step reduces
      exact (budget.tells level other isLink sample held step reduces).congr_leaf (leaf_setNode leaf)
  case shares =>
      rw [root]
      intro past sends
      obtain ⟨given, nonneg, fits⟩ := budget.shares past sends
      refine ⟨given, nonneg, fun other known waits => ?_⟩
      rw [Waits, root, leaf_setNode leaf] at waits
      rw [leaf_setNode leaf]
      exact fits other known waits
  case conserved =>
      rw [root]
      intro past
      rw [Finset.sum_congr rfl fun other _ => charge_congr root (leaf_setNode leaf other)]
      exact budget.conserved past

/-- What a policy gives is left by its validation. -/
theorem Fits.validate_slack {policy valid : Policy} {slack : ℚ} {settings : PowerSettings}
    (given : policy.powerSlack = .value slack) (accepted : policy.validate settings = .ok valid) :
    valid.powerSlack = .value slack := by
  rw [Policy.validate_ok accepted]
  simp [Policy.withDefaults, given]

/-- A policy of the parent is taken and sent on, or left as it is. -/
theorem splitPolicy_budget {policy : Policy} (budget : system.Budget total state) (inStep : system.InStep total state)
    (fits : system.Fits total) (known : rank < system.topology.numRank)
    (controls : level < system.topology.numLevelCtl rank)
    (inner : level + 1 ≠ system.topology.rootLevel) (sent : (state.link (level + 1) rank).policy = some policy)
    (heard : (state.node rank).inPolicy = policy) (done : system.splitPolicy level rank state = .ok next) :
    system.Budget total next ∧ next.link (level + 1) = state.link (level + 1) ∧
      policy.validate (system.settings rank) = .ok (next.node rank).inPolicy ∧
      system.rootRole next = system.rootRole state := by
  have top := Topology.numLevelCtl_le known
  have isLink := Topology.isLink_above known controls inner
  have above := inStep.follows (level + 1) rank isLink
  have announces := above.sent policy sent
  have trails := above.trails_sent (by rw [sent]; exact Option.some_ne_none policy)
  have plays := inStep.plays level rank known controls
  rw [splitPolicy, heard] at done
  obtain ⟨valid, accepted, split⟩ := Transition.ok_of_bind done
  clear done
  cases found : (state.node rank).agent level with
  | root role =>
      rw [found] at plays
      exact absurd plays.1 inner
  | tree role =>
      rw [found] at split
      obtain ⟨⟨doSend, agent⟩, descended, ends⟩ := Transition.ok_of_bind split
      clear split
      rw [Agent.descend] at descended
      cases descends : role.descend valid with
      | error reason =>
          rw [descends] at descended
          cases descended
      | ok result =>
          obtain ⟨result, grown⟩ := result
          rw [descends] at descended
          cases descended
          cases TreeRole.descend_cases descends with
          | inr stays =>
              obtain ⟨rfl, rfl⟩ := stays
              cases ends
              have same : Function.update (state.node rank).agent level (.tree grown) = (state.node rank).agent := by
                rw [← found, Function.update_eq_self]
              refine ⟨budget.setNode same rfl rfl, rfl, ?_, rootRole_setNode same⟩
              rw [if_neg Bool.false_ne_true, State.setNode_node_self]
              exact accepted
          | inl sends =>
              obtain ⟨rfl, complete, other, step, following, grows⟩ := sends
              have announced := announces.validate accepted
              have reached : grown.stepCount = ((state.node (system.topology.parent (level + 1) rank)).agent
                  (level + 1)).stepCount :=
                Int.cast_injective (Number.value.inj (step.symm.trans announced.stepCount))
              have late : role.stepCount + 1 = grown.stepCount := by
                rw [Node.progress, found] at trails
                refine reached ▸ trails.step.resolve_left fun same => other ?_
                have equal : role.stepCount = grown.stepCount := by rw [reached]; exact same
                rw [step, equal]
              have taken : grown.policy = valid := congrArg TreeRole.policy grows
              cases ends
              rw [if_pos rfl]
              have agents : ({ state.node rank with
                  inPolicy := valid, agent := Function.update (state.node rank).agent level (.tree grown) } : Node).agent =
                  Function.update (state.node rank).agent level (.tree grown) := rfl
              refine ⟨budget.setAgent agents (fun link => { link with policy := some grown.policy }) known controls inner
                rfl rfl (fun link sample held => held) ?_ ?_ ?_, ?_, ?_, ?_⟩
              · intro sample held same
                obtain ⟨count, reported, completed⟩ := above.sample sample held
                have equal : count = grown.stepCount := Int.cast_injective (Number.value.inj (reported.symm.trans same))
                rw [Node.progress, found] at completed
                have few := completed.le
                simp only [Agent.progress, Agent.stepCount] at few
                omega
              · intro child isChild parent start held same
                cases same
                have given := budget.gives (level + 1) rank isLink (reached.symm.trans start) policy sent
                rw [taken]
                exact fits.validate known given accepted
              · intro sendsSlack child isChild parent start held same
                cases same
                have carried := budget.carries sendsSlack (level + 1) rank isLink (reached.symm.trans start) policy sent
                rw [taken]
                exact Fits.validate_slack carried accepted
              · funext other
                exact State.setLinks_link_other fun same => absurd same (Nat.succ_ne_self level)
              · rw [State.setLinks_node, State.setNode_node_self]
                exact accepted
              · exact rootRole_congr (agent_other agents fun same => inner (by omega))

/-- The root accepts its total limit. -/
theorem Budget.accept (budget : system.Budget total state) (role : RootRole) (node : Node)
    (isRoot : level + 1 = system.topology.rootLevel) (before : system.rootRole state = role)
    (isNew : Agent.IsNew (.root role)) (leaf : node.leaf = (state.node 0).leaf)
    (walks : node.walks = (state.node 0).walks)
    (agents : node.agent = Function.update (state.node 0).agent level (.root { role with
      stepCount := 0, policy := RootRole.limitOf total, rootCap := .value total })) :
    system.Budget total ((state.setNode 0 node).setLinks level (system.topology.members level 0)
      fun link => { link with policy := some (RootRole.limitOf total) }) := by
  have announced : RootRole.announced { role with
      stepCount := 0, policy := RootRole.limitOf total, rootCap := .value total } = 0 :=
    RootRole.announced_of_incomplete isNew.2.2
  refine budget.setRoot _ node _ isRoot leaf walks agents (by rw [before]) (fun none => by cases none)
    (fun link sample held => held) ?_ (fun _ => ⟨?_, ?_⟩) (fun past => ?_) fun past => ?_
  · intro other isLink parent start policy same
    cases same
    rfl
  · intro other isLink parent start policy same
    cases same
    rfl
  · intro upper other isLink differs
    have slack := budget.fresh (before ▸ isNew.1)
    have carries := budget.carries (by rw [before, isNew.2.1]; rfl) upper other isLink
    rw [slack, before, isNew.2.1] at carries
    exact carries
  · rw [announced] at past
    exact absurd past (Int.lt_irrefl 0)
  · rw [announced] at past
    exact absurd past (Int.lt_irrefl 0)

/-- The root goes on to the next step. -/
theorem Budget.advance (budget : system.Budget total state) (inStep : system.InStep total state)
    (tree : system.topology.rootLevel ≠ 0) (role : RootRole) (node : Node)
    (isRoot : level + 1 = system.topology.rootLevel) (before : system.rootRole state = role)
    (complete : role.isStepComplete = true) (nonneg : 0 ≤ role.stepCount) (known_cap : role.rootCap ≠ .nan)
    (leaf : node.leaf = (state.node 0).leaf) (walks : node.walks = (state.node 0).walks)
    (agents : node.agent = Function.update (state.node 0).agent level (.root { role with
      stepCount := role.stepCount + 1, isStepComplete := false })) :
    system.Budget total ((state.setNode 0 node).setLinks level (system.topology.members level 0)
      fun link => { link with policy := some role.policy }) := by
  have announced : RootRole.announced { role with stepCount := role.stepCount + 1, isStepComplete := false } =
      (system.rootRole state).announced := by
    rw [before, RootRole.announced_of_complete complete]
    rfl
  have step : role.stepCount + 1 = (system.rootRole state).announced := by
    rw [before, RootRole.announced_of_complete complete]
  have slack : RootRole.slack { role with stepCount := role.stepCount + 1, isStepComplete := false } =
      (system.rootRole state).slack := by
    rw [before]
    rfl
  have shares := budget.shares
  have conserved := budget.conserved
  refine budget.setRoot _ node _ isRoot leaf walks agents (by rw [before]) known_cap
    (fun link sample held => held) ?_ (fun sends => ⟨?_, ?_⟩) (fun past sends => ?_) fun past => ?_
  · intro other isLink parent start
    have zero : role.stepCount + 1 = 0 := start
    omega
  · intro other isLink parent start policy same
    cases same
    have given := (shares (by omega) (step ▸ sends)).1
    rwa [before] at given
  · intro upper other isLink differs start
    have late := inStep.parent_behind tree isLink
    rw [before] at late
    have equal : _ = role.stepCount + 1 := start
    omega
  · rw [announced] at past sends ⊢
    obtain ⟨given, positive, fits⟩ := shares past sends
    rw [before] at given positive
    refine ⟨given, positive, fun rank known waits => ?_⟩
    rw [slack]
    exact fits rank known ⟨sends, waits⟩
  · rw [announced] at past ⊢
    rw [slack]
    exact le_of_eq_of_le (Finset.sum_congr rfl fun rank _ => by rw [charge, if_congr (Iff.refl _) rfl rfl]; rfl)
      (conserved past)

/-- The root sends its first policy, or the next one when its step is complete. -/
theorem splitPolicy_root_budget (budget : system.Budget total state) (inStep : system.InStep total state)
    (tree : system.topology.rootLevel ≠ 0) (isRoot : level + 1 = system.topology.rootLevel)
    (limit : ∀ valid, (state.node 0).inPolicy.validate (system.settings 0) = .ok valid →
      valid.powerPackageLimitTotal = .value total)
    (done : system.splitPolicy level 0 state = .ok next) : system.Budget total next := by
  have highest : system.topology.rootLevel - 1 = level := by omega
  obtain ⟨found, plays⟩ := inStep.root tree
  rw [highest] at found
  rw [splitPolicy] at done
  obtain ⟨valid, accepted, split⟩ := Transition.ok_of_bind done
  clear done
  have given := limit valid accepted
  generalize before : system.rootRole state = role at found plays
  rw [found] at split
  obtain ⟨⟨doSend, agent⟩, descended, ends⟩ := Transition.ok_of_bind split
  clear split
  rw [Agent.descend] at descended
  cases descends : role.descend (system.settings 0) valid with
  | error reason =>
      rw [descends] at descended
      cases descended
  | ok result =>
      obtain ⟨result, grown⟩ := result
      rw [descends] at descended
      cases descended
      cases plays with
      | inl isNew =>
          have changed : valid.powerPackageLimitTotal.eq role.rootCap = false := by rw [isNew.1, Number.eq_nan]
          obtain rfl := RootRole.descend_changed changed descends
          have reset := RootRole.descend_reset changed descends
          rw [given] at reset
          subst reset
          cases ends
          exact budget.accept role _ isRoot before isNew rfl rfl rfl
      | inr holds =>
          have same : valid.powerPackageLimitTotal.eq role.rootCap = true := by
            rw [given, holds.rootCap, Number.eq_value, decide_eq_true rfl]
          cases RootRole.descend_same same descends with
          | inl sends =>
              obtain ⟨rfl, following, rfl⟩ := sends
              cases ends
              have complete : role.isStepComplete = true := by
                by_contra incomplete
                have announces := holds.announces.stepCount
                rw [if_neg incomplete, following] at announces
                have step := Number.value.inj announces
                linarith
              exact budget.advance inStep tree role _ isRoot before complete holds.nonneg
                (by rw [holds.rootCap]; exact fun none => by cases none) rfl rfl rfl
          | inr stays =>
              obtain ⟨rfl, rfl⟩ := stays
              cases ends
              rw [if_neg Bool.false_ne_true]
              exact budget.setNode (by rw [← found, Function.update_eq_self]) rfl rfl

end System

end Balancer

end Geopm
