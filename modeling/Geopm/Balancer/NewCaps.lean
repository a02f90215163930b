import Geopm.Balancer.Current

namespace Geopm

/-! Whether a new total limit reaches every leaf before the root completes the step that it starts. -/

namespace Balancer

namespace System

variable {system : System} {first total : ℚ} {state next : State} {level rank : Nat} {node : Node} {agent : Agent}
  {inPolicy valid : Policy}

/-- The role of the root. -/
def rootRole (system : System) (state : State) : RootRole :=
  match (state.node 0).agent (system.topology.rootLevel - 1) with
  | .root role => role
  | .tree _ => .new 0

/-- The total limit of the root, or the first one that it will have. -/
def due (system : System) (first : ℚ) (state : State) : ℚ :=
  match (system.rootRole state).rootCap with
  | .nan => first
  | .value total => total

/-- The total limit is within the limits of a package on each node. -/
def Fits (system : System) (total : ℚ) : Prop :=
  total ≠ 0 ∧ ∀ rank < system.topology.numRank,
    (system.settings rank).minPkgPowerSetting ≤ total ∧ total ≤ (system.settings rank).maxPkgPowerSetting

/-- The nodes while the total limit is sent down. -/
structure Generation (system : System) (total : ℚ) (state : State) : Prop where
  links : system.EachLink (fun _ => Current total) state
  leaves : ∀ rank < system.topology.numRank, (state.node rank).leaf.stepCount = 0 → (state.node rank).leaf.Capped total

/-- What holds in every state that is reached. -/
structure Passing (system : System) (first : ℚ) (state : State) : Prop where
  agents : system.EachAgent RootRole.Sound state
  links : system.EachLink Conforms state
  fits : system.Fits (system.due first state)
  generation : (system.rootRole state).Active → system.Generation (system.due first state) state

theorem rootRole_congr (same : (next.node 0).agent (system.topology.rootLevel - 1) =
    (state.node 0).agent (system.topology.rootLevel - 1)) : system.rootRole next = system.rootRole state := by
  rw [rootRole, rootRole, same]

theorem rootRole_setNode (agents : node.agent = (state.node rank).agent) :
    system.rootRole (state.setNode rank node) = system.rootRole state :=
  rootRole_congr (congrFun (agent_setNode agents 0) _)

theorem due_congr (same : system.rootRole next = system.rootRole state) :
    system.due first next = system.due first state := by
  rw [due, due, same]

/-- A limit that fits every node is valid as it is. -/
theorem Fits.validate (fits : system.Fits total) (known : rank < system.topology.numRank)
    (given : inPolicy.powerPackageLimitTotal = .value total)
    (accepted : inPolicy.validate (system.settings rank) = .ok valid) : valid.powerPackageLimitTotal = .value total := by
  have within := fits.2 rank known
  rw [Policy.validate_ok accepted]
  simp [Policy.withDefaults, given, Policy.clamp, fits.1, not_lt.mpr within.1, not_lt.mpr within.2]

/-- A node whose agents stay the same. -/
theorem Passing.setNode (passing : system.Passing first state) (node : Node)
    (agents : node.agent = (state.node rank).agent)
    (leaf : (system.rootRole state).Active → system.Generation (system.due first state) state →
      (system.topology.IsLink 0 rank → Current (system.due first state) (state.link 0 rank)
        ((state.node (system.topology.parent 0 rank)).agent 0) node.leaf.progress) ∧
      (rank < system.topology.numRank → node.leaf.stepCount = 0 → node.leaf.Capped (system.due first state))) :
    system.Passing first (state.setNode rank node) := by
  have root : system.rootRole (state.setNode rank node) = system.rootRole state := rootRole_setNode agents
  constructor
  case agents => exact passing.agents.setNode agents
  case links =>
      exact passing.links.setNode agents fun isLink =>
        (passing.links 0 rank isLink).change fun upper => absurd rfl upper
  case fits =>
      rw [due_congr root]
      exact passing.fits
  case generation =>
      intro active
      rw [root] at active
      rw [due_congr root]
      have generation := passing.generation active
      obtain ⟨link, capped⟩ := leaf active generation
      refine ⟨generation.links.setNode agents link, fun other known start => ?_⟩
      by_cases self : other = rank
      · subst self
        rw [State.setNode_node_self] at start ⊢
        exact capped known start
      · rw [State.setNode_node_other self] at start ⊢
        exact generation.leaves other known start

/-- A node below the root of which one agent changes, and the links to its children. -/
theorem Passing.setAgent (passing : system.Passing first state) (role : TreeRole) (node : Node) (change : Link → Link)
    (known : rank < system.topology.numRank) (controls : level < system.topology.numLevelCtl rank)
    (inner : level + 1 ≠ system.topology.rootLevel) (leaf : node.leaf = (state.node rank).leaf)
    (agents : node.agent = Function.update (state.node rank).agent level (.tree role))
    (children : ∀ other, system.topology.IsLink level other → system.topology.parent level other = rank →
      Conforms level (change (state.link level other)) (.tree role) ((state.node other).progress level) ∧
      ((system.rootRole state).Active → system.Generation (system.due first state) state →
        Current (system.due first state) (change (state.link level other)) (.tree role)
          ((state.node other).progress level)))
    (child : Conforms (level + 1) (state.link (level + 1) rank)
        ((state.node (system.topology.parent (level + 1) rank)).agent (level + 1)) (Agent.tree role).progress ∧
      ((system.rootRole state).Active → system.Generation (system.due first state) state →
        Current (system.due first state) (state.link (level + 1) rank)
          ((state.node (system.topology.parent (level + 1) rank)).agent (level + 1)) (Agent.tree role).progress)) :
    system.Passing first
      ((state.setNode rank node).setLinks level (system.topology.members level rank) change) := by
  have top := Topology.numLevelCtl_le known
  have root : system.rootRole ((state.setNode rank node).setLinks level (system.topology.members level rank) change) =
      system.rootRole state :=
    rootRole_congr (agent_other agents fun same => inner (by omega))
  constructor
  case agents => exact passing.agents.setAgent agents inner
  case links =>
      exact passing.links.setAgent agents change known controls leaf
        (fun other isLink parent => (children other isLink parent).1) fun _ => child.1
  case fits =>
      rw [due_congr root]
      exact passing.fits
  case generation =>
      intro active
      rw [root] at active
      rw [due_congr root]
      have generation := passing.generation active
      refine ⟨generation.links.setAgent agents change known controls leaf (fun other isLink parent =>
        (children other isLink parent).2 active generation) fun _ => child.2 active generation, fun other known start => ?_⟩
      rw [State.setLinks_node, leaf_setNode leaf] at start ⊢
      exact generation.leaves other known start

theorem Passing.setLinks (passing : system.Passing first state) {ranks : List Nat} (change : Link → Link)
    (kept : ∀ other, other ∈ ranks → system.topology.IsLink level other →
      Conforms level (change (state.link level other)) ((state.node (system.topology.parent level other)).agent level)
        ((state.node other).progress level) ∧
      ((system.rootRole state).Active → system.Generation (system.due first state) state →
        Current (system.due first state) (change (state.link level other))
          ((state.node (system.topology.parent level other)).agent level) ((state.node other).progress level))) :
    system.Passing first (state.setLinks level ranks change) where
  agents := passing.agents
  links := passing.links.setLinks change fun other member isLink => (kept other member isLink).1
  fits := passing.fits
  generation := by
    intro active
    have generation := passing.generation active
    exact ⟨generation.links.setLinks change fun other member isLink =>
      (kept other member isLink).2 active generation, generation.leaves⟩

/-- The node has the policy that its parent in the level has sent, or one with the total limit that is due. -/
structure Told (system : System) (first : ℚ) (level rank : Nat) (state : State) : Prop where
  sent : ∀ policy, (state.link level rank).policy = some policy → (state.node rank).inPolicy = policy
  silent : (state.link level rank).policy = none → (system.rootRole state).Active →
    ∀ valid, (state.node rank).inPolicy.validate (system.settings rank) = .ok valid →
      valid.powerPackageLimitTotal = .value (system.due first state)

/-- How far `walk_down` has come. -/
structure Descended (system : System) (first : ℚ) (level rank : Nat) (walk : Bool × State) : Prop where
  passing : system.Passing first walk.2
  told : system.Told first level rank walk.2
  sent : walk.1 = true → (walk.2.link level rank).policy ≠ none

theorem receiveDown_descended (passing : system.Passing first state)
    (silent : (state.link level rank).policy = none → (system.rootRole state).Active →
      ∀ valid, (state.node rank).inPolicy.validate (system.settings rank) = .ok valid →
        valid.powerPackageLimitTotal = .value (system.due first state)) :
    system.Descended first level rank (state.receiveDown level rank) := by
  cases received : (state.link level rank).policy with
  | none =>
      rw [State.receiveDown, received]
      refine ⟨passing, ⟨?_, silent⟩, fun sent => by cases sent⟩
      intro policy sent
      rw [received] at sent
      cases sent
  | some policy =>
      rw [State.receiveDown, received]
      refine ⟨passing.setNode { state.node rank with inPolicy := policy } rfl fun _ generation =>
        ⟨generation.links 0 rank, generation.leaves rank⟩, ⟨?_, ?_⟩, fun _ => ?_⟩
      · intro other sent
        rw [State.setNode_link, received] at sent
        rw [State.setNode_node_self]
        exact Option.some.inj sent
      · intro none
        rw [State.setNode_link, received] at none
        cases none
      · rw [State.setNode_link, received]
        exact Option.some_ne_none policy

/-- A tree role that has not had a policy hears the total limit that is due. -/
theorem Passing.told_first {policy : Policy} (passing : system.Passing first state)
    (known : rank < system.topology.numRank) (controls : level < system.topology.numLevelCtl rank)
    (inner : level + 1 ≠ system.topology.rootLevel) (sent : (state.link (level + 1) rank).policy = some policy)
    (silent : (state.link level rank).policy = none) (active : (system.rootRole state).Active) :
    policy.powerPackageLimitTotal = .value (system.due first state) := by
  have plays := passing.agents level rank known controls
  have below := passing.links level rank (Topology.isLink_self known controls)
  have above := passing.links (level + 1) rank (Topology.isLink_above known controls inner)
  have now := (passing.generation active).links (level + 1) rank (Topology.isLink_above known controls inner)
  have isNew := below.silent.mp silent
  rw [system.topology.parent_self rank known level controls] at isNew
  have nonneg := (above.sent policy sent).nonneg
  have step : ((state.node rank).agent level).stepCount = -1 := by
    cases role : (state.node rank).agent level with
    | tree role =>
        rw [role] at isNew
        exact isNew.1
    | root role =>
        rw [role] at plays
        exact absurd plays.1 inner
  have early := mt (above.before (Nat.succ_ne_zero level)) (not_not.mpr step)
  exact now.limit policy sent (by omega)

/-- A policy of the parent is taken and sent on, or left as it is. -/
theorem splitPolicy_passes {policy : Policy} (passing : system.Passing first state)
    (known : rank < system.topology.numRank) (controls : level < system.topology.numLevelCtl rank)
    (inner : level + 1 ≠ system.topology.rootLevel) (sent : (state.link (level + 1) rank).policy = some policy)
    (heard : (state.node rank).inPolicy = policy) (done : system.splitPolicy level rank state = .ok next) :
    system.Passing first next ∧ next.link (level + 1) = state.link (level + 1) ∧
      policy.validate (system.settings rank) = .ok (next.node rank).inPolicy := by
  have isLink := Topology.isLink_above known controls inner
  have above := passing.links (level + 1) rank isLink
  have announces := above.sent policy sent
  have plays := passing.agents level rank known controls
  rw [splitPolicy, heard] at done
  obtain ⟨valid, accepted, split⟩ := Transition.ok_of_bind done
  clear done
  cases found : (state.node rank).agent level with
  | root role =>
      rw [found] at plays
      exact absurd plays.1 inner
  | tree role =>
      have progress : (state.node rank).progress (level + 1) = (Agent.tree role).progress := by
        rw [Node.progress, found]
      rw [found] at split
      obtain ⟨⟨doSend, agent⟩, descended, ends⟩ := Transition.ok_of_bind split
      clear split
      rw [Agent.descend] at descended
      cases descends : role.descend valid with
      | error reason =>
          rw [descends] at descended
          cases descended
      | ok result =>
          obtain ⟨result, grown⟩ := result
          rw [descends] at descended
          cases descended
          cases TreeRole.descend_cases descends with
          | inr stays =>
              obtain ⟨rfl, rfl⟩ := stays
              cases ends
              have same : Function.update (state.node rank).agent level (.tree grown) = (state.node rank).agent := by
                rw [← found, Function.update_eq_self]
              refine ⟨passing.setNode _ same fun _ generation => ⟨generation.links 0 rank, generation.leaves rank⟩, rfl, ?_⟩
              rw [if_neg Bool.false_ne_true, State.setNode_node_self]
              exact accepted
          | inl sends =>
              obtain ⟨rfl, complete, other, step, following, grows⟩ := sends
              have announced := announces.validate accepted
              have reached : grown.stepCount = ((state.node (system.topology.parent (level + 1) rank)).agent
                  (level + 1)).stepCount :=
                Int.cast_injective (Number.value.inj (step.symm.trans announced.stepCount))
              have differs : role.stepCount ≠ grown.stepCount := fun same => other (by rw [same, step])
              have nonneg := announces.nonneg
              have sends : valid.Announces (Agent.tree grown).stepCount := by
                rw [Agent.stepCount, reached]
                exact announced
              have incomplete : grown.isStepComplete = false := congrArg TreeRole.isStepComplete grows
              have taken : grown.policy = valid := congrArg TreeRole.policy grows
              have late (active : (system.rootRole state).Active) : role.stepCount = 0 → False := by
                intro start
                have below := ((passing.generation active).links (level + 1) rank isLink).below
                rw [progress] at below
                have early := below start
                omega
              cases ends
              rw [if_pos rfl]
              refine ⟨passing.setAgent grown { state.node rank with
                inPolicy := valid, agent := Function.update (state.node rank).agent level (.tree grown) }
                (fun link => { link with policy := some grown.policy }) known controls inner rfl rfl ?_ ?_, ?_, ?_⟩
              · intro child isChild parent
                have conforms := passing.links level child isChild
                rw [parent, found] at conforms
                refine ⟨conforms.sendDown (taken.symm ▸ sends) ?_ ?_, fun active generation => ?_⟩
                · intro isNew
                  have start : grown.stepCount = -1 := isNew.1
                  omega
                · intro later
                  simp only [Agent.stepCount, Agent.isStepComplete, incomplete, Bool.false_eq_true, and_false,
                    or_false] at later
                  simp only [Agent.stepCount, Agent.isStepComplete, complete, and_true]
                  omega
                · have above := generation.links (level + 1) rank isLink
                  have before := generation.links level child isChild
                  rw [parent, found] at before
                  constructor
                  case limit =>
                      intro held same start
                      cases same
                      rw [taken]
                      have root : ((state.node (system.topology.parent (level + 1) rank)).agent (level + 1)).stepCount = 0 :=
                        reached.symm.trans start
                      exact passing.fits.validate known (above.limit policy sent root) accepted
                  case below =>
                      intro start
                      have early : role.stepCount ≤ 0 := before.below start
                      have notLate : role.stepCount ≠ 0 := late active
                      change grown.stepCount ≤ 0
                      omega
                  case sample => exact before.sample
                  case complete =>
                      intro done
                      have finished : grown.isStepComplete = true := congrArg Progress.isStepComplete done
                      rw [incomplete] at finished
                      cases finished
              · refine ⟨above.change fun _ _ => ?_, fun active generation => ?_⟩
                · simp only [Agent.progress, Agent.stepCount]
                  omega
                · have before := generation.links (level + 1) rank isLink
                  rw [progress] at before
                  have same : (Agent.tree role).progress ≠ ⟨0, true⟩ := fun done =>
                    late active (congrArg Progress.stepCount done)
                  constructor
                  case limit => exact before.limit
                  case below =>
                      intro start
                      have first : grown.stepCount = 0 := start
                      omega
                  case sample => exact fun sample held step => absurd (before.sample sample held step) same
                  case complete => exact fun done => absurd (before.complete done) same
              · funext other
                exact State.setLinks_link_other fun same => absurd same (Nat.succ_ne_self level)
              · rw [State.setLinks_node, State.setNode_node_self]
                exact accepted

/-- No node below the root is in the first step, and no sample of it is waiting. -/
def NoneAtStart (system : System) (state : State) : Prop :=
  ∀ level rank, system.topology.IsLink level rank → ((state.node rank).progress level).stepCount ≠ 0 ∧
    ∀ sample, (state.link level rank).sample = some sample → sample.stepCount ≠ .value 0

/-- The root may accept the total limit. -/
structure MayAccept (system : System) (first : ℚ) (state : State) (limit : Number) : Prop where
  fits : ∃ total, limit = .value total ∧ system.Fits total
  isFirst : (system.rootRole state).rootCap = .nan → limit = .value first
  changed : (system.rootRole state).rootCap ≠ .nan →
    (system.rootRole state).isStepComplete = true ∨ system.NoneAtStart state

theorem rootRole_eq {role : RootRole} (isRoot : level + 1 = system.topology.rootLevel)
    (found : (state.node 0).agent level = .root role) : system.rootRole state = role := by
  have highest : system.topology.rootLevel - 1 = level := by omega
  rw [rootRole, highest, found]

/-- Nothing of an earlier limit is left where no node is in the first step. -/
theorem NoneAtStart.current (noneAtStart : system.NoneAtStart state) {upper other : Nat}
    (isLink : system.topology.IsLink upper other) (inner : upper + 1 ≠ system.topology.rootLevel) :
    Current total (state.link upper other) ((state.node (system.topology.parent upper other)).agent upper)
      ((state.node other).progress upper) := by
  obtain ⟨parentKnown, parentControls⟩ := isLink.parent_known
  have parent := (noneAtStart (upper + 1) _ (Topology.isLink_above parentKnown parentControls inner)).1
  obtain ⟨child, sample⟩ := noneAtStart upper other isLink
  exact ⟨fun _ _ start => absurd start parent, fun start => absurd start child,
    fun held same start => absurd start (sample held same),
    fun complete => absurd (congrArg Progress.stepCount complete) parent⟩

/-- The root accepts a total limit and sends it. -/
theorem Passing.accept (passing : system.Passing first state) (role : RootRole) (node : Node)
    (isRoot : level + 1 = system.topology.rootLevel) (found : (state.node 0).agent level = .root role)
    (mayAccept : system.MayAccept first state (.value total)) (leaf : node.leaf = (state.node 0).leaf)
    (agents : node.agent = Function.update (state.node 0).agent level (.root { role with
      stepCount := 0, policy := RootRole.limitOf total, rootCap := .value total })) :
    system.Passing first ((state.setNode 0 node).setLinks level (system.topology.members level 0)
      fun link => { link with policy := some (RootRole.limitOf total) }) := by
  have controls : level < system.topology.numLevelCtl 0 := by
    rw [system.topology.root]
    omega
  have known := system.topology.some_rank
  have before := rootRole_eq isRoot found
  have plays := passing.agents level 0 known controls
  rw [found] at plays
  have sound : role.Sound := plays.2
  have fits : system.Fits total := by
    obtain ⟨other, same, fits⟩ := mayAccept.fits
    cases same
    exact fits
  have after : system.rootRole ((state.setNode 0 node).setLinks level (system.topology.members level 0)
      fun link => { link with policy := some (RootRole.limitOf total) }) = { role with
        stepCount := 0, policy := RootRole.limitOf total, rootCap := .value total } :=
    rootRole_eq isRoot (agent_changed agents)
  have due : system.due first ((state.setNode 0 node).setLinks level (system.topology.members level 0)
      fun link => { link with policy := some (RootRole.limitOf total) }) = total := by
    rw [System.due, after]
  have announces : (RootRole.limitOf total).Announces 0 :=
    ⟨by simp [RootRole.limitOf], Int.le_refl 0, fun later => absurd later (Int.lt_irrefl 0)⟩
  constructor
  case agents => exact passing.agents.setAgent agents ⟨isRoot, RootRole.Sound.accept⟩
  case links =>
      refine passing.links.setAgent agents _ known controls leaf (fun other isLink parent => ?_)
        fun inner => absurd isRoot inner
      have conforms := passing.links level other isLink
      rw [parent, found] at conforms
      refine conforms.sendDown announces (fun isNew => by cases isNew.1) fun past => ?_
      have complete : role.isStepComplete = true := past.elim (fun less => absurd less (Int.lt_irrefl 0)) And.right
      cases sound with
      | inl isNew => exact absurd complete (by rw [isNew.1.2.2]; exact Bool.false_ne_true)
      | inr runs =>
          have nonneg := runs.nonneg
          simp only [Agent.stepCount, Agent.isStepComplete, complete, and_true]
          omega
  case fits =>
      rw [due]
      exact fits
  case generation =>
      intro active
      rw [after] at active
      rw [due]
      have incomplete : role.isStepComplete = false := by
        rw [← Bool.not_eq_true]
        intro complete
        have step := Number.value.inj (active.2 complete)
        exact absurd step (by decide)
      have sends {link : Link} {child : Progress} (sample : ∀ sample, link.sample = some sample →
          sample.stepCount = .value 0 → child = ⟨0, true⟩) :
          Current total { link with policy := some (RootRole.limitOf total) } (.root { role with
            stepCount := 0, policy := RootRole.limitOf total, rootCap := .value total }) child := by
        refine ⟨?_, fun _ => Int.le_refl 0, sample, fun complete => ?_⟩
        · intro policy same _
          cases same
          rfl
        · have done : role.isStepComplete = true := congrArg Progress.isStepComplete complete
          rw [incomplete] at done
          cases done
      by_cases fresh : role.rootCap = .nan
      case pos =>
          have isFirst : total = first := Number.value.inj (mayAccept.isFirst (before ▸ fresh))
          have isNew : Agent.IsNew (.root role) := by
            cases sound with
            | inl isNew => exact isNew.1
            | inr runs =>
                obtain ⟨other, same⟩ := runs.rootCap
                rw [fresh] at same
                cases same
          have generation := passing.generation (by rw [before]; exact ⟨isNew.2.1, fun complete =>
            absurd complete (by rw [incomplete]; exact Bool.false_ne_true)⟩)
          rw [System.due, before, fresh, ← isFirst] at generation
          refine ⟨generation.links.setAgent agents _ known controls leaf (fun other isLink parent =>
            sends (generation.links level other isLink).sample) fun inner => absurd isRoot inner, fun other otherKnown start => ?_⟩
          rw [State.setLinks_node, leaf_setNode leaf] at start ⊢
          exact generation.leaves other otherKnown start
      case neg =>
          have noneAtStart := (mayAccept.changed (before ▸ fresh)).resolve_left (by
            rw [before, incomplete]
            exact Bool.false_ne_true)
          refine ⟨eachLink_setAgent agents _ known controls leaf (fun upper other isLink notBelow => ?_)
            (fun other isLink parent => sends fun held same start => absurd start ((noneAtStart level other isLink).2 held same))
            fun inner => absurd isRoot inner, fun other otherKnown start => ?_⟩
          · refine noneAtStart.current isLink fun top => notBelow ⟨?_, by omega⟩
            obtain ⟨parentKnown, parentControls⟩ := isLink.parent_known
            exact Topology.first_of_root parentKnown parentControls top
          · rw [State.setLinks_node, leaf_setNode leaf] at start
            have isLink : system.topology.IsLink 0 other := ⟨otherKnown, by omega, Nat.zero_le _⟩
            exact absurd start (noneAtStart 0 other isLink).1

/-- The root goes on to the next step and sends it. -/
theorem Passing.advance (passing : system.Passing first state) (role : RootRole) (node : Node)
    (isRoot : level + 1 = system.topology.rootLevel) (found : (state.node 0).agent level = .root role)
    (runs : role.Runs) (following : role.policy.stepCount = .value (role.stepCount + 1))
    (leaf : node.leaf = (state.node 0).leaf)
    (agents : node.agent = Function.update (state.node 0).agent level (.root { role with
      stepCount := role.stepCount + 1, isStepComplete := false })) :
    system.Passing first ((state.setNode 0 node).setLinks level (system.topology.members level 0)
      fun link => { link with policy := some role.policy }) := by
  have controls : level < system.topology.numLevelCtl 0 := by
    rw [system.topology.root]
    omega
  have known := system.topology.some_rank
  have nonneg := runs.nonneg
  obtain ⟨advanced, complete⟩ := runs.advance following
  have before := rootRole_eq isRoot found
  have after : system.rootRole ((state.setNode 0 node).setLinks level (system.topology.members level 0)
      fun link => { link with policy := some role.policy }) = { role with
        stepCount := role.stepCount + 1, isStepComplete := false } :=
    rootRole_eq isRoot (agent_changed agents)
  constructor
  case agents => exact passing.agents.setAgent agents ⟨isRoot, .inr advanced⟩
  case links =>
      refine passing.links.setAgent agents _ known controls leaf (fun other isLink parent => ?_)
        fun inner => absurd isRoot inner
      have conforms := passing.links level other isLink
      rw [parent, found] at conforms
      have announces := (advanced.announces.resolve_right fun later => by cases later.2).1
      refine conforms.sendDown announces (fun isNew => ?_) fun _ => ?_
      · have step : role.stepCount + 1 = 0 := isNew.2.1
        omega
      · simp only [Agent.stepCount, Agent.isStepComplete, complete, and_true]
        omega
  case fits =>
      have same := passing.fits
      rw [due, before] at same
      rw [due, after]
      exact same
  case generation =>
      intro active
      rw [after] at active
      have step : role.stepCount + 1 = 0 := active.1
      omega

theorem splitPolicy_root_passes (passing : system.Passing first state)
    (isRoot : level + 1 = system.topology.rootLevel)
    (mayAccept : ∀ valid, (state.node 0).inPolicy.validate (system.settings 0) = .ok valid →
      valid.powerPackageLimitTotal.eq (system.rootRole state).rootCap = false →
        system.MayAccept first state valid.powerPackageLimitTotal)
    (done : system.splitPolicy level 0 state = .ok next) :
    system.Passing first next ∧ ¬((next.node 0).agent level).IsNew := by
  have controls : level < system.topology.numLevelCtl 0 := by
    rw [system.topology.root]
    omega
  have plays := passing.agents level 0 system.topology.some_rank controls
  rw [splitPolicy] at done
  obtain ⟨valid, accepted, split⟩ := Transition.ok_of_bind done
  clear done
  cases found : (state.node 0).agent level with
  | tree role =>
      rw [found] at plays
      exact absurd isRoot plays
  | root role =>
      rw [found] at plays split
      have before := rootRole_eq isRoot found
      obtain ⟨⟨doSend, agent⟩, descended, ends⟩ := Transition.ok_of_bind split
      clear split
      rw [Agent.descend] at descended
      cases descends : role.descend (system.settings 0) valid with
      | error reason =>
          rw [descends] at descended
          cases descended
      | ok result =>
          obtain ⟨result, grown⟩ := result
          rw [descends] at descended
          cases descended
          cases limit : valid.powerPackageLimitTotal.eq role.rootCap with
          | false =>
              have mayAccept := mayAccept valid accepted (before ▸ limit)
              obtain ⟨total, same, fits⟩ := mayAccept.fits
              obtain rfl := RootRole.descend_changed limit descends
              have reset := RootRole.descend_reset limit descends
              rw [same] at mayAccept reset
              subst reset
              cases ends
              refine ⟨passing.accept role _ isRoot found mayAccept rfl rfl, ?_⟩
              rw [if_pos rfl, State.setLinks_node, agent_changed rfl]
              exact fun isNew => by cases isNew.1
          | true =>
              have runs : role.Runs := by
                refine plays.2.resolve_left fun isNew => ?_
                rw [isNew.1.1, Number.eq_nan] at limit
                cases limit
              obtain ⟨total, cap⟩ := runs.rootCap
              cases RootRole.descend_same limit descends with
              | inl sends =>
                  obtain ⟨rfl, following, rfl⟩ := sends
                  cases ends
                  refine ⟨passing.advance role _ isRoot found runs following rfl rfl, ?_⟩
                  rw [if_pos rfl, State.setLinks_node, agent_changed rfl]
                  intro isNew
                  cases cap.symm.trans isNew.1
              | inr stays =>
                  obtain ⟨rfl, rfl⟩ := stays
                  cases ends
                  have same : Function.update (state.node 0).agent level (.root grown) = (state.node 0).agent := by
                    rw [← found, Function.update_eq_self]
                  refine ⟨passing.setNode _ same fun _ generation => ⟨generation.links 0 0, generation.leaves 0⟩, ?_⟩
                  rw [if_neg Bool.false_ne_true, agent_changed rfl]
                  intro isNew
                  cases cap.symm.trans isNew.1

/-- One round of the loop of `walk_down` below the root. -/
theorem walkLevel_descended {walk : Bool × State} (known : rank < system.topology.numRank)
    (controls : level < system.topology.numLevelCtl rank) (inner : level + 1 ≠ system.topology.rootLevel)
    (descended : system.Descended first (level + 1) rank walk) :
    Outcome.Keeps (fun _ => True) (system.Descended first level rank) (system.walkLevel rank walk level) := by
  obtain ⟨doSend, state⟩ := walk
  rw [walkLevel]
  cases doSend with
  | true =>
      cases sent : (state.link (level + 1) rank).policy with
      | none => exact absurd sent (descended.sent rfl)
      | some policy =>
          refine Outcome.keeps_bind (fun _ _ => trivial) fun next split => ?_
          obtain ⟨passing, link, accepted⟩ :=
            splitPolicy_passes descended.passing known controls inner sent (descended.told.sent policy sent) split
          refine receiveDown_descended passing fun none active valid validated => ?_
          have told := passing.told_first known controls inner (link ▸ sent) none active
          exact passing.fits.validate known (passing.fits.validate known told accepted) validated
  | false =>
      refine receiveDown_descended descended.passing fun none active valid validated => ?_
      cases sent : (state.link (level + 1) rank).policy with
      | none => exact descended.told.silent sent active valid validated
      | some policy =>
          rw [descended.told.sent policy sent] at validated
          have told := descended.passing.told_first known controls inner sent none active
          exact descended.passing.fits.validate known told validated

/-- The first round of the loop at the root. -/
theorem walkLevel_root_descended {walk : Bool × State} (isRoot : level + 1 = system.topology.rootLevel)
    (passing : system.Passing first walk.2)
    (mayAccept : walk.1 = true → ∀ valid, (walk.2.node 0).inPolicy.validate (system.settings 0) = .ok valid →
      valid.powerPackageLimitTotal.eq (system.rootRole walk.2).rootCap = false →
        system.MayAccept first walk.2 valid.powerPackageLimitTotal)
    (silent : walk.1 = false → ((walk.2.node 0).agent level).IsNew →
      ∀ valid, (walk.2.node 0).inPolicy.validate (system.settings 0) = .ok valid →
        valid.powerPackageLimitTotal = .value (system.due first walk.2)) :
    Outcome.Keeps (fun _ => True) (system.Descended first level 0) (system.walkLevel 0 walk level) := by
  obtain ⟨doSend, state⟩ := walk
  have controls : level < system.topology.numLevelCtl 0 := by
    rw [system.topology.root]
    omega
  have isNew {reached : State} (passing : system.Passing first reached)
      (none : (reached.link level 0).policy = none) : ((reached.node 0).agent level).IsNew := by
    have below := passing.links level 0 (Topology.isLink_self system.topology.some_rank controls)
    have isNew := below.silent.mp none
    rwa [system.topology.parent_self 0 system.topology.some_rank level controls] at isNew
  rw [walkLevel]
  cases doSend with
  | true =>
      refine Outcome.keeps_bind (fun _ _ => trivial) fun next split => ?_
      obtain ⟨passes, known⟩ := splitPolicy_root_passes passing isRoot (mayAccept rfl) split
      exact receiveDown_descended passes fun none => absurd (isNew passes none) known
  | false =>
      exact receiveDown_descended passing fun none _ => silent rfl (isNew passing none)

/-- The policy that the root reads does not change what it may accept. -/
theorem MayAccept.setNode {limit : Number} (mayAccept : system.MayAccept first state limit)
    (agents : node.agent = (state.node rank).agent) (leaf : node.leaf = (state.node rank).leaf) :
    system.MayAccept first (state.setNode rank node) limit := by
  have root : system.rootRole (state.setNode rank node) = system.rootRole state := rootRole_setNode agents
  refine ⟨mayAccept.fits, by rw [root]; exact mayAccept.isFirst, fun some => ?_⟩
  rw [root] at some ⊢
  refine (mayAccept.changed some).imp_right fun noneAtStart level other isLink => ?_
  rw [progress_setNode agents leaf]
  exact noneAtStart level other isLink

/-- The end of `walk_down`. -/
theorem adjustPlatform_passes {walk : Bool × State} {clock : Nat → ℚ} (tree : system.topology.rootLevel ≠ 0)
    (known : rank < system.topology.numRank) (descended : system.Descended first 0 rank walk)
    (done : system.adjustPlatform rank clock walk.2 = .ok next) : system.Passing first next := by
  have isLink : system.topology.IsLink 0 rank := ⟨known, Nat.pos_of_ne_zero tree, Nat.zero_le _⟩
  have many : system.isSingleNode = false := decide_eq_false tree
  have passing := descended.passing
  rw [adjustPlatform, many] at done
  obtain ⟨valid, accepted, adjusts⟩ := Transition.ok_of_bind done
  obtain ⟨⟨adjusted, leaf⟩, adjusting, ends⟩ := Transition.ok_of_bind adjusts
  clear done adjusts
  cases ends
  refine passing.setNode _ rfl fun active generation => ?_
  have now := generation.links 0 rank isLink
  have resets (given : valid.powerPackageLimitTotal = .value (system.due first walk.2))
      (early : ((walk.2.node (system.topology.parent 0 rank)).agent 0).stepCount ≤ 0) :
      Current (system.due first walk.2) (walk.2.link 0 rank) ((walk.2.node (system.topology.parent 0 rank)).agent 0)
        leaf.progress ∧ leaf.Capped (system.due first walk.2) := by
    obtain ⟨progress, capped⟩ := LeafRole.adjustPlatform_resets given passing.fits.1 adjusting
    rw [progress]
    exact ⟨⟨now.limit, fun _ => early, fun _ _ _ => rfl, fun _ => rfl⟩, capped⟩
  cases sent : (walk.2.link 0 rank).policy with
  | none =>
      have parentNew := (passing.links 0 rank isLink).silent.mp sent
      have early : ((walk.2.node (system.topology.parent 0 rank)).agent 0).stepCount ≤ 0 := by
        cases role : (walk.2.node (system.topology.parent 0 rank)).agent 0 with
        | tree role =>
            rw [role] at parentNew
            rw [Agent.stepCount, parentNew.1]
            decide
        | root role =>
            rw [role] at parentNew
            exact Int.le_of_eq parentNew.2.1
      obtain ⟨link, capped⟩ := resets (descended.told.silent sent active valid accepted) early
      exact ⟨fun _ => link, fun _ _ => capped⟩
  | some policy =>
      have announces := (passing.links 0 rank isLink).sent policy sent
      rw [descended.told.sent policy sent] at accepted
      by_cases start : ((walk.2.node (system.topology.parent 0 rank)).agent 0).stepCount = 0
      case pos =>
          have given := passing.fits.validate known (now.limit policy sent start) accepted
          obtain ⟨link, capped⟩ := resets given start.le
          exact ⟨fun _ => link, fun _ _ => capped⟩
      case neg =>
          have nonneg := announces.nonneg
          have announced := announces.validate accepted
          have later : ((walk.2.node rank).progress 0).stepCount ≠ 0 := by
            intro first
            have early := now.below first
            omega
          have leafLater : leaf.stepCount ≠ 0 := by
            cases LeafRole.adjustPlatform_advances (announced.limit (by omega)) adjusting with
            | inl same =>
                have step : leaf.stepCount = (walk.2.node rank).leaf.stepCount := congrArg Progress.stepCount same
                rw [step]
                exact later
            | inr step =>
                have reached : leaf.stepCount = ((walk.2.node (system.topology.parent 0 rank)).agent 0).stepCount :=
                  Int.cast_injective (Number.value.inj (step.symm.trans announced.stepCount))
                rw [reached]
                exact start
          refine ⟨fun _ => ⟨now.limit, fun first => absurd first leafLater, fun held same first => ?_, fun complete => ?_⟩,
            fun _ first => absurd first leafLater⟩
          · exact absurd (congrArg Progress.stepCount (now.sample held same first)) later
          · exact absurd (congrArg Progress.stepCount complete) start

/-- A leaf that has not heard of its parent has the total limit that is due. -/
def KnowsLimit (system : System) (first : ℚ) (state : State) (rank : Nat) (inPolicy : Policy) : Prop :=
  (system.rootRole state).Active → ∀ valid, inPolicy.validate (system.settings rank) = .ok valid →
    valid.powerPackageLimitTotal = .value (system.due first state)

/-- Whether the policy of a walk down may be taken. -/
def TakesInOrder (system : System) (first : ℚ) (state : State) (rank : Nat) (endpointPolicy : Policy) : Prop :=
  if rank = 0 then
    let read := (system.source endpointPolicy).read Policy.same (state.node 0).lastPolicy
    let inPolicy := (system.source endpointPolicy).policy
    if read.1 = true then ∀ valid, inPolicy.validate (system.settings 0) = .ok valid →
      valid.powerPackageLimitTotal.eq (system.rootRole state).rootCap = false →
        system.MayAccept first state valid.powerPackageLimitTotal
    else (system.rootRole state).rootCap = .nan → system.KnowsLimit first state 0 inPolicy
  else (state.link (system.topology.numLevelCtl rank) rank).policy = none →
    system.KnowsLimit first state rank (state.node rank).inPolicy

theorem walkDown_passes {endpointPolicy : Policy} {clock : Nat → ℚ} (passing : system.Passing first state)
    (tree : system.topology.rootLevel ≠ 0) (known : rank < system.topology.numRank)
    (takes : system.TakesInOrder first state rank endpointPolicy) :
    Outcome.Keeps (fun _ => True) (system.Passing first) (system.walkDown rank endpointPolicy clock state) := by
  have below {walk : Bool × State} {level : Nat} (controlled : level ≤ system.topology.numLevelCtl rank)
      (inside : level < system.topology.rootLevel) (descended : system.Descended first level rank walk) :
      Outcome.Keeps (fun _ => True) (system.Descended first 0 rank)
        ((List.range level).reverse.foldlM (system.walkLevel rank) walk) :=
    @Outcome.keeps_range_reverse _ _ _ (fun level => system.Descended first level rank) _ _ _ descended
      fun index walk under descended => walkLevel_descended known (by omega) (by omega) descended
  rw [walkDown]
  refine Outcome.Keeps.bind ?_ fun walk descended =>
    Outcome.keeps_of_ok fun next done => adjustPlatform_passes tree known descended done
  rw [TakesInOrder] at takes
  by_cases isFirst : rank = 0
  case neg =>
      rw [if_neg isFirst] at takes
      have inside := system.topology.below rank known isFirst
      refine below (Nat.le_refl _) inside ?_
      rw [startWalk, if_neg (Nat.ne_of_lt inside)]
      exact receiveDown_descended passing takes
  case pos =>
      subst isFirst
      rw [if_pos rfl] at takes
      obtain ⟨highest, top⟩ := Nat.exists_eq_succ_of_ne_zero tree
      rw [startWalk, if_pos system.topology.root, system.topology.root, top, List.range_succ, List.reverse_append,
        List.reverse_singleton, List.singleton_append, List.foldlM_cons]
      let read := (system.source endpointPolicy).read Policy.same (state.node 0).lastPolicy
      have start : system.Passing first (state.setNode 0 { state.node 0 with
          inPolicy := (system.source endpointPolicy).policy, lastPolicy := read.2 }) :=
        passing.setNode _ rfl fun _ generation => ⟨generation.links 0 0, generation.leaves 0⟩
      have root : system.rootRole (state.setNode 0 { state.node 0 with
          inPolicy := (system.source endpointPolicy).policy, lastPolicy := read.2 }) = system.rootRole state := rootRole_setNode rfl
      refine (walkLevel_root_descended top.symm start ?_ ?_).bind fun walk descended =>
        below (by rw [system.topology.root, top]; omega) (by omega) descended
      · intro reads valid accepted changed
        rw [State.setNode_node_self] at accepted
        rw [root] at changed
        rw [if_pos reads] at takes
        exact (takes valid accepted changed).setNode rfl rfl
      · intro silent isNew valid accepted
        rw [State.setNode_node_self] at isNew accepted
        rw [if_neg (by rw [silent]; exact Bool.false_ne_true)] at takes
        rw [due_congr root]
        have controls : highest < system.topology.numLevelCtl 0 := by
          rw [system.topology.root, top]
          omega
        have plays := passing.agents highest 0 system.topology.some_rank controls
        cases found : (state.node 0).agent highest with
        | tree role =>
            rw [found] at plays
            exact absurd top.symm plays
        | root role =>
            rw [found] at isNew
            have before := rootRole_eq top.symm found
            rw [before] at takes
            refine takes isNew.1 ?_ valid accepted
            rw [before]
            exact ⟨isNew.2.1, fun complete => absurd complete (by rw [isNew.2.2]; exact Bool.false_ne_true)⟩

/-- How far `walk_up` has come: a sample that is sent reports a step that is complete. -/
structure Ascended (system : System) (first : ℚ) (level rank : Nat) (walk : Option Sample × State) : Prop where
  passing : system.Passing first walk.2
  carried : ∀ sample, walk.1 = some sample →
    sample.stepCount = .value ((walk.2.node rank).progress level).stepCount ∧
      ((walk.2.node rank).progress level).isStepComplete = true ∧
      (level ≠ 0 → ((walk.2.node rank).progress level).stepCount ≠ -1)

theorem sendSample_passes {walk : Option Sample × State} (ascended : system.Ascended first level rank walk) :
    system.Passing first (sendSample level rank walk) ∧ (sendSample level rank walk).node = walk.2.node := by
  obtain ⟨carried, state⟩ := walk
  cases carried with
  | none => exact ⟨ascended.passing, rfl⟩
  | some sample =>
      obtain ⟨step, complete, upper⟩ := ascended.carried sample rfl
      refine ⟨ascended.passing.setLinks (fun link => { link with sample := some sample })
        fun other member isLink => ?_, rfl⟩
      obtain rfl := List.mem_singleton.mp member
      refine ⟨(ascended.passing.links level other isLink).sendUp upper, fun _ generation =>
        (generation.links level other isLink).sendUp fun start => ?_⟩
      have zero : ((state.node other).progress level).stepCount = 0 :=
        Int.cast_injective (Number.value.inj (step.symm.trans (start.trans (by rw [Int.cast_zero]))))
      generalize (state.node other).progress level = progress at zero complete ⊢
      obtain ⟨stepCount, isComplete⟩ := progress
      rw [show stepCount = 0 from zero, show isComplete = true from complete]

/-- The start of `walk_up`. -/
theorem samplePlatform_ascended {measured : Nat → Measured} (passing : system.Passing first state) :
    Outcome.Keeps (fun _ => True) (system.Ascended first 0 rank) (system.samplePlatform rank measured state) := by
  rw [samplePlatform]
  refine Outcome.keeps_bind (fun _ _ => trivial) fun result done => ?_
  have facts := LeafRole.samplePlatform_follows (system.settings rank) (state.node rank).leaf system.isSingleNode measured
  rw [done] at facts
  obtain ⟨doSend, outSample, leaf⟩ := result
  obtain ⟨step, same, complete, stays⟩ := facts
  refine ⟨passing.setNode _ rfl fun _ generation => ⟨fun isLink => ?_, fun known start => ?_⟩, ?_⟩
  · exact (generation.links 0 rank isLink).grow same fun finished => complete.symm.trans (stays finished)
  · have before : (state.node rank).leaf.stepCount = 0 := same.symm.trans start
    have packages : leaf.packages = (state.node rank).leaf.packages := LeafRole.samplePlatform_first before done
    have capped := generation.leaves rank known before
    intro package member
    change package ∈ leaf.packages at member
    change _ = Number.value (_ / (leaf.packages.length : ℚ))
    rw [packages] at member ⊢
    exact capped package member
  · intro sample carried
    cases doSend with
    | false => cases carried
    | true =>
        cases carried
        rw [State.setNode_node_self]
        exact ⟨by rw [step, ← same]; rfl, complete.symm, fun upper => absurd rfl upper⟩

end System

end Balancer

end Geopm
