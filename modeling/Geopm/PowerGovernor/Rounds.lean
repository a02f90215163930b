import Geopm.PowerGovernor.Settles
import Geopm.PowerGovernor.Written

namespace Geopm

/-! Rounds of walks after which all nodes have the budget of the root. -/

namespace PowerGovernor

open Controllers (State Node)
open Controllers.System (Action sendSample)

variable {job : Job} {rank level : Nat} {power : ℚ} {policy : Number} {state next : State Number Sample LevelAgent}

/-- The root does not send a policy of the endpoint again. Then its own agents have it. -/
def Remembers (job : Job) (root : Node Number Sample LevelAgent) : Prop :=
  0 < job.system.topology.rootLevel → job.filePolicy = none → ∀ power, root.lastPolicy = .value power →
    (root.agent job.system.topology.rootLevel).base.lastPowerBudget = .value (clamp (job.settings 0) power)

structure Steady (job : Job) (state : State Number Sample LevelAgent) : Prop where
  synced : Synced job state
  remembers : Remembers job (state.node 0)

/-- What a node finds when it walks down, if it is to have the budget then. -/
def Finds (job : Job) (power : ℚ) (rank : Nat) (policy : Number) (state : State Number Sample LevelAgent) : Prop :=
  if rank = 0 then (job.system.source policy).policy = .value power
  else Settled job power (parentOf job rank) (state.node (parentOf job rank))

/-- The policy of the root is that of the endpoint, or has been sent. -/
theorem source_same (same : ((job.system.source policy).read job.system.same (state.node 0).lastPolicy).1 = false) :
    job.filePolicy = none ∧ ((job.system.source policy).policy = .value power → (state.node 0).lastPolicy = .value power) := by
  cases file : job.filePolicy with
  | some policy =>
      simp [Controllers.System.source, Job.system, file, PolicySource.read] at same
  | none =>
      refine ⟨rfl, fun given => ?_⟩
      have source : job.system.source policy = .endpoint policy := by simp [Controllers.System.source, Job.system, file]
      rw [source] at same given
      have given : policy = .value power := given
      rw [given, PolicySource.read] at same
      by_cases equal : job.system.same (.value power) (state.node 0).lastPolicy = true
      · have values : samePolicy [.value power] [(state.node 0).lastPolicy] = true := equal
        have met : (Number.value power).eq (state.node 0).lastPolicy = true := by
          simpa [samePolicy] using values
        exact (Number.of_eq met).symm
      · rw [if_neg equal] at same
        cases same

/-- The start of a walk down. -/
structure Started (job : Job) (power : ℚ) (rank : Nat) (policy : Number) (state : State Number Sample LevelAgent)
    (start : Bool × State Number Sample LevelAgent) : Prop where
  synced : Synced job start.2
  others : ∀ other ≠ rank, start.2.node other = state.node other
  agent : (start.2.node rank).agent = (state.node rank).agent
  lastPolicy : rank = 0 → job.filePolicy = none → ∀ given, (start.2.node 0).lastPolicy = .value given →
    if start.1 then (start.2.node 0).inPolicy = .value given else (state.node 0).lastPolicy = .value given
  settling : Finds job power rank policy state →
    Settling job (budgetOf job power rank) rank (job.system.topology.numLevelCtl rank) start

theorem startWalk_root (ordered : Ordered job) (steady : Steady job state) :
    Started job power 0 policy state (job.system.startWalk 0 policy state) := by
  rw [Controllers.System.startWalk, if_pos job.system.topology.root]
  refine ⟨steady.synced.setPolicy rfl rfl, fun _ apart => State.setNode_node_other apart, ?_, fun _ none given last => ?_,
    fun finds => ⟨?_, ?_, fun upper above inside => absurd inside (Nat.not_lt.mpr above)⟩⟩
  · rw [State.setNode_node_self]
  · rw [State.setNode_node_self] at last ⊢
    have source : job.system.source policy = .endpoint policy := by
      simp [Controllers.System.source, Job.system, none]
    simp only [source, PolicySource.read] at last ⊢
    by_cases equal : job.system.same policy (state.node 0).lastPolicy = true
    · rw [if_pos equal] at last ⊢
      exact last
    · rw [if_neg equal] at last ⊢
      exact last
  · refine ⟨power, ?_, (budgetOf_root ordered).symm⟩
    rw [State.setNode_node_self]
    rw [Finds, if_pos rfl] at finds
    exact finds
  · rw [Finds, if_pos rfl] at finds
    cases sends : ((job.system.source policy).read job.system.same (state.node 0).lastPolicy).1 with
    | true => exact .inl rfl
    | false =>
        obtain ⟨none, last⟩ := source_same sends
        refine .inr ?_
        rw [job.system.topology.root, State.setNode_node_self, budgetOf_root ordered]
        by_cases single : job.system.topology.rootLevel = 0
        · exact .inl single
        · exact .inr (steady.remembers (Nat.pos_of_ne_zero single) none power (last finds))

theorem startWalk_below (ordered : Ordered job) (synced : Synced job state) (known : rank < job.system.topology.numRank)
    (inner : rank ≠ 0) : Started job power rank policy state (job.system.startWalk rank policy state) := by
  have below := job.system.topology.below rank known inner
  obtain ⟨kept, stays, received⟩ := receiveDown_link synced ⟨known, below, Nat.le_refl _⟩
  rw [Controllers.System.startWalk, if_neg (Nat.ne_of_lt below)]
  refine ⟨kept, stays.others, funext fun level => stays.agents level not_false, fun root => absurd root inner,
    fun finds => ?_⟩
  rw [Finds, if_neg inner] at finds
  have controls := (job.system.topology.parent_known rank known _ below (Nat.le_refl _)).2
  obtain ⟨sends, inPolicy⟩ := received _ (finds.agents _ controls)
  exact ⟨⟨_, inPolicy, (budgetOf_parent ordered known below).symm⟩, .inl sends,
    fun upper above inside => absurd inside (Nat.not_lt.mpr above)⟩

theorem startWalk_started (ordered : Ordered job) (steady : Steady job state) (known : rank < job.system.topology.numRank) :
    Started job power rank policy state (job.system.startWalk rank policy state) := by
  by_cases root : rank = 0
  · subst root
    exact startWalk_root ordered steady
  · exact startWalk_below ordered steady.synced known root

/-- A walk down throws nothing. After it the node has the budget if it has found it. -/
structure WalkedDown (job : Job) (power : ℚ) (rank : Nat) (policy : Number) (state next : State Number Sample LevelAgent) :
    Prop where
  steady : Steady job next
  others : ∀ other ≠ rank, next.node other = state.node other
  settled : Finds job power rank policy state → Settled job power rank (next.node rank)

theorem walkDown_settles (ordered : Ordered job) (steady : Steady job state) (known : rank < job.system.topology.numRank) :
    Outcome.Keeps (fun _ => False) (WalkedDown job power rank policy state) (job.system.walkDown rank policy state) := by
  have started := @startWalk_started job rank power policy state ordered steady known
  rw [Controllers.System.walkDown]
  refine (@walkLevels_looped job rank (budgetOf job power rank) _ ordered known started.synced).bind fun walk looped => ?_
  refine (adjustPlatform_adjusted looped.synced).mono fun next adjusted => ?_
  have others : ∀ other ≠ rank, next.node other = state.node other := by
    intro other apart
    rw [adjusted.stays.others other apart, looped.stays.others other apart, started.others other apart]
  refine ⟨⟨adjusted.synced, ?_⟩, others, fun finds => ?_⟩
  · by_cases root : rank = 0
    · subst root
      intro above none given last
      rw [adjusted.stays.lastPolicy, looped.stays.lastPolicy] at last
      have sent := started.lastPolicy rfl none given last
      have top := looped.top (by rw [job.system.topology.root]; exact above)
      rw [job.system.topology.root] at top
      rw [adjusted.stays.agents _ (Nat.ne_of_gt above), top]
      by_cases sends : (job.system.startWalk 0 policy state).1 = true
      · rw [if_pos sends] at sent ⊢
        rw [sent]
        rfl
      · rw [if_neg sends] at sent ⊢
        rw [started.agent]
        exact steady.remembers above none given sent
    · rw [others 0 fun same => root same.symm]
      exact steady.remembers
  · obtain ⟨⟨given, inPolicy, clamped⟩, _, above⟩ := looped.settling (started.settling finds)
    obtain ⟨leaf, controls⟩ := adjusted.leaf (budgetOf job power rank) (by rw [inPolicy]; exact clamped)
    refine ⟨fun level inside => ?_, controls⟩
    cases level with
    | zero => exact leaf
    | succ level =>
        rw [adjusted.stays.agents (level + 1) (Nat.succ_ne_zero level)]
        exact above level (Nat.zero_le level) inside

/-- What a walk up leaves of an agent. -/
structure SameAgent (agent after : LevelAgent) : Prop where
  settings : after.settings = agent.settings
  lastPowerBudget : after.base.lastPowerBudget = agent.base.lastPowerBudget
  powerGov : after.base.powerGov = agent.base.powerGov
  maxSize : after.base.epochPowerBuf.maxSize = agent.base.epochPowerBuf.maxSize

/-- What a walk up leaves of the nodes and the links. -/
structure SameBudgets (state next : State Number Sample LevelAgent) : Prop where
  agent : ∀ rank level, SameAgent ((state.node rank).agent level) ((next.node rank).agent level)
  lastPolicy : ∀ rank, (next.node rank).lastPolicy = (state.node rank).lastPolicy
  outPolicy : ∀ rank, (next.node rank).outPolicy = (state.node rank).outPolicy
  policy : ∀ level rank, (next.link level rank).policy = (state.link level rank).policy

theorem SameAgent.refl (agent : LevelAgent) : SameAgent agent agent := ⟨rfl, rfl, rfl, rfl⟩

theorem SameBudgets.refl (state : State Number Sample LevelAgent) : SameBudgets state state :=
  ⟨fun _ _ => .refl _, fun _ => rfl, fun _ => rfl, fun _ _ => rfl⟩

theorem SameAgent.trans {agent middle after : LevelAgent} (first : SameAgent agent middle) (second : SameAgent middle after) :
    SameAgent agent after where
  settings := second.settings.trans first.settings
  lastPowerBudget := second.lastPowerBudget.trans first.lastPowerBudget
  powerGov := second.powerGov.trans first.powerGov
  maxSize := second.maxSize.trans first.maxSize

theorem SameBudgets.trans {middle : State Number Sample LevelAgent} (first : SameBudgets state middle)
    (second : SameBudgets middle next) : SameBudgets state next where
  agent rank level := (first.agent rank level).trans (second.agent rank level)
  lastPolicy rank := (second.lastPolicy rank).trans (first.lastPolicy rank)
  outPolicy rank := (second.outPolicy rank).trans (first.outPolicy rank)
  policy level rank := (second.policy level rank).trans (first.policy level rank)

theorem SameBudgets.synced (same : SameBudgets state next) (synced : Synced job state) : Synced job next where
  settings rank level := (same.agent rank level).settings.trans (synced.settings rank level)
  valid rank level budget last := synced.valid rank level budget ((same.agent rank (level + 1)).lastPowerBudget.symm.trans last)
  passed level rank isLink := by
    rw [same.policy, (same.agent _ (level + 1)).lastPowerBudget]
    exact synced.passed level rank isLink
  children rank level := same.outPolicy rank ▸ synced.children rank level
  governs rank := by
    have governs := synced.governs rank
    obtain ⟨_, _, powerGov, maxSize⟩ := same.agent rank 0
    exact ⟨powerGov ▸ governs.numPkg, powerGov ▸ governs.low, powerGov ▸ governs.high, powerGov ▸ governs.held,
      maxSize.trans governs.maxSize⟩

theorem SameBudgets.steady (same : SameBudgets state next) (steady : Steady job state) : Steady job next where
  synced := same.synced steady.synced
  remembers above none given last := by
    rw [same.lastPolicy] at last
    rw [(same.agent 0 _).lastPowerBudget]
    exact steady.remembers above none given last

theorem SameBudgets.settled (same : SameBudgets state next) (settled : Settled job power rank (state.node rank)) :
    Settled job power rank (next.node rank) where
  agents level inside := (same.agent rank level).lastPowerBudget.trans (settled.agents level inside)
  controls := (same.agent rank 0).powerGov ▸ settled.controls

theorem sameBudgets_setAgent {agent : LevelAgent} {node : Node Number Sample LevelAgent}
    (kept : SameAgent ((state.node rank).agent level) agent)
    (agents : node.agent = Function.update (state.node rank).agent level agent)
    (lastPolicy : node.lastPolicy = (state.node rank).lastPolicy) (outPolicy : node.outPolicy = (state.node rank).outPolicy) :
    SameBudgets state (state.setNode rank node) := by
  refine ⟨fun other upper => ?_, fun other => ?_, fun other => ?_, fun _ _ => rfl⟩
  · by_cases same : other = rank
    · subst same
      rw [State.setNode_node_self, agents]
      by_cases here : upper = level
      · rw [here, Function.update_self]
        exact kept
      · rw [Function.update_of_ne here]
        exact .refl _
    · rw [State.setNode_node_other same]
      exact .refl _
  · by_cases same : other = rank
    · rw [same, State.setNode_node_self, lastPolicy]
    · rw [State.setNode_node_other same]
  · by_cases same : other = rank
    · rw [same, State.setNode_node_self, outPolicy]
    · rw [State.setNode_node_other same]

theorem sameBudgets_setLinks {change : Nat → Controllers.Link Number Sample → Controllers.Link Number Sample}
    (kept : ∀ rank link, (change rank link).policy = link.policy) : SameBudgets state (state.setLinks level change) := by
  refine ⟨fun _ _ => .refl _, fun _ => rfl, fun _ => rfl, fun upper other => ?_⟩
  by_cases same : upper = level
  · subst same
    simp [State.setLinks, kept]
  · simp [State.setLinks, same]

theorem sameBudgets_sendSample {walk : Bool × State Number Sample LevelAgent} :
    SameBudgets walk.2 (sendSample level rank walk) := by
  rw [sendSample]
  split
  · refine sameBudgets_setLinks fun other link => ?_
    split
    · rfl
    · rfl
  · exact .refl _

theorem sameBudgets_receiveUp : SameBudgets state (job.system.receiveUp level rank state).2 := by
  have mailboxes : ∀ change, SameBudgets state
      (state.setMailboxes level (job.system.topology.members level rank) change) := by
    intro change
    refine sameBudgets_setLinks fun other link => ?_
    split
    · rfl
    · rfl
  rw [Controllers.System.receiveUp]
  cases (job.system.topology.members level rank).mapM fun child => (state.link level child).samples.slot with
  | none => exact .refl _
  | some samples =>
      change SameBudgets state (if _ then _ else _ : Option (List Sample) × State Number Sample LevelAgent).2
      split
      · exact mailboxes _
      · exact mailboxes _

theorem riseLevel_same {walk : Bool × State Number Sample LevelAgent} :
    Outcome.Keeps (fun _ => False) (fun next => SameBudgets walk.2 next.2) (job.system.riseLevel rank walk level) := by
  have before := (@sameBudgets_sendSample rank level walk).trans (@sameBudgets_receiveUp job rank level _)
  rw [Controllers.System.riseLevel]
  revert before
  cases job.system.receiveUp level rank (sendSample level rank walk) with
  | mk received middle =>
      intro before
      cases received with
      | none => exact before
      | some samples =>
          have kept : SameAgent ((middle.node rank).agent (level + 1)) (((middle.node rank).agent (level + 1)).aggregateSample
              samples (middle.node rank).outSample).2 := ⟨rfl, rfl, rfl, rfl⟩
          exact before.trans (sameBudgets_setAgent kept rfl rfl rfl)

theorem samplePlatform_same {agent : LevelAgent} {pkgPower : Number} {outSample : Sample}
    (maxSize : agent.base.epochPowerBuf.maxSize = 16) :
    Outcome.Keeps (fun _ => False) (fun sampled => SameAgent agent sampled.2) (agent.samplePlatform pkgPower outSample) := by
  have inserts : ∃ window, agent.base.insertPower pkgPower = .ok window ∧ window.maxSize = agent.base.epochPowerBuf.maxSize := by
    rw [Agent.insertPower]
    split
    · exact ⟨_, rfl, rfl⟩
    · rw [CircularBuffer.insert, dif_neg (by omega)]
      split
      · exact ⟨_, rfl, rfl⟩
      · exact ⟨_, rfl, rfl⟩
  obtain ⟨window, inserted, sized⟩ := inserts
  rw [LevelAgent.samplePlatform, Agent.samplePlatform, inserted]
  simp only [bind, Except.bind, pure, Except.pure]
  by_cases full : agent.base.minNumConverged < window.size
  · rw [if_pos full]
    exact ⟨rfl, rfl, rfl, sized⟩
  · rw [if_neg full]
    exact ⟨rfl, rfl, rfl, sized⟩

/-- A walk up throws nothing and leaves all budgets. -/
theorem walkUp_same {pkgPower : Number} (synced : Synced job state) :
    Outcome.Keeps (fun _ => False) (SameBudgets state) (job.system.walkUp rank pkgPower state) := by
  have starts : Outcome.Keeps (fun _ => False) (fun start => SameBudgets state start.2)
      (job.system.samplePlatform rank pkgPower state) := by
    rw [Controllers.System.samplePlatform]
    exact (samplePlatform_same (synced.governs rank).maxSize).bind fun sampled kept =>
      sameBudgets_setAgent kept rfl rfl rfl
  rw [Controllers.System.walkUp]
  refine starts.bind fun start before => ?_
  have rises : Outcome.Keeps (fun _ => False) (fun walk => SameBudgets state walk.2)
      ((List.range (job.system.topology.numLevelCtl rank)).foldlM (job.system.riseLevel rank) start) :=
    Outcome.keeps_foldlM (fun walk _ before => riseLevel_same.mono fun _ same => before.trans same) before
  refine rises.bind fun walk before => ?_
  change SameBudgets state (job.system.writeSample rank walk)
  rw [Controllers.System.writeSample]
  split
  · exact before
  · exact before.trans sameBudgets_sendSample

/-- The budget has come down to a level, and to the ranks that have walked down since. -/
def Reached (job : Job) (power : ℚ) (level : Nat) (since : List (Action Number Number))
    (state : State Number Sample LevelAgent) : Prop :=
  ∀ rank < job.system.topology.numRank, level ≤ job.system.topology.numLevelCtl rank →
    (level < job.system.topology.numLevelCtl rank ∨ ∃ policy, .walkDown rank policy ∈ since) →
    Settled job power rank (state.node rank)

/-- The root gets the budget each time that it walks down. -/
def KeepsBudget (job : Job) (power : ℚ) (actions : List (Action Number Number)) : Prop :=
  ∀ policy, .walkDown 0 policy ∈ actions → (job.system.source policy).policy = .value power

/-- Each node walks down. -/
def Round (job : Job) (actions : List (Action Number Number)) : Prop :=
  ∀ rank < job.system.topology.numRank, ∃ policy, .walkDown rank policy ∈ actions

/-- A walk throws nothing, and takes the budget to the node if it has come to its parent. -/
theorem perform_reached {since : List (Action Number Number)} {action : Action Number Number} (ordered : Ordered job)
    (steady : Steady job state) (permits : job.system.Permits state action) :
    Outcome.Keeps (fun _ => False) (fun next => Steady job next ∧
      (KeepsBudget job power [action] → Reached job power level since state → Reached job power level (since ++ [action]) next))
      (job.system.perform state action) := by
  cases action with
  | walkDown rank policy =>
      refine (@walkDown_settles job rank power policy state ordered steady permits.1).mono fun next walked => ?_
      refine ⟨walked.steady, fun keeps reached other known takesPart arrived => ?_⟩
      by_cases same : other = rank
      · subst same
        refine walked.settled ?_
        rw [Finds]
        split
        · next root => exact keeps policy (by rw [root]; exact List.mem_singleton_self _)
        · next inner =>
            have below := job.system.topology.below other known inner
            obtain ⟨parentKnown, controls⟩ := job.system.topology.parent_known other known _ below (Nat.le_refl _)
            have above : level < job.system.topology.numLevelCtl (parentOf job other) := Nat.lt_of_le_of_lt takesPart controls
            exact reached _ parentKnown (Nat.le_of_lt above) (.inl above)
      · rw [walked.others other same]
        refine reached other known takesPart (arrived.imp_right fun walked => ?_)
        simpa [same] using walked
  | walkUp rank pkgPower =>
      refine (walkUp_same steady.synced).mono fun next same => ?_
      refine ⟨same.steady steady, fun _ reached other known takesPart arrived => ?_⟩
      refine same.settled (reached other known takesPart (arrived.imp_right fun walked => ?_))
      simpa using walked

theorem initial_steady : Steady job job.system.initial where
  synced :=
    { settings := fun _ _ => rfl
      valid := fun _ _ _ last => by cases last
      passed := fun _ _ _ => rfl
      children := fun _ _ => List.length_replicate
      governs := fun rank => by
        refine ⟨rfl, rfl, rfl, fun set => ?_, rfl⟩
        have unset : (job.powerGov rank).lastPkgPowerSetting.isNan = false := set
        rw [job.unset] at unset
        cases unset }
  remembers _ _ _ last := by cases last

theorem KeepsBudget.append {before later : List (Action Number Number)} :
    KeepsBudget job power (before ++ later) ↔ KeepsBudget job power before ∧ KeepsBudget job power later := by
  simp only [KeepsBudget, List.mem_append, or_imp, forall_and]

/-- A run throws nothing, and takes the budget to the children of the nodes that have it. -/
theorem run_reached {actions : List (Action Number Number)} (ordered : Ordered job) (steady : Steady job state)
    (permitted : Transition.Permitted job.system.step job.system.InTurn (.ok state) actions) :
    Outcome.Keeps (fun _ => False) (fun next => Steady job next ∧
      (KeepsBudget job power actions → Reached job power level [] state → Reached job power level actions next))
      (Transition.run job.system.step (.ok state) actions) := by
  induction actions using List.reverseRecOn with
  | nil => exact ⟨steady, fun _ reached => reached⟩
  | append_singleton before action ih =>
      rw [Transition.permitted_concat] at permitted
      have kept := ih permitted.1
      have inTurn := permitted.2
      rw [Transition.run_concat]
      cases ran : Transition.run job.system.step (.ok state) before with
      | error reason =>
          rw [ran] at kept
          exact kept.elim
      | ok middle =>
          rw [ran] at kept inTurn
          have performs := @perform_reached job level power middle before action ordered kept.1 inTurn
          refine performs.mono fun next performed => ⟨performed.1, fun keeps reached => ?_⟩
          rw [KeepsBudget.append] at keeps
          exact performed.2 keeps.2 (kept.2 keeps.1 reached)

/-- All nodes that control so many levels have the budget. -/
def SettledFrom (job : Job) (power : ℚ) (level : Nat) (state : State Number Sample LevelAgent) : Prop :=
  ∀ rank < job.system.topology.numRank, level ≤ job.system.topology.numLevelCtl rank →
    Settled job power rank (state.node rank)

/-- With each round the budget comes a level further. -/
theorem round_settledFrom {actions : List (Action Number Number)} (ordered : Ordered job) (steady : Steady job state)
    (permitted : Transition.Permitted job.system.step job.system.InTurn (.ok state) actions)
    (keeps : KeepsBudget job power actions) (round : Round job actions) (settled : SettledFrom job power level state) :
    Outcome.Keeps (fun _ => False) (fun next => Steady job next ∧ SettledFrom job power (level - 1) next)
      (Transition.run job.system.step (.ok state) actions) := by
  have begins : Reached job power (level - 1) [] state := by
    intro rank known _ arrived
    cases arrived with
    | inl above => exact settled rank known (by omega)
    | inr walked =>
        obtain ⟨_, member⟩ := walked
        cases member
  have ran := @run_reached job (level - 1) power state actions ordered steady permitted
  refine ran.mono fun next reached => ⟨reached.1, fun rank known inside => ?_⟩
  exact reached.2 keeps begins rank known inside (.inr (round rank known))

theorem rounds_settledFrom {rounds : List (List (Action Number Number))} (ordered : Ordered job) (steady : Steady job state)
    (permitted : Transition.Permitted job.system.step job.system.InTurn (.ok state) rounds.flatten)
    (keeps : KeepsBudget job power rounds.flatten) (each : ∀ round ∈ rounds, Round job round)
    (settled : SettledFrom job power level state) :
    Outcome.Keeps (fun _ => False) (SettledFrom job power (level - rounds.length))
      (Transition.run job.system.step (.ok state) rounds.flatten) := by
  induction rounds generalizing state level with
  | nil => exact settled
  | cons round rounds ih =>
      rw [List.flatten_cons, Transition.permitted_append] at permitted
      rw [List.flatten_cons, KeepsBudget.append] at keeps
      have first := round_settledFrom ordered steady permitted.1 keeps.1 (each round List.mem_cons_self) settled
      rw [List.flatten_cons, Transition.run_append]
      cases ran : Transition.run job.system.step (.ok state) round with
      | error reason =>
          rw [ran] at first
          exact first.elim
      | ok middle =>
          rw [ran] at first
          have rest := ih first.1 (ran ▸ permitted.2) keeps.2
            (fun other member => each other (List.mem_cons_of_mem round member)) first.2
          rw [List.length_cons, Nat.add_comm, ← Nat.sub_sub]
          exact rest

/-- A budget that the root keeps has come to all nodes, each within its own limits, after one round more than there are
levels. Until then the walks come in any order, and the nodes may have had any other budgets before. -/
theorem budget_settles {before : List (Action Number Number)} {rounds : List (List (Action Number Number))}
    (ordered : Ordered job)
    (permitted : Transition.Permitted job.system.step job.system.InTurn (.ok job.system.initial) (before ++ rounds.flatten))
    (each : ∀ round ∈ rounds, Round job round) (enough : job.dims.length < rounds.length)
    (keeps : KeepsBudget job power rounds.flatten) :
    ∃ state, Transition.run job.system.step (.ok job.system.initial) (before ++ rounds.flatten) = .ok state ∧
      ∀ rank < job.dims.prod, Settled job power rank (state.node rank) := by
  rw [Transition.permitted_append] at permitted
  have begins := @run_reached job job.system.topology.rootLevel power _ before ordered initial_steady permitted.1
  rw [Transition.run_append]
  cases ran : Transition.run job.system.step (.ok job.system.initial) before with
  | error reason =>
      rw [ran] at begins
      exact begins.elim
  | ok middle =>
      rw [ran] at begins
      have above : SettledFrom job power (job.dims.length + 1) middle := by
        intro rank known inside
        have most := Topology.numLevelCtl_le known
        exact absurd (Nat.le_trans inside most) (Nat.not_succ_le_self _)
      have settles := rounds_settledFrom ordered begins.1 (ran ▸ permitted.2) keeps each above
      cases last : Transition.run job.system.step (.ok middle) rounds.flatten with
      | error reason =>
          rw [last] at settles
          exact settles.elim
      | ok state =>
          rw [last] at settles
          exact ⟨state, rfl, fun rank known => settles rank known (by omega)⟩

/-- A round in which the child walks before the root, and gets its budget in the next one. -/
def childFirst : List (Action Number Number) :=
  [.walkDown 1 .nan, .walkUp 1 (.value 150), .walkDown 0 (.value 400), .walkUp 0 (.value 140)]

theorem budget_settles_twoNodes : ∃ state,
    Transition.run twoNodes.system.step (.ok twoNodes.system.initial) (sixteenWalks ++ [childFirst, childFirst].flatten) =
      .ok state ∧
      budgetOf twoNodes 400 1 = 300 ∧ ∀ rank < 2, Settled twoNodes 400 rank (state.node rank) := by
  have ordered : Ordered twoNodes := by
    intro rank
    change (50 : ℚ) ≤ 300
    decide +kernel
  have each : ∀ round ∈ [childFirst, childFirst], Round twoNodes round := by
    intro round member rank known
    have same : round = childFirst := by simpa using member
    have known : rank = 0 ∨ rank = 1 := Nat.le_one_iff_eq_zero_or_eq_one.mp (Nat.le_of_lt_succ known)
    cases known with
    | inl root => exact ⟨.value 400, by simp [same, root, childFirst]⟩
    | inr child => exact ⟨.nan, by simp [same, child, childFirst]⟩
  have keeps : KeepsBudget twoNodes 400 [childFirst, childFirst].flatten := by
    intro policy member
    have given : policy = .value 400 := by simpa [childFirst] using member
    rw [given]
    rfl
  have permitted : Transition.Permitted twoNodes.system.step twoNodes.system.InTurn (.ok twoNodes.system.initial)
      (sixteenWalks ++ [childFirst, childFirst].flatten) := by
    decide +kernel
  obtain ⟨state, ran, settled⟩ := budget_settles ordered permitted each (by decide) keeps
  exact ⟨state, ran, by decide +kernel, settled⟩

end PowerGovernor

end Geopm
