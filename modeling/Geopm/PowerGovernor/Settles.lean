import Geopm.PowerGovernor.Synced

namespace Geopm

/-! A budget that the root keeps reaches all nodes. -/

namespace PowerGovernor

open Controllers (State Node)
open Controllers.System (Action)

variable {job : Job} {rank level : Nat} {power budget : ℚ}

/-- What a node makes of the budget of the root, in a level that is so far below that of the root. Each node on the way
makes of it what its own limits allow. -/
def budgetBelow (job : Job) (power : ℚ) : Nat → Nat → ℚ
  | 0, rank => clamp (job.settings rank) power
  | depth + 1, rank =>
      clamp (job.settings rank) (budgetBelow job power depth
        (job.system.topology.parent (job.system.topology.rootLevel - (depth + 1)) rank))

/-- The budget that a node has in the end. -/
def budgetOf (job : Job) (power : ℚ) (rank : Nat) : ℚ := budgetBelow job power job.system.topology.rootLevel rank

theorem budgetBelow_valid (ordered : Ordered job) (depth rank : Nat) :
    Valid (job.settings rank) (budgetBelow job power depth rank) := by
  cases depth with
  | zero => exact clamp_valid (ordered rank)
  | succ depth => exact clamp_valid (ordered rank)

/-- A node is its own parent in the levels that it controls. -/
theorem budgetBelow_self (ordered : Ordered job) (known : rank < job.system.topology.numRank) :
    ∀ depth, job.system.topology.rootLevel ≤ job.system.topology.numLevelCtl rank + depth →
      depth ≤ job.system.topology.rootLevel → budgetBelow job power depth rank = budgetOf job power rank := by
  intro depth below inside
  induction rest : job.system.topology.rootLevel - depth generalizing depth with
  | zero =>
      have last : depth = job.system.topology.rootLevel := by omega
      rw [last, budgetOf]
  | succ rest ih =>
      have controls : job.system.topology.rootLevel - (depth + 1) < job.system.topology.numLevelCtl rank := by omega
      rw [← ih (depth + 1) (by omega) (by omega) (by omega), budgetBelow,
        job.system.topology.parent_self rank known _ controls, (budgetBelow_valid ordered depth rank).clamp_eq]

theorem budgetOf_root (ordered : Ordered job) : budgetOf job power 0 = clamp (job.settings 0) power := by
  rw [← budgetBelow_self ordered job.system.topology.some_rank 0 (Nat.le_of_eq job.system.topology.root.symm) (Nat.zero_le _)]
  rfl

theorem budgetOf_valid (ordered : Ordered job) (rank : Nat) : Valid (job.settings rank) (budgetOf job power rank) :=
  budgetBelow_valid ordered _ rank

/-- The rank that a node has its budget from. -/
def parentOf (job : Job) (rank : Nat) : Nat :=
  job.system.topology.parent (job.system.topology.numLevelCtl rank) rank

theorem budgetOf_parent (ordered : Ordered job) (known : rank < job.system.topology.numRank)
    (below : job.system.topology.numLevelCtl rank < job.system.topology.rootLevel) :
    budgetOf job power rank = clamp (job.settings rank) (budgetOf job power (parentOf job rank)) := by
  obtain ⟨parentKnown, parentControls⟩ := job.system.topology.parent_known rank known _ below (Nat.le_refl _)
  let depth := job.system.topology.rootLevel - (job.system.topology.numLevelCtl rank + 1)
  have place : job.system.topology.rootLevel - (depth + 1) = job.system.topology.numLevelCtl rank := by omega
  have above : budgetBelow job power depth (parentOf job rank) = budgetOf job power (parentOf job rank) :=
    budgetBelow_self ordered parentKnown depth (by omega) (by omega)
  rw [← budgetBelow_self ordered known (depth + 1) (by omega) (by omega), budgetBelow, place, ← above]
  rfl

variable {state next : State Number Sample LevelAgent} {walk start : Bool × State Number Sample LevelAgent}

/-- What a node that has a budget goes on with in a walk down. -/
structure Settling (job : Job) (budget : ℚ) (rank level : Nat) (walk : Bool × State Number Sample LevelAgent) : Prop where
  inPolicy : ∃ power, (walk.2.node rank).inPolicy = .value power ∧ clamp (job.settings rank) power = budget
  sends : walk.1 = true ∨ level = 0 ∨ ((walk.2.node rank).agent level).base.lastPowerBudget = .value budget
  above : ∀ upper, level ≤ upper → upper < job.system.topology.numLevelCtl rank →
    ((walk.2.node rank).agent (upper + 1)).base.lastPowerBudget = .value budget

/-- A walk down that has come to a level. -/
structure Looped (job : Job) (budget : ℚ) (rank : Nat) (start : Bool × State Number Sample LevelAgent) (level : Nat)
    (walk : Bool × State Number Sample LevelAgent) : Prop where
  begins : level = job.system.topology.numLevelCtl rank → walk = start
  synced : Synced job walk.2
  stays : Stays rank (fun upper => level < upper) start.2 walk.2
  top : level < job.system.topology.numLevelCtl rank →
    ((walk.2.node rank).agent (job.system.topology.numLevelCtl rank)).base.lastPowerBudget =
      if start.1 then .value (clamp (job.settings rank) ((start.2.node rank).inPolicy.getD (job.settings rank).powerTdp))
      else ((start.2.node rank).agent (job.system.topology.numLevelCtl rank)).base.lastPowerBudget
  settling : Settling job budget rank (job.system.topology.numLevelCtl rank) start → Settling job budget rank level walk

theorem Settling.step (ordered : Ordered job) {after : Bool × State Number Sample LevelAgent}
    (settling : Settling job budget rank (level + 1) walk) (walked : Walked job rank level walk after) :
    Settling job budget rank level after := by
  obtain ⟨power, inPolicy, clamped⟩ := settling.inPolicy
  have last : ((after.2.node rank).agent (level + 1)).base.lastPowerBudget = .value budget := by
    rw [walked.budget]
    by_cases sends : walk.1 = true
    · rw [if_pos sends, inPolicy]
      exact congrArg Number.value clamped
    · rw [if_neg sends]
      cases settling.sends with
      | inl sending => exact absurd sending sends
      | inr others =>
          cases others with
          | inl zero => exact absurd zero (Nat.succ_ne_zero level)
          | inr held => exact held
  obtain ⟨sends, received⟩ := walked.received budget last
  refine ⟨⟨budget, received, ?_⟩, .inl sends, fun upper above inside => ?_⟩
  · rw [← clamped]
    exact clamp_clamp (ordered rank)
  · by_cases same : upper = level
    · rw [same]
      exact last
    · rw [walked.stays.agents (upper + 1) fun equal => same (Nat.succ.inj equal)]
      exact settling.above upper (by omega) inside

/-- The walk down of a node to its leaf throws nothing. -/
theorem walkLevels_looped (ordered : Ordered job) (known : rank < job.system.topology.numRank) (synced : Synced job start.2) :
    Outcome.Keeps (fun _ => False) (Looped job budget rank start 0)
      ((List.range (job.system.topology.numLevelCtl rank)).reverse.foldlM (job.system.walkLevel rank) start) := by
  have begins : Looped job budget rank start (job.system.topology.numLevelCtl rank) start :=
    ⟨fun _ => rfl, synced, ⟨fun _ _ => rfl, fun _ _ => rfl, rfl⟩, fun inside => absurd inside (Nat.lt_irrefl _), id⟩
  refine Outcome.keeps_range_reverse begins fun level walk inside looped => ?_
  obtain ⟨after, done, walked⟩ := walkLevel_walked ordered looped.synced known inside
  rw [done]
  refine ⟨fun same => absurd same (Nat.ne_of_lt inside), walked.synced, ?_, fun _ => ?_,
    fun settling => (looped.settling settling).step ordered walked⟩
  · exact (looped.stays.mono fun upper above => Nat.lt_of_succ_lt above).trans
      (walked.stays.mono fun upper same => same ▸ Nat.lt_succ_self level)
  · by_cases top : level + 1 = job.system.topology.numLevelCtl rank
    · rw [← top, walked.budget, looped.begins top]
    · rw [walked.stays.agents _ fun same => top same.symm]
      exact looped.top (by omega)

theorem targetPkgPower_eq {original : PowerGovernor} {agent : LevelAgent} (governs : Governs original agent) (budget : Number) :
    targetPkgPower agent.base.powerGov budget = targetPkgPower original budget := by
  simp only [targetPkgPower, governs.numPkg, governs.low, governs.high]

/-- The governor of a leaf gives all packages what the budget asks for. -/
theorem Governs.adjustPlatform {original : PowerGovernor} {agent : LevelAgent} (governs : Governs original agent) :
    Governs original (agent.adjustPlatform (.value power)) ∧
      ∀ control ∈ (agent.adjustPlatform (.value power)).base.powerGov.controls,
        control = targetPkgPower original (.value power) := by
  let adjusted := agent.base.powerGov.adjustPlatform (.value power) agent.base.adjustedPower
  have controls : ∀ control ∈ adjusted.1.controls, control = targetPkgPower original (.value power) := by
    rw [← targetPkgPower_eq governs]
    exact adjustPlatform_controls governs.held
  have kept : adjusted.1.numPkg = agent.base.powerGov.numPkg ∧
      adjusted.1.minPkgPowerPolicy = agent.base.powerGov.minPkgPowerPolicy ∧
      adjusted.1.maxPkgPowerPolicy = agent.base.powerGov.maxPkgPowerPolicy ∧
      adjusted.1.lastPkgPowerSetting = targetPkgPower agent.base.powerGov (.value power) := by
    simp only [adjusted, adjustPlatform_eq]
    split
    · next same => exact ⟨rfl, rfl, rfl, Number.of_eq same⟩
    · exact ⟨rfl, rfl, rfl, rfl⟩
  obtain ⟨numPkg, low, high, last⟩ := kept
  refine ⟨⟨numPkg.trans governs.numPkg, low.trans governs.low, high.trans governs.high, fun _ control member => ?_,
    governs.maxSize⟩, controls⟩
  exact (controls control member).trans ((targetPkgPower_eq governs _).symm.trans last.symm)

/-- A node whose leaf has changed. -/
theorem Synced.setLeaf {agent : LevelAgent} {node : Node Number Sample LevelAgent} (synced : Synced job state)
    (agents : node.agent = Function.update (state.node rank).agent 0 agent) (settings : agent.settings = job.settings rank)
    (governs : Governs (job.powerGov rank) agent) (outPolicy : node.outPolicy = (state.node rank).outPolicy) :
    Synced job (state.setNode rank node) := by
  have upper : ∀ other level, ((state.setNode rank node).node other).agent (level + 1) = (state.node other).agent (level + 1) := by
    intro other level
    by_cases same : other = rank
    · rw [same, State.setNode_node_self, agents, Function.update_of_ne (Nat.succ_ne_zero level)]
    · rw [State.setNode_node_other same]
  have leaf : ∀ other, ((state.setNode rank node).node other).agent 0 =
      if other = rank then agent else (state.node other).agent 0 := by
    intro other
    by_cases same : other = rank
    · rw [if_pos same, same, State.setNode_node_self, agents, Function.update_self]
    · rw [if_neg same, State.setNode_node_other same]
  constructor
  case settings =>
      intro other level
      cases level with
      | zero =>
          rw [leaf]
          split
          · next same => exact same ▸ settings
          · exact synced.settings other 0
      | succ level => exact upper other level ▸ synced.settings other (level + 1)
  case valid => exact fun other level => upper other level ▸ synced.valid other level
  case passed =>
      intro level other isLink
      rw [upper]
      exact synced.passed level other isLink
  case children =>
      intro other level
      by_cases same : other = rank
      · rw [same, State.setNode_node_self, outPolicy]
        exact synced.children rank level
      · rw [State.setNode_node_other same]
        exact synced.children other level
  case governs =>
      intro other
      rw [leaf]
      split
      · next same => exact same ▸ governs
      · exact synced.governs other

/-- The node has the budget, in each level that it controls and in its packages. -/
structure Settled (job : Job) (power : ℚ) (rank : Nat) (node : Node Number Sample LevelAgent) : Prop where
  agents : ∀ level ≤ job.system.topology.numLevelCtl rank,
    (node.agent level).base.lastPowerBudget = .value (budgetOf job power rank)
  controls : ∀ control ∈ (node.agent 0).base.powerGov.controls,
    control = targetPkgPower (job.powerGov rank) (.value (budgetOf job power rank))

/-- The end of a walk down. -/
structure Adjusted (job : Job) (rank : Nat) (state next : State Number Sample LevelAgent) : Prop where
  synced : Synced job next
  stays : Stays rank (· = 0) state next
  leaf : ∀ budget, clamp (job.settings rank) ((state.node rank).inPolicy.getD (job.settings rank).powerTdp) = budget →
    ((next.node rank).agent 0).base.lastPowerBudget = .value budget ∧
      ∀ control ∈ ((next.node rank).agent 0).base.powerGov.controls,
        control = targetPkgPower (job.powerGov rank) (.value budget)

theorem adjustPlatform_adjusted (synced : Synced job state) :
    Outcome.Keeps (fun _ => False) (Adjusted job rank state) (job.system.adjustPlatform rank state) := by
  have settings := synced.settings rank 0
  have validated := validatePolicy_eq (state.node rank).inPolicy ((state.node rank).agent 0)
  rw [settings] at validated
  have validated : job.system.methods.validatePolicy (state.node rank).inPolicy ((state.node rank).agent 0) =
      .ok (.value (clamp (job.settings rank) ((state.node rank).inPolicy.getD (job.settings rank).powerTdp))) :=
    congrArg Except.ok validated
  obtain ⟨governs, controls⟩ := (synced.governs rank).adjustPlatform
  rw [Controllers.System.adjustPlatform, validated]
  refine ⟨synced.setLeaf rfl settings governs rfl, ⟨fun _ apart => State.setNode_node_other apart, fun level above => ?_, ?_⟩,
    fun budget same => ?_⟩
  · rw [State.setNode_node_self]
    exact Function.update_of_ne above _ _
  · rw [State.setNode_node_self]
  · rw [State.setNode_node_self, ← same]
    simp only [Function.update_self]
    exact ⟨rfl, controls⟩

end PowerGovernor

end Geopm
