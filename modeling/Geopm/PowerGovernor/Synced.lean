import Geopm.Balancer.Links
import Geopm.Controllers.Flow
import Geopm.PowerGovernor.Levels

namespace Geopm

/-! One walk of a power governor down the levels that it controls. -/

namespace PowerGovernor

open Controllers (State Node)

variable {job : Job} {rank level other : Nat} {power : ℚ}

/-- What a node makes of a power budget. -/
def clamp (settings : PowerSettings) (power : ℚ) : ℚ :=
  if power < settings.minPkgPowerSetting then settings.minPkgPowerSetting
  else if settings.maxPkgPowerSetting < power then settings.maxPkgPowerSetting
  else power

/-- The limit of each package for a budget of the node. -/
def targetPkgPower (governor : PowerGovernor) (nodePowerRequest : Number) : Number :=
  let requested := nodePowerRequest / .value governor.numPkg
  if requested.lt governor.minPkgPowerPolicy then governor.minPkgPowerPolicy
  else if governor.maxPkgPowerPolicy.lt requested then governor.maxPkgPowerPolicy
  else requested

/-- The limits of all nodes are in order. -/
def Ordered (job : Job) : Prop := ∀ rank, (job.settings rank).minPkgPowerSetting ≤ (job.settings rank).maxPkgPowerSetting

/-- The budget is one that `validate_policy` leaves as it is. -/
def Valid (settings : PowerSettings) (power : ℚ) : Prop :=
  settings.minPkgPowerSetting ≤ power ∧ power ≤ settings.maxPkgPowerSetting

theorem clamp_valid {settings : PowerSettings} (ordered : settings.minPkgPowerSetting ≤ settings.maxPkgPowerSetting) :
    Valid settings (clamp settings power) := by
  rw [clamp, Valid]
  split
  · exact ⟨le_refl _, ordered⟩
  · split
    · exact ⟨ordered, le_refl _⟩
    · next low high => exact ⟨not_lt.mp low, not_lt.mp high⟩

theorem Valid.clamp_eq {settings : PowerSettings} (valid : Valid settings power) : clamp settings power = power := by
  rw [clamp, if_neg (not_lt.mpr valid.1), if_neg (not_lt.mpr valid.2)]

theorem clamp_clamp {settings : PowerSettings} (ordered : settings.minPkgPowerSetting ≤ settings.maxPkgPowerSetting) :
    clamp settings (clamp settings power) = clamp settings power := (clamp_valid ordered).clamp_eq

theorem validatePolicy_eq (policy : Number) (agent : LevelAgent) :
    agent.validatePolicy policy = .value (clamp agent.settings (policy.getD agent.settings.powerTdp)) := by
  have within : ∀ power : ℚ, (if (Number.value power).lt (.value agent.settings.minPkgPowerSetting) then
        .value agent.settings.minPkgPowerSetting
      else if (Number.value agent.settings.maxPkgPowerSetting).lt (.value power) then
        .value agent.settings.maxPkgPowerSetting
      else .value power) = Number.value (clamp agent.settings power) := by
    intro power
    simp only [clamp, Number.lt_value, decide_eq_true_eq]
    split
    · rfl
    · split
      · rfl
      · rfl
  cases policy with
  | nan => exact within _
  | value power =>
      rw [LevelAgent.validatePolicy]
      simp only [Number.isNan_value, Bool.false_eq_true, if_false]
      exact within power

/-- A valid budget is split, and is the last one then. It is sent unless it was the last one. -/
theorem splitPolicy_valid {agent : LevelAgent} {outPolicy : List Number} (valid : Valid agent.settings power) :
    ∃ policies after, agent.splitPolicy (.value power) outPolicy = .ok (policies, after) ∧
      after.settings = agent.settings ∧ after.base.lastPowerBudget = .value power ∧
      policies.length = outPolicy.length ∧
      (after.powerBudgetChanged = true → policies = outPolicy.map fun _ => .value power) ∧
      (after.powerBudgetChanged = false → agent.base.lastPowerBudget = .value power) := by
  rw [LevelAgent.splitPolicy]
  have inside : ¬((Number.value agent.settings.maxPkgPowerSetting).lt (.value power) ||
      (Number.value power).lt (.value agent.settings.minPkgPowerSetting)) = true := by
    simp [not_lt.mpr valid.1, not_lt.mpr valid.2]
  rw [if_neg inside]
  by_cases same : agent.base.lastPowerBudget.eq (.value power) = true
  · have last := Number.of_eq same
    have unchanged : ¬((agent.base.lastPowerBudget.isNan && !(Number.value power).isNan) ||
        !agent.base.lastPowerBudget.eq (.value power)) = true := by
      rw [last]
      simp
    rw [if_neg unchanged]
    refine ⟨_, _, rfl, rfl, last, rfl, fun changed => ?_, fun _ => last⟩
    cases changed
  · rw [if_pos (by simp [same])]
    refine ⟨_, _, rfl, rfl, rfl, List.length_map _, fun _ => rfl, fun unchanged => ?_⟩
    cases unchanged

theorem adjustPlatform_eq {governor : PowerGovernor} {actual : Number} :
    governor.adjustPlatform (.value power) actual =
      if governor.lastPkgPowerSetting.eq (targetPkgPower governor (.value power)) then
        ({ governor with doWriteBatch := false }, actual)
      else
        ({ governor with
          controls := governor.controls.map fun _ => targetPkgPower governor (.value power)
          lastPkgPowerSetting := targetPkgPower governor (.value power)
          doWriteBatch := true }, .value governor.numPkg * targetPkgPower governor (.value power)) := by
  rw [PowerGovernor.adjustPlatform, if_neg (by simp)]
  rfl

/-- The packages get the limit that the budget asks for, unless they have it. -/
theorem adjustPlatform_controls {governor : PowerGovernor} {actual : Number}
    (held : governor.lastPkgPowerSetting.isNan = false → ∀ control ∈ governor.controls, control = governor.lastPkgPowerSetting) :
    ∀ control ∈ (governor.adjustPlatform (.value power) actual).1.controls,
      control = targetPkgPower governor (.value power) := by
  rw [adjustPlatform_eq]
  by_cases same : governor.lastPkgPowerSetting.eq (targetPkgPower governor (.value power)) = true
  · rw [if_pos same]
    intro control member
    have some : governor.lastPkgPowerSetting.isNan = false := by
      cases last : governor.lastPkgPowerSetting with
      | nan =>
          rw [last] at same
          cases same
      | value power => simp
    exact (held some control member).trans (Number.of_eq same)
  · rw [if_neg same]
    intro control member
    obtain ⟨_, _, same⟩ := List.mem_map.mp member
    exact same.symm

/-- A leaf whose governor has the limits that it began with. -/
structure Governs (original : PowerGovernor) (agent : LevelAgent) : Prop where
  numPkg : agent.base.powerGov.numPkg = original.numPkg
  low : agent.base.powerGov.minPkgPowerPolicy = original.minPkgPowerPolicy
  high : agent.base.powerGov.maxPkgPowerPolicy = original.maxPkgPowerPolicy
  held : agent.base.powerGov.lastPkgPowerSetting.isNan = false →
    ∀ control ∈ agent.base.powerGov.controls, control = agent.base.powerGov.lastPkgPowerSetting
  maxSize : agent.base.epochPowerBuf.maxSize = 16

/-- Each link has the last budget of the parent, which it has sent to all of its children. -/
structure Synced (job : Job) (state : State Number Sample LevelAgent) : Prop where
  settings : ∀ rank level, ((state.node rank).agent level).settings = job.settings rank
  valid : ∀ rank level budget, ((state.node rank).agent (level + 1)).base.lastPowerBudget = .value budget →
    Valid (job.settings rank) budget
  passed : ∀ level rank, job.system.topology.IsLink level rank →
    let budget := ((state.node (job.system.topology.parent level rank)).agent (level + 1)).base.lastPowerBudget
    (state.link level rank).policy = if budget.isNan then none else some budget
  children : ∀ rank level, ((state.node rank).outPolicy level).length = (job.system.topology.members level rank).length
  governs : ∀ rank, Governs (job.powerGov rank) ((state.node rank).agent 0)

/-- What a walk of a node leaves of the others and of itself. -/
structure Stays (rank : Nat) (changed : Nat → Prop) (state next : State Number Sample LevelAgent) : Prop where
  others : ∀ other ≠ rank, next.node other = state.node other
  agents : ∀ level, ¬changed level → (next.node rank).agent level = (state.node rank).agent level
  lastPolicy : (next.node rank).lastPolicy = (state.node rank).lastPolicy

variable {state next : State Number Sample LevelAgent} {node : Node Number Sample LevelAgent}

/-- A change of what a node holds of the policies. -/
theorem Synced.setPolicy (synced : Synced job state) (agents : node.agent = (state.node rank).agent)
    (outPolicy : node.outPolicy = (state.node rank).outPolicy) : Synced job (state.setNode rank node) := by
  have agent : ∀ other, ((state.setNode rank node).node other).agent = (state.node other).agent := by
    intro other
    by_cases same : other = rank
    · rw [same, State.setNode_node_self, agents]
    · rw [State.setNode_node_other same]
  have out : ∀ other, ((state.setNode rank node).node other).outPolicy = (state.node other).outPolicy := by
    intro other
    by_cases same : other = rank
    · rw [same, State.setNode_node_self, outPolicy]
    · rw [State.setNode_node_other same]
  constructor
  case settings => exact fun other level => agent other ▸ synced.settings other level
  case valid => exact fun other level => agent other ▸ synced.valid other level
  case passed =>
      intro level other isLink
      rw [agent]
      exact synced.passed level other isLink
  case children => exact fun other level => out other ▸ synced.children other level
  case governs => exact fun other => agent other ▸ synced.governs other

theorem stays_setPolicy {changed : Nat → Prop} (agents : node.agent = (state.node rank).agent)
    (lastPolicy : node.lastPolicy = (state.node rank).lastPolicy) : Stays rank changed state (state.setNode rank node) where
  others _ apart := State.setNode_node_other apart
  agents level _ := by rw [State.setNode_node_self, agents]
  lastPolicy := by rw [State.setNode_node_self, lastPolicy]

/-- What a node finds of the last budget of its parent. -/
theorem receiveDown_link (synced : Synced job state) (isLink : job.system.topology.IsLink level rank) :
    let received := job.system.receiveDown level rank state
    Synced job received.2 ∧ Stays rank (fun _ => False) state received.2 ∧
      ∀ budget, ((state.node (job.system.topology.parent level rank)).agent (level + 1)).base.lastPowerBudget = .value budget →
        received.1 = true ∧ (received.2.node rank).inPolicy = .value budget := by
  have found := synced.passed level rank isLink
  simp only at found
  rw [Controllers.System.receiveDown]
  cases last : ((state.node (job.system.topology.parent level rank)).agent (level + 1)).base.lastPowerBudget with
  | nan =>
      rw [last, if_pos Number.isNan_nan] at found
      rw [found]
      refine ⟨synced, ⟨fun _ _ => rfl, fun _ _ => rfl, rfl⟩, fun budget same => ?_⟩
      cases same
  | value power =>
      rw [last, if_neg (by simp)] at found
      rw [found]
      refine ⟨synced.setPolicy rfl rfl, stays_setPolicy rfl rfl, fun budget same => ?_⟩
      cases same
      exact ⟨by simp [Controllers.System.policyHasNan, Job.system, methods], by simp⟩

/-- The links of a level after all members got a policy. -/
theorem sendDown_all {members : List Nat} {policies : List Number} (sized : policies.length = members.length)
    (all : ∀ policy ∈ policies, policy = .value power) :
    ((state.sendDown level members policies).link level other).policy =
      if other ∈ members then some (.value power) else (state.link level other).policy := by
  simp only [State.sendDown, State.setLinks, Function.update_self]
  by_cases member : other ∈ members
  · rw [if_pos member]
    cases found : (members.zip policies).lookup other with
    | none =>
        rw [List.lookup_eq_none_iff] at found
        obtain ⟨place, inside, same⟩ := List.mem_iff_getElem.mp member
        have there : place < (members.zip policies).length := by
          rw [List.length_zip, sized, Nat.min_self]
          exact inside
        have pair := found _ (List.getElem_mem there)
        rw [List.getElem_zip] at pair
        simp [same] at pair
    | some policy =>
        obtain ⟨before, later, split, _⟩ := List.lookup_eq_some_iff.mp found
        have inside : (other, policy) ∈ members.zip policies := split ▸ List.mem_append_cons_self
        rw [all policy (List.of_mem_zip inside).2]
        rfl
  · rw [if_neg member]
    cases found : (members.zip policies).lookup other with
    | none => rfl
    | some policy =>
        obtain ⟨before, later, split, _⟩ := List.lookup_eq_some_iff.mp found
        have inside : (other, policy) ∈ members.zip policies := split ▸ List.mem_append_cons_self
        exact absurd (List.of_mem_zip inside).1 member

theorem sendDown_other {members : List Nat} {policies : List Number} {upper : Nat} (apart : upper ≠ level) :
    (state.sendDown level members policies).link upper = state.link upper := by
  simp [State.sendDown, State.setLinks, apart]

/-- A node with a new budget, when its children have it. -/
theorem Synced.setAgent {agent : LevelAgent} (synced : Synced job state) (known : rank < job.system.topology.numRank)
    (controls : level < job.system.topology.numLevelCtl rank)
    (nodes : next.node = Function.update state.node rank node)
    (agents : node.agent = Function.update (state.node rank).agent (level + 1) agent)
    (settings : agent.settings = job.settings rank) (last : agent.base.lastPowerBudget = .value power)
    (valid : Valid (job.settings rank) power)
    (outPolicy : ∀ upper, (node.outPolicy upper).length = ((state.node rank).outPolicy upper).length)
    (sent : ∀ child ∈ job.system.topology.members level rank, (next.link level child).policy = some (.value power))
    (kept : ∀ upper child, ¬(upper = level ∧ child ∈ job.system.topology.members level rank) →
      (next.link upper child).policy = (state.link upper child).policy) : Synced job next := by
  have self : (next.node rank).agent = Function.update (state.node rank).agent (level + 1) agent := by
    rw [nodes, Function.update_self, agents]
  have others : ∀ other ≠ rank, next.node other = state.node other := by
    intro other apart
    rw [nodes, Function.update_of_ne apart]
  have unchanged : ∀ other upper, ¬(other = rank ∧ upper = level + 1) →
      (next.node other).agent upper = (state.node other).agent upper := by
    intro other upper apart
    by_cases same : other = rank
    · rw [same, self, Function.update_of_ne fun equal => apart ⟨same, equal⟩]
    · rw [others other same]
  have changed : (next.node rank).agent (level + 1) = agent := by rw [self, Function.update_self]
  constructor
  case settings =>
      intro other upper
      by_cases here : other = rank ∧ upper = level + 1
      · obtain ⟨rfl, rfl⟩ := here
        rw [changed, settings]
      · rw [unchanged other upper here]
        exact synced.settings other upper
  case valid =>
      intro other upper budget
      by_cases here : other = rank ∧ upper = level
      · obtain ⟨rfl, rfl⟩ := here
        rw [changed, last]
        intro same
        exact Number.value.inj same ▸ valid
      · rw [unchanged other (upper + 1) fun same => here ⟨same.1, Nat.succ.inj same.2⟩]
        exact synced.valid other upper budget
  case passed =>
      intro upper child isLink
      by_cases here : upper = level ∧ child ∈ job.system.topology.members level rank
      · obtain ⟨rfl, member⟩ := here
        have parent := (Topology.mem_members_iff known controls isLink).mp member
        simp only [parent, changed, last, sent child member, Number.isNan_value, Bool.false_eq_true, if_false]
      · have apart : ¬(job.system.topology.parent upper child = rank ∧ upper + 1 = level + 1) := by
          intro same
          have sameLevel := Nat.succ.inj same.2
          subst sameLevel
          exact here ⟨rfl, (Topology.mem_members_iff known controls isLink).mpr same.1⟩
        rw [unchanged _ _ apart, kept upper child here]
        exact synced.passed upper child isLink
  case children =>
      intro other upper
      by_cases same : other = rank
      · rw [same, nodes, Function.update_self, outPolicy]
        exact synced.children rank upper
      · rw [others other same]
        exact synced.children other upper
  case governs =>
      intro other
      rw [unchanged other 0 fun same => by cases same.2]
      exact synced.governs other

theorem stays_setAgent {agent : LevelAgent} (nodes : next.node = Function.update state.node rank node)
    (agents : node.agent = Function.update (state.node rank).agent level agent)
    (lastPolicy : node.lastPolicy = (state.node rank).lastPolicy) : Stays rank (· = level) state next where
  others other apart := by rw [nodes, Function.update_of_ne apart]
  agents upper apart := by rw [nodes, Function.update_self, agents, Function.update_of_ne apart]
  lastPolicy := by rw [nodes, Function.update_self, lastPolicy]

/-- A budget that a node splits is its last one then, and the one that its children have. -/
theorem splitPolicy_synced (ordered : Ordered job) (synced : Synced job state) (known : rank < job.system.topology.numRank)
    (controls : level < job.system.topology.numLevelCtl rank) :
    ∃ next, job.system.splitPolicy level rank state = .ok next ∧ Synced job next ∧
      Stays rank (· = level + 1) state next ∧
      ((next.node rank).agent (level + 1)).base.lastPowerBudget =
        .value (clamp (job.settings rank) ((state.node rank).inPolicy.getD (job.settings rank).powerTdp)) := by
  have settings := synced.settings rank (level + 1)
  have valid := @clamp_valid ((state.node rank).inPolicy.getD (job.settings rank).powerTdp) _ (ordered rank)
  have validated := validatePolicy_eq (state.node rank).inPolicy ((state.node rank).agent (level + 1))
  rw [settings] at validated
  generalize clamp (job.settings rank) ((state.node rank).inPolicy.getD (job.settings rank).powerTdp) = power at *
  obtain ⟨policies, agent, made, agentSettings, last, sized, sends, keeps⟩ :=
    @splitPolicy_valid power _ ((state.node rank).outPolicy level) (settings.symm ▸ valid)
  have validated : job.system.methods.validatePolicy (state.node rank).inPolicy ((state.node rank).agent (level + 1)) =
      .ok (.value power) := congrArg Except.ok validated
  have made : job.system.methods.splitPolicy (.value power) ((state.node rank).outPolicy level)
      ((state.node rank).agent (level + 1)) = .ok (policies, agent) := made
  have counts := sized.trans (synced.children rank level)
  have policiesCount : ∀ upper, (Function.update (state.node rank).outPolicy level policies upper).length =
      ((state.node rank).outPolicy upper).length := by
    intro upper
    by_cases same : upper = level
    · rw [same, Function.update_self, sized]
    · rw [Function.update_of_ne same]
  let node : Node Number Sample LevelAgent := { state.node rank with
    inPolicy := .value power
    outPolicy := Function.update (state.node rank).outPolicy level policies
    agent := Function.update (state.node rank).agent (level + 1) agent }
  have split : ∀ next : State Number Sample LevelAgent, next.node = Function.update state.node rank node →
      (∀ child ∈ job.system.topology.members level rank, (next.link level child).policy = some (.value power)) →
      (∀ upper child, ¬(upper = level ∧ child ∈ job.system.topology.members level rank) →
        (next.link upper child).policy = (state.link upper child).policy) →
      Synced job next ∧ Stays rank (· = level + 1) state next ∧
        ((next.node rank).agent (level + 1)).base.lastPowerBudget = .value power := by
    intro next nodes sent kept
    refine ⟨synced.setAgent known controls nodes rfl (agentSettings.trans settings) last valid policiesCount sent kept,
      stays_setAgent nodes rfl rfl, ?_⟩
    have agent_eq : (next.node rank).agent = Function.update (state.node rank).agent (level + 1) agent := by
      rw [nodes, Function.update_self]
    rw [agent_eq, Function.update_self]
    exact last
  rw [Controllers.System.splitPolicy]
  simp only [validated, made, bind, Except.bind, pure, Except.pure]
  cases changed : agent.powerBudgetChanged with
  | true =>
      rw [if_pos (by exact changed : job.system.methods.doSendPolicy agent = true)]
      have all : ∀ policy ∈ policies, policy = .value power := by
        rw [sends changed]
        exact fun policy member => (List.mem_map.mp member).elim fun _ same => same.2.symm
      refine ⟨_, rfl, split _ rfl (fun child member => ?_) fun upper child apart => ?_⟩
      · rw [sendDown_all counts all, if_pos member]
      · by_cases same : upper = level
        · subst same
          rw [sendDown_all counts all, if_neg fun member => apart ⟨rfl, member⟩]
          rfl
        · rw [sendDown_other same]
          rfl
  | false =>
      rw [if_neg (by exact Bool.eq_false_iff.mp changed : ¬job.system.methods.doSendPolicy agent = true)]
      refine ⟨_, rfl, split _ rfl (fun child member => ?_) fun _ _ _ => rfl⟩
      have isLink : job.system.topology.IsLink level child := by
        have isChild := (job.system.topology.mem_members rank known level controls child).mp member
        exact ⟨isChild.1, Nat.lt_of_lt_of_le controls (Topology.numLevelCtl_le known), isChild.2.1⟩
      have parent := (Topology.mem_members_iff known controls isLink).mp member
      have found := synced.passed level child isLink
      simp only [parent, keeps changed, Number.isNan_value, Bool.false_eq_true, if_false] at found
      exact found

/-- One level of a walk down. -/
structure Walked (job : Job) (rank level : Nat) (walk next : Bool × State Number Sample LevelAgent) : Prop where
  synced : Synced job next.2
  stays : Stays rank (· = level + 1) walk.2 next.2
  budget : ((next.2.node rank).agent (level + 1)).base.lastPowerBudget =
    if walk.1 then .value (clamp (job.settings rank) ((walk.2.node rank).inPolicy.getD (job.settings rank).powerTdp))
    else ((walk.2.node rank).agent (level + 1)).base.lastPowerBudget
  received : ∀ budget, ((next.2.node rank).agent (level + 1)).base.lastPowerBudget = .value budget →
    next.1 = true ∧ (next.2.node rank).inPolicy = .value budget

theorem Stays.trans {changed : Nat → Prop} {middle : State Number Sample LevelAgent}
    (first : Stays rank changed state middle) (second : Stays rank changed middle next) : Stays rank changed state next where
  others other apart := (second.others other apart).trans (first.others other apart)
  agents level kept := (second.agents level kept).trans (first.agents level kept)
  lastPolicy := second.lastPolicy.trans first.lastPolicy

theorem Stays.mono {changed other : Nat → Prop} (stays : Stays rank changed state next)
    (implies : ∀ level, changed level → other level) : Stays rank other state next where
  others := stays.others
  agents level kept := stays.agents level (mt (implies level) kept)
  lastPolicy := stays.lastPolicy

/-- A level of a walk down throws nothing. -/
theorem walkLevel_walked {walk : Bool × State Number Sample LevelAgent} (ordered : Ordered job) (synced : Synced job walk.2)
    (known : rank < job.system.topology.numRank) (controls : level < job.system.topology.numLevelCtl rank) :
    ∃ next, job.system.walkLevel rank walk level = .ok next ∧ Walked job rank level walk next := by
  have receives : ∀ middle : State Number Sample LevelAgent, Synced job middle → Stays rank (· = level + 1) walk.2 middle →
      ((middle.node rank).agent (level + 1)).base.lastPowerBudget = (if walk.1 then
        .value (clamp (job.settings rank) ((walk.2.node rank).inPolicy.getD (job.settings rank).powerTdp))
        else ((walk.2.node rank).agent (level + 1)).base.lastPowerBudget) →
      Walked job rank level walk (job.system.receiveDown level rank middle) := by
    intro middle synced stays budget
    obtain ⟨kept, unmoved, received⟩ := receiveDown_link synced (Topology.isLink_self known controls)
    rw [job.system.topology.parent_self rank known level controls] at received
    have same := unmoved.agents (level + 1) not_false
    refine ⟨kept, stays.trans (unmoved.mono fun _ => False.elim), same ▸ budget, fun budget last => received budget ?_⟩
    rw [← same]
    exact last
  rw [Controllers.System.walkLevel]
  by_cases sends : walk.1 = true
  · obtain ⟨middle, made, splitSynced, stays, budget⟩ := splitPolicy_synced ordered synced known controls
    rw [if_pos sends, made]
    refine ⟨_, rfl, receives middle splitSynced stays ?_⟩
    rw [budget, if_pos sends]
  · rw [if_neg sends]
    refine ⟨_, rfl, receives walk.2 synced ⟨fun _ _ => rfl, fun _ _ => rfl, rfl⟩ ?_⟩
    rw [if_neg sends]

end PowerGovernor

end Geopm
