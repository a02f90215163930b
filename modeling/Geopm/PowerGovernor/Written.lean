import Geopm.PowerGovernor.Reports

namespace Geopm

/-! The samples that the root of a tree of power governors writes to the endpoint. -/

namespace PowerGovernor

open Controllers (State)
open Controllers.System (Action sendSample)
open History (readable)

variable {job : Job} {bound : ℚ} {rank level : Nat} {past : Nat → List Number}

/-- The powers that a node has read. -/
def readings (rank : Nat) (actions : List (Action Number Number)) : List Number :=
  actions.flatMap fun
    | .walkDown _ _ => []
    | .walkUp other pkgPower => if other = rank then readable pkgPower else []

/-- No budget that a node can be given is above the bound. -/
structure Affords (job : Job) (bound : ℚ) (actions : List (Action Number Number)) : Prop where
  low : ∀ rank, (job.settings rank).minPkgPowerSetting ≤ bound
  file : ∀ policy, job.filePolicy = some policy → Fits job bound policy
  endpoint : job.filePolicy = none → Fits job bound .nan ∧
    ∀ rank policy, .walkDown rank policy ∈ actions → Fits job bound policy

/-- What the leaves have read and reported, and the budgets on their way to them. -/
structure Reporting (job : Job) (bound : ℚ) (past : Nat → List Number) (state : State Number Sample LevelAgent) :
    Prop where
  leaf : ∀ rank, Leaf bound (past rank) ((state.node rank).agent 0)
  settings : ∀ rank level, ((state.node rank).agent level).settings = job.settings rank
  sent : ∀ rank, ∀ sample ∈ (state.link 0 rank).samples.sent, Measures bound (past rank) sample
  inPolicy : ∀ rank, Fits job bound (state.node rank).inPolicy
  policy : ∀ level rank policy, (state.link level rank).policy = some policy → Fits job bound policy

variable {state after : State Number Sample LevelAgent} {node : Controllers.Node Number Sample LevelAgent}

/-- A change of a node, whose leaf may have read more. -/
theorem Reporting.setNode {more : List Number} (reporting : Reporting job bound past state)
    (leaf : Leaf bound (past rank ++ more) (node.agent 0))
    (settings : ∀ level, (node.agent level).settings = job.settings rank) (fits : Fits job bound node.inPolicy) :
    Reporting job bound (Function.update past rank (past rank ++ more)) (state.setNode rank node) where
  leaf other := by
    by_cases same : other = rank
    · subst same
      rw [State.setNode_node_self, Function.update_self]
      exact leaf
    · rw [State.setNode_node_other same, Function.update_of_ne same]
      exact reporting.leaf other
  settings other level := by
    by_cases same : other = rank
    · rw [same, State.setNode_node_self]
      exact settings level
    · rw [State.setNode_node_other same]
      exact reporting.settings other level
  sent other sample member := by
    by_cases same : other = rank
    · subst same
      rw [Function.update_self]
      exact (reporting.sent other sample member).mono
    · rw [Function.update_of_ne same]
      exact reporting.sent other sample member
  inPolicy other := by
    by_cases same : other = rank
    · rw [same, State.setNode_node_self]
      exact fits
    · rw [State.setNode_node_other same]
      exact reporting.inPolicy other
  policy := reporting.policy

/-- A change of a node whose leaf has read nothing. -/
theorem Reporting.keepNode (reporting : Reporting job bound past state) (leaf : Leaf bound (past rank) (node.agent 0))
    (settings : ∀ level, (node.agent level).settings = job.settings rank) (fits : Fits job bound node.inPolicy) :
    Reporting job bound past (state.setNode rank node) := by
  rw [← List.append_nil (past rank)] at leaf
  have kept := reporting.setNode leaf settings fits
  rwa [List.append_nil, Function.update_eq_self] at kept

/-- A change of the leaf. -/
theorem Reporting.setLeaf {agent : LevelAgent} {more : List Number} (reporting : Reporting job bound past state)
    (leaf : Leaf bound (past rank ++ more) agent) (agents : node.agent = Function.update (state.node rank).agent 0 agent)
    (settings : agent.settings = job.settings rank) (fits : Fits job bound node.inPolicy) :
    Reporting job bound (Function.update past rank (past rank ++ more)) (state.setNode rank node) := by
  refine reporting.setNode ?_ ?_ fits
  · rw [agents, Function.update_self]
    exact leaf
  · intro level
    rw [agents]
    by_cases same : level = 0
    · rw [same, Function.update_self]
      exact settings
    · rw [Function.update_of_ne same]
      exact reporting.settings rank level

/-- A change of the agent of a level. -/
theorem Reporting.setAgent {agent : LevelAgent} (reporting : Reporting job bound past state)
    (agents : node.agent = Function.update (state.node rank).agent (level + 1) agent)
    (settings : agent.settings = job.settings rank) (fits : Fits job bound node.inPolicy) :
    Reporting job bound past (state.setNode rank node) := by
  refine reporting.keepNode ?_ ?_ fits
  · rw [agents, Function.update_of_ne (Nat.zero_ne_add_one level)]
    exact reporting.leaf rank
  · intro upper
    rw [agents]
    by_cases same : upper = level + 1
    · rw [same, Function.update_self]
      exact settings
    · rw [Function.update_of_ne same]
      exact reporting.settings rank upper

theorem Reporting.receiveDown (reporting : Reporting job bound past state) :
    Reporting job bound past (job.system.receiveDown level rank state).2 := by
  rw [Controllers.System.receiveDown]
  split
  · exact reporting
  · next policy found =>
      exact reporting.keepNode (reporting.leaf rank) (reporting.settings rank)
        (reporting.policy level rank policy found)

theorem Reporting.sendDown {members : List Nat} {policies : List Number} (reporting : Reporting job bound past state)
    (fits : ∀ policy ∈ policies, Fits job bound policy) :
    Reporting job bound past (state.sendDown level members policies) where
  leaf := reporting.leaf
  settings := reporting.settings
  sent rank := by
    rw [State.sendDown_samples]
    exact reporting.sent rank
  inPolicy := reporting.inPolicy
  policy upper rank policy found := by
    by_cases same : upper = level
    · subst same
      simp only [State.sendDown, State.setLinks, Function.update_self, Option.or_eq_some_iff] at found
      cases found with
      | inl sent =>
          obtain ⟨before, later, split, _⟩ := List.lookup_eq_some_iff.mp sent
          have member : (rank, policy) ∈ members.zip policies := split ▸ List.mem_append_cons_self
          exact fits policy (List.of_mem_zip member).2
      | inr kept => exact reporting.policy upper rank policy kept.2
    · simp only [State.sendDown, State.setLinks, Function.update_of_ne same] at found
      exact reporting.policy upper rank policy found

/-- All children get the policy that is split. -/
theorem splitPolicy_ok {policy : Number} {outPolicy policies : List Number} {agent split : LevelAgent}
    (made : agent.splitPolicy policy outPolicy = .ok (policies, split)) : split.settings = agent.settings ∧
      (split.powerBudgetChanged = true → ∀ sent ∈ policies, sent = policy) := by
  rw [LevelAgent.splitPolicy] at made
  by_cases invalid : ((Number.value agent.settings.maxPkgPowerSetting).lt policy ||
      policy.lt (.value agent.settings.minPkgPowerSetting)) = true
  · rw [if_pos invalid] at made
    cases made
  rw [if_neg invalid] at made
  by_cases changed : ((agent.base.lastPowerBudget.isNan && !policy.isNan) ||
      !agent.base.lastPowerBudget.eq policy) = true
  · rw [if_pos changed] at made
    cases made
    refine ⟨rfl, fun _ sent member => ?_⟩
    obtain ⟨_, _, same⟩ := List.mem_map.mp member
    exact same.symm
  · rw [if_neg changed] at made
    cases made
    exact ⟨rfl, fun sends => by cases sends⟩

theorem Reporting.splitPolicy (reporting : Reporting job bound past state)
    (low : ∀ rank, (job.settings rank).minPkgPowerSetting ≤ bound) :
    Outcome.Keeps (fun _ => True) (Reporting job bound past) (job.system.splitPolicy level rank state) := by
  obtain ⟨power, valid, most⟩ := validatePolicy_fits ((state.node rank).agent (level + 1)) (reporting.inPolicy rank)
    ⟨rank, reporting.settings rank (level + 1)⟩ low
  have fits : Fits job bound (.value power) := most
  rw [Controllers.System.splitPolicy]
  refine Outcome.keeps_bind (fun _ _ => trivial) fun inPolicy validated => ?_
  cases (Except.ok.inj validated).symm.trans valid
  refine Outcome.keeps_bind (fun _ _ => trivial) fun made found => ?_
  obtain ⟨policies, agent⟩ := made
  obtain ⟨settings, sends⟩ := splitPolicy_ok found
  have split := fun node agents => @Reporting.setAgent job bound rank level past state node agent reporting agents
    (settings.trans (reporting.settings rank (level + 1)))
  change Reporting job bound past (if agent.powerBudgetChanged = true then _ else _)
  by_cases changed : agent.powerBudgetChanged = true
  · rw [if_pos changed]
    exact (split _ rfl fits).sendDown fun policy member => sends changed policy member ▸ fits
  · rw [if_neg changed]
    exact split _ rfl fits

theorem Reporting.startWalk {policy : Number} (reporting : Reporting job bound past state)
    (given : ∀ source, job.system.source policy = source → Fits job bound source.policy) :
    Reporting job bound past (job.system.startWalk rank policy state).2 := by
  rw [Controllers.System.startWalk]
  split
  · exact reporting.keepNode (reporting.leaf rank) (reporting.settings rank) (given _ rfl)
  · exact reporting.receiveDown

theorem Reporting.walkDown {policy : Number} (reporting : Reporting job bound past state)
    (low : ∀ rank, (job.settings rank).minPkgPowerSetting ≤ bound)
    (given : ∀ source, job.system.source policy = source → Fits job bound source.policy) :
    Outcome.Keeps (fun _ => True) (Reporting job bound past) (job.system.walkDown rank policy state) := by
  have level : ∀ (walk : Bool × State Number Sample LevelAgent) level, Reporting job bound past walk.2 →
      Outcome.Keeps (fun _ => True) (fun next => Reporting job bound past next.2)
        (job.system.walkLevel rank walk level) := by
    intro walk level before
    rw [Controllers.System.walkLevel]
    split
    · exact (before.splitPolicy low).bind fun next after => after.receiveDown
    · exact before.receiveDown
  rw [Controllers.System.walkDown]
  refine (Outcome.keeps_foldlM level (reporting.startWalk given)).bind fun walk after => ?_
  obtain ⟨power, valid, most⟩ := validatePolicy_fits ((walk.2.node rank).agent 0) (after.inPolicy rank)
    ⟨rank, after.settings rank 0⟩ low
  rw [Controllers.System.adjustPlatform]
  refine Outcome.keeps_bind (fun _ _ => trivial) fun inPolicy validated => ?_
  cases (Except.ok.inj validated).symm.trans valid
  refine Outcome.keeps_bind (fun _ _ => trivial) fun agent adjusted => ?_
  cases adjusted
  have leaf : Leaf bound (past rank ++ []) (((walk.2.node rank).agent 0).adjustPlatform (.value power)) := by
    rw [List.append_nil]
    exact (after.leaf rank).adjustPlatform most
  have kept := fun node agents => @Reporting.setLeaf job bound rank past walk.2 node _ [] after leaf agents (after.settings rank 0)
  simp only [List.append_nil, Function.update_eq_self] at kept
  exact kept _ rfl most

/-- What a rank has to send from a level. From the lowest it is what its leaf has measured. -/
structure Rising (job : Job) (bound : ℚ) (past : Nat → List Number) (rank level : Nat)
    (walk : Bool × State Number Sample LevelAgent) : Prop where
  reporting : Reporting job bound past walk.2
  measures : level = 0 → walk.1 = true → Measures bound (past rank) (walk.2.node rank).outSample

theorem Rising.sendSample {walk : Bool × State Number Sample LevelAgent} (rising : Rising job bound past rank level walk) :
    Reporting job bound past (sendSample level rank walk) := by
  rw [Controllers.System.sendSample]
  by_cases sends : walk.1 = true
  · rw [if_pos sends]
    have reporting := rising.reporting
    refine ⟨reporting.leaf, reporting.settings, fun other sample member => ?_, reporting.inPolicy, fun upper other policy found => ?_⟩
    · by_cases here : 0 = level ∧ other = rank
      · obtain ⟨rfl, rfl⟩ := here
        rw [State.sendUp_self, Mailbox.send, List.mem_append, List.mem_singleton] at member
        cases member with
        | inl old => exact reporting.sent other sample old
        | inr new => exact new ▸ rising.measures rfl sends
      · rw [State.sendUp_other here] at member
        exact reporting.sent other sample member
    · refine reporting.policy upper other policy ?_
      rw [← found]
      by_cases same : upper = level
      · subst same
        by_cases own : other = rank
        · simp [State.sendUp, State.setLinks, own]
        · simp [State.sendUp, State.setLinks, own]
      · simp [State.sendUp, State.setLinks, same]
  · rw [if_neg sends]
    exact rising.reporting

theorem Reporting.setMailboxes {ranks : List Nat} {change : Mailbox Sample → Mailbox Sample}
    (reporting : Reporting job bound past state) (kept : ∀ box, (change box).sent = box.sent) :
    Reporting job bound past (state.setMailboxes level ranks change) := by
  refine ⟨reporting.leaf, reporting.settings, fun other sample member => ?_, reporting.inPolicy,
    fun upper other policy found => ?_⟩
  · by_cases here : 0 = level ∧ other ∈ ranks
    · obtain ⟨rfl, inside⟩ := here
      rw [State.setMailboxes_member inside, kept] at member
      exact reporting.sent other sample member
    · rw [State.setMailboxes_other here] at member
      exact reporting.sent other sample member
  · refine reporting.policy upper other policy ?_
    rw [← found]
    by_cases same : upper = level
    · subst same
      by_cases inside : other ∈ ranks
      · simp [State.setMailboxes, State.setLinks, inside]
      · simp [State.setMailboxes, State.setLinks, inside]
    · simp [State.setMailboxes, State.setLinks, same]

theorem Rising.riseLevel {walk : Bool × State Number Sample LevelAgent} (rising : Rising job bound past rank level walk) :
    Outcome.Keeps (fun _ => True) (Rising job bound past rank (level + 1)) (job.system.riseLevel rank walk level) := by
  have sent := rising.sendSample
  have above : ∀ next, Reporting job bound past next.2 → Rising job bound past rank (level + 1) next :=
    fun next after => ⟨after, fun zero => by cases zero⟩
  rw [Controllers.System.riseLevel, Controllers.System.receiveUp]
  cases found : (job.system.topology.members level rank).mapM
      fun child => ((Controllers.System.sendSample level rank walk).link level child).samples.slot with
  | none => exact above (false, _) sent
  | some samples =>
      by_cases nan : samples.any job.system.sampleHasNan
      · simp only [if_pos nan]
        exact above (false, _) (sent.setMailboxes fun _ => rfl)
      · simp only [if_neg nan]
        rw [Controllers.System.aggregateSample]
        refine Outcome.keeps_bind (fun _ _ => trivial) fun aggregated made => above (_, _) ?_
        have taken : Reporting job bound past (State.setMailboxes level (job.system.topology.members level rank) .take
            (Controllers.System.sendSample level rank walk)) := sent.setMailboxes fun _ => rfl
        cases made
        exact taken.setAgent rfl (taken.settings rank (level + 1)) (taken.inPolicy rank)

theorem Rising.rises {walk : Bool × State Number Sample LevelAgent} (rising : Rising job bound past rank 0 walk) :
    Outcome.Keeps (fun _ => True) (fun walk => Reporting job bound past (job.system.writeSample rank walk))
      ((List.range (job.system.topology.numLevelCtl rank)).foldlM (job.system.riseLevel rank) walk) := by
  have loop : Outcome.Keeps (fun _ => True) (Rising job bound past rank (job.system.topology.numLevelCtl rank))
      ((List.range (job.system.topology.numLevelCtl rank)).foldlM (job.system.riseLevel rank) walk) :=
    Outcome.keeps_range rising fun level next _ _ rising => rising.riseLevel
  refine loop.mono fun next rising => ?_
  rw [Controllers.System.writeSample]
  split
  · exact rising.reporting
  · exact rising.sendSample

theorem Reporting.walkUp {pkgPower : Number} (reporting : Reporting job bound past state) :
    Outcome.Keeps (fun _ => True)
      (Reporting job bound (Function.update past rank (past rank ++ readable pkgPower)))
      (job.system.walkUp rank pkgPower state) := by
  obtain ⟨sample, leaf, sampled, settings, holds, measures⟩ :=
    @Leaf.samplePlatform bound (past rank) _ pkgPower (state.node rank).outSample (reporting.leaf rank)
  have sampled : job.system.methods.samplePlatform pkgPower (state.node rank).outSample ((state.node rank).agent 0) =
      .ok (sample, leaf) := sampled
  rw [Controllers.System.walkUp, Controllers.System.samplePlatform, sampled]
  have start := fun node agents =>
    @Reporting.setLeaf job bound rank past state node _ _ reporting holds agents (settings.trans (reporting.settings rank 0))
  have rising : Rising job bound (Function.update past rank (past rank ++ readable pkgPower)) rank 0
      (leaf.base.doSendSample, state.setNode rank { state.node rank with
        outSample := sample, agent := Function.update (state.node rank).agent 0 leaf, walks := (state.node rank).walks + 1 }) := by
    refine ⟨start _ rfl (reporting.inPolicy rank), fun _ sends => ?_⟩
    rw [State.setNode_node_self, Function.update_self]
    exact measures sends
  exact rising.rises.bind fun walk written => written

theorem Affords.before {before later : List (Action Number Number)} (affords : Affords job bound (before ++ later)) :
    Affords job bound before where
  low := affords.low
  file := affords.file
  endpoint none := ⟨(affords.endpoint none).1, fun rank policy member =>
    (affords.endpoint none).2 rank policy (List.mem_append_left later member)⟩

/-- What the root reads. -/
theorem Affords.source {actions : List (Action Number Number)} {policy : Number} (affords : Affords job bound actions)
    (member : .walkDown rank policy ∈ actions) :
    ∀ source, job.system.source policy = source → Fits job bound source.policy := by
  intro source same
  rw [← same, Controllers.System.source]
  cases file : job.system.filePolicy with
  | none => exact (affords.endpoint file).2 rank policy member
  | some policy => exact affords.file policy file

theorem reporting_initial (affords : Affords job bound []) :
    Reporting job bound (fun rank => readings rank []) job.system.initial where
  leaf _ := leaf_new
  settings _ _ := rfl
  sent _ _ member := absurd member List.not_mem_nil
  inPolicy rank := by
    change Fits job bound (job.filePolicy.getD .nan)
    cases source : job.filePolicy with
    | none => exact (affords.endpoint source).1
    | some policy => exact affords.file policy source
  policy _ _ _ found := by cases found

theorem readings_walkDown {before : List (Action Number Number)} {policy : Number} :
    (fun other => readings other (before ++ [.walkDown rank policy])) = fun other => readings other before := by
  funext other
  simp [readings]

theorem readings_walkUp {before : List (Action Number Number)} {pkgPower : Number} :
    (fun other => readings other (before ++ [.walkUp rank pkgPower])) =
      Function.update (fun other => readings other before) rank (readings rank before ++ readable pkgPower) := by
  funext other
  by_cases same : other = rank
  · subst same
    simp [readings]
  · simp [readings, same, Ne.symm same]

/-- In a run the leaves report what they have read, and meet no budget above the bound. -/
theorem run_reporting {actions : List (Action Number Number)} (affords : Affords job bound actions)
    (permitted : Transition.Permitted job.system.step job.system.InTurn (.ok job.system.initial) actions) :
    Outcome.Keeps (fun _ => True) (Reporting job bound fun rank => readings rank actions)
      (Transition.run job.system.step (.ok job.system.initial) actions) := by
  have walks : ∀ (before : List (Action Number Number)) action state,
      (Affords job bound before → Reporting job bound (fun rank => readings rank before) state) →
      job.system.Permits state action → Outcome.Keeps (fun _ => True)
        (fun next => Affords job bound (before ++ [action]) →
          Reporting job bound (fun rank => readings rank (before ++ [action])) next)
        (job.system.perform state action) := by
    intro before action state reporting _
    by_cases affords : Affords job bound (before ++ [action])
    · have reporting := reporting affords.before
      cases action with
      | walkDown rank policy =>
          rw [readings_walkDown]
          exact (reporting.walkDown affords.low (affords.source (List.mem_append_right before List.mem_cons_self))).mono
            fun next after _ => after
      | walkUp rank pkgPower =>
          rw [readings_walkUp]
          exact reporting.walkUp.mono fun next after _ => after
    · exact Outcome.keeps_of_ok fun next _ other => absurd other affords
  exact (Controllers.System.keeps_run reporting_initial walks permitted).mono fun state reporting => reporting affords

/-- The samples of all leaves from which the root has made a sample. -/
structure MadeFrom (job : Job) (bound : ℚ) (actions : List (Action Number Number)) (leafOf : Nat → Sample)
    (sample : Sample) : Prop where
  measures : ∀ rank < job.dims.prod, Measures bound (readings rank actions) (leafOf rank)
  power : sample.power = Agg.average ((List.range job.dims.prod).map fun rank => (leafOf rank).power)
  enforced : sample.powerEnforced = Agg.average ((List.range job.dims.prod).map fun rank => (leafOf rank).powerEnforced)
  /-- Of several nodes all have met their budgets. -/
  converged : job.dims ≠ [] → sample.isConverged = .value 1
  met : sample.isConverged = .value 1 → ∀ rank < job.dims.prod, (leafOf rank).isConverged = .value 1
  bounded : sample.isConverged = .value 1 → ∃ power ≤ bound, sample.power = .value power

/-- The average of all leaves. -/
theorem average_range {field : Sample → Number} {leafOf : Nat → Sample} {values : Nat → ℚ}
    (reads : ∀ rank < job.dims.prod, field (leafOf rank) = .value (values rank)) :
    Agg.average ((List.range job.dims.prod).map fun rank => field (leafOf rank)) =
      .value (job.system.topology.leafAverage job.system.topology.rootLevel 0 values) := by
  have some : (List.range job.dims.prod).map values ≠ [] := by
    have positive : 0 < job.dims.prod := job.system.topology.some_rank
    simp [Nat.ne_of_gt positive]
  have read : ((List.range job.dims.prod).map fun rank => field (leafOf rank)) =
      ((List.range job.dims.prod).map values).map .value := by
    rw [List.map_map]
    exact List.map_congr_left fun rank member => reads rank (List.mem_range.mp member)
  have total : ∑ rank ∈ Finset.range job.dims.prod, values rank = ((List.range job.dims.prod).map values).sum := rfl
  have leaves : job.system.topology.leaves job.system.topology.rootLevel 0 = Finset.range job.dims.prod :=
    Topology.leaves_root
  rw [read, Agg.average_value some, List.length_map, List.length_range, Topology.leafAverage, leaves, total,
    Finset.card_range]

theorem madeFrom_of_gathers {actions : List (Action Number Number)} {leafOf : Nat → Sample} {sample : Sample}
    (measures : ∀ rank < job.dims.prod, Measures bound (readings rank actions) (leafOf rank))
    (gathers : job.system.Gathers leafOf job.system.topology.rootLevel 0 sample) :
    MadeFrom job bound actions leafOf sample := by
  have leaves : job.system.topology.leaves job.system.topology.rootLevel 0 = Finset.range job.dims.prod :=
    Topology.leaves_root
  choose! power powers using fun rank known => (measures rank known).power
  choose! enforced enforces using fun rank known => (measures rank known).enforced
  have known : ∀ rank ∈ job.system.topology.leaves job.system.topology.rootLevel 0, rank < job.dims.prod := by
    intro rank member
    rw [leaves] at member
    exact Finset.mem_range.mp member
  have reads : Reads job job.system.topology.rootLevel 0 leafOf power enforced := by
    refine ⟨fun rank member => (powers rank (known rank member)).1, fun rank member => enforces rank (known rank member),
      fun rank member => ?_⟩
    cases (powers rank (known rank member)).2 with
    | inl zero => exact .inl zero
    | inr one => exact .inr one.1
  have averages := gathers_averages gathers job.system.topology.some_rank (Nat.le_of_eq job.system.topology.root.symm) reads
  have met : sample.isConverged = .value 1 → ∀ rank < job.dims.prod, (leafOf rank).isConverged = .value 1 := by
    intro one rank inside
    by_cases single : job.system.topology.rootLevel = 0
    · have only : rank = 0 := by
        have one : job.dims = [] := List.eq_nil_of_length_eq_zero single
        simpa [one] using inside
      rw [single] at gathers
      cases gathers
      exact only ▸ one
    · exact (averages.converged single).2 rank (leaves ▸ Finset.mem_range.mpr inside)
  constructor
  case measures => exact measures
  case power => exact averages.power.trans (average_range fun rank inside => (powers rank inside).1).symm
  case enforced => exact averages.enforced.trans (average_range enforces).symm
  case converged => exact fun several => (averages.converged (mt List.eq_nil_of_length_eq_zero several)).1
  case met => exact met
  case bounded =>
      intro one
      refine ⟨_, ?_, averages.power⟩
      have positive : (0 : ℚ) < job.dims.prod := Nat.cast_pos.mpr job.system.topology.some_rank
      rw [Topology.leafAverage, leaves, Finset.card_range, div_le_iff₀ positive, mul_comm, ← nsmul_eq_mul]
      have most : ∀ rank ∈ Finset.range job.dims.prod, power rank ≤ bound := by
        intro rank member
        have inside := Finset.mem_range.mp member
        cases (powers rank inside).2 with
        | inl zero => exact absurd ((met one rank inside).symm.trans zero) (by decide +kernel)
        | inr within => exact within.2
      have total := Finset.sum_le_card_nsmul _ power bound most
      rwa [Finset.card_range] at total

/-- Each sample that the root has written comes from one sample of every node, which a node has sent before those that are
in the samples after it. -/
def WritesAverages (job : Job) (bound : ℚ) (actions : List (Action Number Number))
    (state : State Number Sample LevelAgent) : Prop :=
  ∃ pick : Nat → Nat → Nat, (∀ rank, StrictMono (pick rank)) ∧
    ∀ (index : Nat) sample, (state.link job.dims.length 0).samples.sent[index]? = some sample →
      ∃ leafOf : Nat → Sample,
        (∀ rank < job.dims.prod, (state.link 0 rank).samples.sent[pick rank index]? = some (leafOf rank)) ∧
        MadeFrom job bound actions leafOf sample

/-- Whatever the order of the walks of the nodes, each sample that the root writes is the average of one sample of
every node, each of them the median of sixteen powers that the node has read one after the other. The samples of a node
are used in their order, and none is used twice. -/
theorem written_averages {actions : List (Action Number Number)} {state : State Number Sample LevelAgent}
    (affords : Affords job bound actions)
    (permitted : Transition.Permitted job.system.step job.system.InTurn (.ok job.system.initial) actions)
    (ran : Transition.run job.system.step (.ok job.system.initial) actions = .ok state) :
    WritesAverages job bound actions state := by
  have flows := Controllers.System.run_flows permitted
  have reporting := run_reporting affords permitted
  rw [ran] at flows reporting
  have takesPart : job.system.topology.rootLevel ≤ job.system.topology.numLevelCtl 0 :=
    Nat.le_of_eq job.system.topology.root.symm
  obtain ⟨pick, gathersFrom⟩ :=
    Controllers.System.Flows.gathersFrom flows job.system.topology.some_rank takesPart
  refine ⟨pick, gathersFrom.ordered, fun index sample written => ?_⟩
  obtain ⟨leafOf, found, gathers⟩ := gathersFrom.found index sample written
  have leaves : job.system.topology.leaves job.system.topology.rootLevel 0 = Finset.range job.dims.prod :=
    Topology.leaves_root
  have found : ∀ rank < job.dims.prod, (state.link 0 rank).samples.sent[pick rank index]? = some (leafOf rank) :=
    fun rank inside => found rank (leaves ▸ Finset.mem_range.mpr inside)
  exact ⟨leafOf, found, madeFrom_of_gathers
    (fun rank inside => reporting.sent rank _ (List.mem_of_getElem? (found rank inside))) gathers⟩

/-- Two nodes with one package each. -/
def twoNodes : Job where
  dims := [2]
  split := TreeComm.splitByKey 2
  positive := by decide
  splits := TreeComm.splitByKey_splits 2
  settings _ := ⟨50, 300, 200⟩
  powerGov _ := .new 1 (.value 50) (.value 300) [.nan]
  filePolicy := none
  unset _ := rfl

/-- Both nodes walk in turn until their windows are full. -/
def sixteenWalks : List (Action Number Number) :=
  (List.replicate 16 [.walkDown 1 .nan, .walkUp 1 (.value 150), .walkDown 0 (.value 250), .walkUp 0 (.value 140)]).flatten

theorem affords_twoNodes : Affords twoNodes 250 sixteenWalks where
  low _ := by
    change (50 : ℚ) ≤ 250
    decide +kernel
  file policy given := by cases given
  endpoint _ := by
    have tdp : Fits twoNodes 250 .nan := by
      intro rank
      change (200 : ℚ) ≤ 250
      decide +kernel
    refine ⟨tdp, fun rank policy member => ?_⟩
    have given : policy = .nan ∨ policy = .value 250 := by
      simp [sixteenWalks] at member
      tauto
    cases given with
    | inl nan => exact nan ▸ tdp
    | inr same => exact same ▸ le_refl (250 : ℚ)

/-- The root writes one sample. -/
theorem written_averages_twoNodes : ∃ state,
    Transition.run twoNodes.system.step (.ok twoNodes.system.initial) sixteenWalks = .ok state ∧
      (state.link 1 0).samples.sent = [⟨.value 145, .value 1, .value 250⟩] ∧
      WritesAverages twoNodes 250 sixteenWalks state := by
  have written : (Transition.run twoNodes.system.step (.ok twoNodes.system.initial) sixteenWalks).map
      (fun state => (state.link 1 0).samples.sent) = .ok [⟨.value 145, .value 1, .value 250⟩] := by
    decide +kernel
  cases ran : Transition.run twoNodes.system.step (.ok twoNodes.system.initial) sixteenWalks with
  | error reason =>
      rw [ran] at written
      cases written
  | ok state =>
      rw [ran] at written
      exact ⟨state, rfl, Except.ok.inj written, written_averages affords_twoNodes (by decide +kernel) ran⟩

end PowerGovernor

end Geopm
