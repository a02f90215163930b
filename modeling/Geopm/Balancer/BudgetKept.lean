import Geopm.Balancer.BudgetUp
import Geopm.Balancer.Unheard
import Geopm.Balancer.StepSync

namespace Geopm

/-! Whether the packages of all nodes keep to the total limit in every run. -/

namespace Balancer

namespace System

variable {system : System} {total : ℚ} {state next : State} {level rank : Nat} {policy : Policy} {action : Action}
  {actions : List Action}

/-- A walk up changes no policy. -/
structure KeepsPolicies (state next : State) : Prop where
  inPolicy : ∀ rank, (next.node rank).inPolicy = (state.node rank).inPolicy
  policy : ∀ level rank, (next.link level rank).policy = (state.link level rank).policy

theorem KeepsPolicies.setNode {start : State} {node : Node} (keeps : KeepsPolicies start state)
    (same : node.inPolicy = (state.node rank).inPolicy) : KeepsPolicies start (state.setNode rank node) where
  inPolicy := by
    intro other
    rw [← keeps.inPolicy]
    by_cases self : other = rank
    · rw [self, State.setNode_node_self, same]
    · rw [State.setNode_node_other self]
  policy := keeps.policy

theorem KeepsPolicies.setSamples {start : State} {ranks : List Nat} {sample : Option Sample}
    (keeps : KeepsPolicies start state) :
    KeepsPolicies start (state.setLinks level ranks fun link => { link with sample }) where
  inPolicy := keeps.inPolicy
  policy := by
    intro upper other
    rw [← keeps.policy]
    by_cases member : upper = level ∧ other ∈ ranks
    · obtain ⟨rfl, member⟩ := member
      rw [State.setLinks_link_member member]
    · rw [State.setLinks_link_other fun same inside => member ⟨same, inside⟩]

theorem sendSample_keepsPolicies {start : State} {walk : Option Sample × State} (keeps : KeepsPolicies start walk.2) :
    KeepsPolicies start (sendSample level rank walk) := by
  obtain ⟨carried, state⟩ := walk
  cases carried with
  | none => exact keeps
  | some sample => exact keeps.setSamples

theorem riseLevel_keepsPolicies {start : State} {walk : Option Sample × State} (keeps : KeepsPolicies start walk.2) :
    Outcome.Keeps (fun _ => True) (fun walk => KeepsPolicies start walk.2) (system.riseLevel rank walk level) := by
  have sent := @sendSample_keepsPolicies level rank start walk keeps
  rw [riseLevel, receiveUp]
  generalize sendSample level rank walk = state at sent ⊢
  cases (system.topology.members level rank).mapM fun child => (state.link level child).sample with
  | none => exact sent
  | some samples =>
      by_cases nan : samples.any Sample.hasNan
      case pos =>
          simp only [nan, if_true]
          exact sent.setSamples
      case neg =>
          simp only [nan, Bool.false_eq_true, if_false]
          refine Outcome.keeps_bind (fun _ _ => trivial) fun result _ => ?_
          exact sent.setSamples.setNode rfl

theorem walkUp_keepsPolicies {measured : Nat → Measured} :
    Outcome.Keeps (fun _ => True) (KeepsPolicies state) (system.walkUp rank measured state) := by
  have start : Outcome.Keeps (fun _ => True) (fun walk : Option Sample × State => KeepsPolicies state walk.2)
      (system.samplePlatform rank measured state) := by
    rw [samplePlatform]
    refine Outcome.keeps_bind (fun _ _ => trivial) fun result _ => ?_
    exact KeepsPolicies.setNode ⟨fun _ => rfl, fun _ _ => rfl⟩ rfl
  rw [walkUp]
  refine start.bind fun walk keeps => ?_
  refine Outcome.Keeps.bind (Outcome.keeps_foldlM (fun walk level keeps => riseLevel_keepsPolicies keeps) keeps)
    fun walk keeps => ?_
  change KeepsPolicies state (if _ then _ else _)
  split
  · exact keeps
  · exact sendSample_keepsPolicies keeps

theorem Unheard.keepsPolicies (unheard : system.Unheard total state) (keeps : KeepsPolicies state next) :
    system.Unheard total next := by
  intro rank known notFirst none
  rw [keeps.policy] at none
  rw [keeps.inPolicy]
  exact unheard rank known notFirst none

/-- What holds in every state that is reached where each node reads the total limit from a file. -/
structure Budgeted (system : System) (total : ℚ) (state : State) : Prop where
  inStep : system.InStep total state
  budget : system.Budget total state
  unheard : system.Unheard total state

theorem Budgeted.perform (budgeted : system.Budgeted total state) (affords : system.Affords total)
    (tree : system.topology.rootLevel ≠ 0) (file : system.filePolicy = some policy)
    (given : policy.powerPackageLimitTotal = .value total) (permits : system.Permits state action) :
    Outcome.Keeps (fun reason => ¬reason.IsStepError) (system.Budgeted total) (system.perform state action) := by
  cases action with
  | walkDown rank endpointPolicy clock =>
      exact (walkDown_budget affords file given tree permits.1 budgeted.inStep budgeted.budget budgeted.unheard).mono
        fun next kept => ⟨kept.1, kept.2.1, kept.2.2⟩
  | walkUp rank measured =>
      have kept := @walkUp_budget system total state rank measured affords tree permits.1 budgeted.inStep budgeted.budget
        permits.2
      have policies := @walkUp_keepsPolicies system state rank measured
      change Outcome.Keeps _ _ (system.walkUp rank measured state)
      cases done : system.walkUp rank measured state with
      | error reason =>
          rw [done] at kept
          exact kept
      | ok next =>
          rw [done] at kept policies
          exact ⟨kept.1, kept.2, budgeted.unheard.keepsPolicies policies⟩

/-- Each controller walks down and up in turn. -/
def InTurn (system : System) (reached : Except AgentError State) (action : Action) : Prop :=
  ∀ state, reached = .ok state → system.Permits state action

instance (system : System) (reached : Except AgentError State) (action : Action) :
    Decidable (system.InTurn reached action) :=
  inferInstanceAs (Decidable (∀ _, _ → _))

/-- The limits of all packages together are never more than the total limit for each node. So are their caps, but
while slack is given out: a node that has it may have more before another one has less. -/
structure WithinBudget (system : System) (total : ℚ) (state : State) : Prop where
  limits : ∑ rank ∈ Finset.range system.topology.numRank, (state.node rank).leaf.limitSum ≤ system.topology.numRank * total
  caps : 0 < (system.rootRole state).announced →
    BalancerStep.ofCount (system.rootRole state).announced ≠ .sendDownLimit →
      ∑ rank ∈ Finset.range system.topology.numRank, (state.node rank).leaf.capSum ≤ system.topology.numRank * total
  packages : ∀ rank < system.topology.numRank, (state.node rank).leaf.stepCount ≠ -1 →
    ∀ package ∈ (state.node rank).leaf.packages,
      0 < package.limit ∧ package.limit ≤ package.cap ∧ package.cap ≤ (system.settings rank).maxPkgPowerSetting

/-- A leaf uses no more than it is charged with. -/
theorem Budget.limitSum_le (budget : system.Budget total state) (inStep : system.InStep total state)
    (tree : system.topology.rootLevel ≠ 0) (known : rank < system.topology.numRank)
    (past : 0 < (system.rootRole state).announced) :
    (state.node rank).leaf.limitSum ≤ system.charge state rank := by
  obtain ⟨_, kept⟩ := budget.started inStep tree known past
  rw [charge]
  split
  · next waits => exact le_add_of_nonneg_right (budget.shares past waits.1).2.1
  · exact kept.limitSum_le

theorem Budgeted.within (budgeted : system.Budgeted total state) (affords : system.Affords total)
    (tree : system.topology.rootLevel ≠ 0) : system.WithinBudget total state := by
  have budget := budgeted.budget
  constructor
  case limits =>
      by_cases past : 0 < (system.rootRole state).announced
      case pos =>
          refine le_trans (Finset.sum_le_sum fun rank member => ?_) (budget.conserved past)
          exact budget.limitSum_le budgeted.inStep tree (Finset.mem_range.mp member) past
      case neg =>
          -- no leaf is past the first step
          have each : ∀ rank ∈ Finset.range system.topology.numRank, (state.node rank).leaf.limitSum ≤ total := by
            intro rank member
            have known := Finset.mem_range.mp member
            obtain ⟨behind, completed⟩ := budgeted.inStep.leaf_behind tree known
            have early := completed.le
            have atMost : (system.rootRole state).stepCount ≤ (system.rootRole state).announced := by
              rw [RootRole.announced]
              split <;> omega
            have nonneg := budgeted.inStep.root_nonneg tree
            have progress : (state.node rank).leaf.progress.stepCount = (state.node rank).leaf.stepCount := rfl
            by_cases none : (state.node rank).leaf.stepCount = -1
            case pos =>
                rw [(budget.leaves rank known).untouched none]
                exact (affords.share known).1.le
            case neg =>
                have kept := (budget.leaves rank known).kept none
                refine kept.limitSum_le.trans (LeafRole.capSum_of_capped (fun empty => ?_) (kept.capped (by omega))).le
                have length := (budget.leaves rank known).length
                have some_package := affords.some_package rank known
                rw [empty, List.length_nil] at length
                omega
          refine (Finset.sum_le_sum each).trans (le_of_eq ?_)
          rw [Finset.sum_const, Finset.card_range, nsmul_eq_mul]
  case caps =>
      intro past other
      refine le_of_eq_of_le (Finset.sum_congr rfl fun rank _ => ?_) (budget.conserved past)
      rw [charge, if_neg fun waits => other waits.1]
  case packages =>
      intro rank known started package member
      have sound := ((budget.leaves rank known).kept started).sound package member
      exact ⟨sound.positive, sound.limit_le, sound.high⟩

/-- No state is reached in which the nodes do not keep to the total limit. -/
def KeepsBudget (system : System) (total : ℚ) (reached : Except AgentError State) : Prop :=
  ∀ state, reached = .ok state → system.WithinBudget total state

end System

end Balancer

end Geopm
