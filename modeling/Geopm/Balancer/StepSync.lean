import Geopm.Balancer.TreeSteps
import Geopm.Library.Run

namespace Geopm

/-! Whether the nodes of a tree of power balancers stay in step in every run. -/

namespace Balancer

namespace State

/-- The step of a rank in the role that it has in the level: its leaf, or the agent of the level below. -/
def stepCount (state : State) (level rank : Nat) : Int := ((state.node rank).progress level).stepCount

end State

namespace System

variable {system : System} {total : ℚ} {state : State} {action : Action} {actions : List Action}
  {reached : Except AgentError State}

/-- No exception about steps was thrown, and each node whose parent has sent it a policy is at the step of its
parent or at the one before. -/
def InSync (system : System) (reached : Except AgentError State) : Prop :=
  (∀ reason, reached = .error reason → ¬reason.IsStepError) ∧
    ∀ state, reached = .ok state → ∀ level rank, system.topology.IsLink level rank →
      (state.link level rank).policy ≠ none →
        state.stepCount level rank = state.stepCount (level + 1) (system.topology.parent level rank) ∨
          state.stepCount level rank + 1 = state.stepCount (level + 1) (system.topology.parent level rank)

/-- The root has its policy from the start, and the total limit does not change. -/
def Steady (system : System) (total : ℚ) (state : State) : Action → Prop
  | .walkDown rank endpointPolicy _ => rank = 0 → system.HoldsPolicy total state endpointPolicy
  | .walkUp _ _ => True

/-- The first policy of a single node has the first step, or that of the leaf before. -/
def BeginsInOrder (system : System) (state : State) (rank : Nat) (endpointPolicy : Policy) : Prop :=
  (state.node rank).leaf.isFirstPolicy = true →
    ∀ valid, (system.source endpointPolicy).policy.validate (system.settings rank) = .ok valid →
      (state.node rank).leaf.StartsWith valid

/-- A leaf that has no policy of a parent, as on a single node or before the first one arrives,
does not skip a step with the policy that it has. -/
def InOrder (system : System) (state : State) : Action → Prop
  | .walkDown rank endpointPolicy _ =>
      if system.topology.rootLevel = 0 then system.BeginsInOrder state rank endpointPolicy
      else system.WaitsInOrder state rank
  | .walkUp _ _ => True

/-- Runs in which all three hold before each walk. -/
def Allows (system : System) (total : ℚ) (reached : Except AgentError State) (action : Action) : Prop :=
  ∀ state, reached = .ok state →
    system.Permits state action ∧ system.Steady total state action ∧ system.InOrder state action

/-- The only node of a job without a tree. -/
structure Alone (leaf : LeafRole) : Prop where
  first : leaf.isFirstPolicy = true → leaf.stepCount = -1
  later : leaf.isFirstPolicy = false → leaf.Loops

/-- What holds in every state that is reached. -/
structure Reached (system : System) (total : ℚ) (state : State) : Prop where
  tree : system.topology.rootLevel ≠ 0 → system.InStep total state
  alone : system.topology.rootLevel = 0 → Alone (state.node 0).leaf

theorem initial_progress {level rank : Nat} (inside : level < system.topology.rootLevel) :
    (system.initial.node rank).progress level = ⟨-1, true⟩ := by
  cases level with
  | zero => simp [Node.progress, LeafRole.progress, initial, LeafRole.areStepsComplete]
  | succ level =>
      rw [Node.progress, initial]
      simp only [Nat.ne_of_lt inside, if_false]
      rfl

theorem initial_isNew {level rank : Nat} : ((system.initial.node rank).agent level).IsNew := by
  simp only [initial]
  split
  · exact ⟨rfl, rfl, rfl⟩
  · exact ⟨rfl, rfl⟩

theorem initial_inStep : system.InStep total system.initial where
  plays := by
    intro level rank known controls
    simp only [initial]
    split
    · next isRoot => exact ⟨isRoot, .inl ⟨rfl, rfl, rfl⟩⟩
    · next inner => exact inner
  follows := by
    intro level rank isLink
    refine ⟨⟨fun _ => initial_isNew, fun _ => rfl⟩, fun policy sent => (by cases sent), ?_, fun sample held => (by cases held)⟩
    rw [initial_progress isLink.inside]
    change Progress.Trails ⟨0, false⟩ ⟨-1, true⟩
    exact ⟨by decide, .inr ⟨rfl, rfl⟩, fun complete => by cases complete⟩
  started := fun walked => absurd rfl walked

theorem initial_reached (system : System) (total : ℚ) : system.Reached total system.initial :=
  ⟨fun _ => initial_inStep, fun _ => ⟨fun _ => rfl, fun later => by cases later⟩⟩

/-- A walk down of the only node. -/
theorem walkDown_alone {rank : Nat} {endpointPolicy : Policy} {clock : Nat → ℚ} (single : system.topology.rootLevel = 0)
    (known : rank < system.topology.numRank) (alone : Alone (state.node 0).leaf)
    (inOrder : system.InOrder state (.walkDown rank endpointPolicy clock)) :
    Outcome.Keeps (fun reason => ¬reason.IsStepError) (fun next => Alone (next.node 0).leaf)
      (system.walkDown rank endpointPolicy clock state) := by
  have controls : system.topology.numLevelCtl rank = 0 :=
    Nat.le_zero.mp (single ▸ Topology.numLevelCtl_le known)
  obtain rfl : rank = 0 := (Topology.controls_all known).mp (controls.trans single.symm)
  rw [InOrder, if_pos single] at inOrder
  have isSingle : system.isSingleNode = true := decide_eq_true single
  rw [walkDown, controls, List.range_zero, List.reverse_nil, List.foldlM_nil, startWalk, if_pos system.topology.root]
  change Outcome.Keeps _ _ (system.adjustPlatform 0 clock _)
  rw [adjustPlatform, State.setNode_node_self, isSingle]
  refine Outcome.keeps_bind (fun reason refused => Policy.validate_error refused) fun valid accepted => ?_
  have taken : ∃ entered, ((state.node 0).leaf.updatePolicy system.topology.numRank valid).takePolicy
      (system.settings 0) = .ok entered ∧ entered.Loops ∧ entered.isFirstPolicy = false := by
    cases first : (state.node 0).leaf.isFirstPolicy with
    | true =>
        have starts := inOrder first valid accepted
        rw [LeafRole.updatePolicy, first, if_pos rfl]
        exact LeafRole.takePolicy_first (alone.first first) starts
    | false => exact (alone.later first).updatePolicy first
  obtain ⟨entered, taken, loops, later⟩ := taken
  have adjusted := LeafRole.adjustPlatform_progress true system.topology.numRank clock taken
  obtain ⟨adjusts, leaf, adjusted, same, policy, first⟩ := adjusted
  rw [adjusted]
  change Alone (((State.setNode _ 0 _)).node 0).leaf
  rw [State.setNode_node_self]
  refine ⟨fun isFirst => ?_, fun _ => ?_⟩
  · rw [first, later] at isFirst
    cases isFirst
  · have step : leaf.stepCount = entered.stepCount := congrArg Progress.stepCount same
    have complete : leaf.areStepsComplete = entered.areStepsComplete := congrArg Progress.isStepComplete same
    constructor
    · rw [policy, step, complete]
      exact loops.limit
    · rw [policy, step, complete]
      exact loops.stepCount

theorem walkUp_alone {rank : Nat} {measured : Nat → Measured} (single : system.topology.rootLevel = 0)
    (known : rank < system.topology.numRank) (alone : Alone (state.node 0).leaf) :
    Outcome.Keeps (fun reason => ¬reason.IsStepError) (fun next => Alone (next.node 0).leaf)
      (system.walkUp rank measured state) := by
  have controls : system.topology.numLevelCtl rank = 0 :=
    Nat.le_zero.mp (single ▸ Topology.numLevelCtl_le known)
  obtain rfl : rank = 0 := (Topology.controls_all known).mp (controls.trans single.symm)
  rw [walkUp, controls, List.range_zero, single]
  have start : Outcome.Keeps (fun reason => ¬AgentError.IsStepError reason)
      (fun walk : Option Sample × State => Alone (walk.2.node 0).leaf) (system.samplePlatform 0 measured state) := by
    rw [samplePlatform]
    refine (LeafRole.samplePlatform_policy _ _ _ _).bind fun result sampled => ?_
    obtain ⟨doSend, outSample, leaf⟩ := result
    obtain ⟨limit, policyStep, first, step, complete⟩ := sampled
    change Alone (((State.setNode _ 0 _)).node 0).leaf
    rw [State.setNode_node_self]
    refine ⟨fun isFirst => step.trans (alone.first (first ▸ isFirst)), fun later => ?_⟩
    have loops := alone.later (first ▸ later)
    constructor
    · rw [limit, step]
      exact loops.limit.imp_right fun both => ⟨both.1, complete both.2⟩
    · rw [policyStep, step]
      exact loops.stepCount.imp_right fun both => ⟨both.1, complete both.2⟩
  exact start.bind fun walk alone => alone

/-- A walk that is allowed raises no error about steps, and leads to a state in which no other walk does. -/
theorem Reached.perform (holds : system.Reached total state) (permits : system.Permits state action)
    (steady : system.Steady total state action) (inOrder : system.InOrder state action) :
    Outcome.Keeps (fun reason => ¬reason.IsStepError) (system.Reached total) (system.perform state action) := by
  by_cases single : system.topology.rootLevel = 0
  case pos =>
      have alone := holds.alone single
      have kept (next : State) (alone : Alone (next.node 0).leaf) : system.Reached total next :=
        ⟨fun tree => absurd single tree, fun _ => alone⟩
      cases action with
      | walkDown rank endpointPolicy clock => exact (walkDown_alone single permits.1 alone inOrder).mono kept
      | walkUp rank measured => exact (walkUp_alone single permits.1 alone).mono kept
  case neg =>
      have inStep := holds.tree single
      have kept (next : State) (inStep : system.InStep total next) : system.Reached total next :=
        ⟨fun _ => inStep, fun none => absurd none single⟩
      cases action with
      | walkDown rank endpointPolicy clock =>
          rw [InOrder, if_neg single] at inOrder
          exact (walkDown_inStep inStep single permits.1 steady inOrder).mono kept
      | walkUp rank measured =>
          refine (walkUp_inStep inStep permits.1 fun first => ?_).mono kept
          have odd := permits.2
          rw [first] at odd
          omega

theorem run_reached (permitted : Transition.Permitted system.step (system.Allows total) (.ok system.initial) actions) :
    Outcome.Keeps (fun reason => ¬reason.IsStepError) (system.Reached total)
      (Transition.run system.step (.ok system.initial) actions) := by
  refine @Transition.invariant_run _ _ system.step (system.Allows total) _ actions
    (Outcome.Keeps (fun reason => ¬AgentError.IsStepError reason) (system.Reached total))
    (fun reached action keeps allows => ?_) (initial_reached system total) permitted
  cases reached with
  | error reason => exact keeps
  | ok state =>
      obtain ⟨permits, steady, inOrder⟩ := allows state rfl
      exact Reached.perform keeps permits steady inOrder

/-- The nodes stay in step, in every run in which no leaf without a policy of a parent skips a step. -/
theorem steps_in_sync
    (permitted : Transition.Permitted system.step (system.Allows total) (.ok system.initial) actions) :
    system.InSync (Transition.run system.step (.ok system.initial) actions) := by
  have keeps := run_reached permitted
  constructor
  case left =>
      intro reason failed
      rw [failed] at keeps
      exact keeps
  case right =>
      intro state ran level rank isLink sent
      rw [ran] at keeps
      have tree : system.topology.rootLevel ≠ 0 := Nat.ne_of_gt (Nat.zero_lt_of_lt isLink.inside)
      have follows := (keeps.tree tree).follows level rank isLink
      exact (follows.trails_sent sent).step

instance (system : System) (state : State) : ∀ action, Decidable (system.Permits state action)
  | .walkDown _ _ _ => inferInstanceAs (Decidable (_ ∧ _))
  | .walkUp _ _ => inferInstanceAs (Decidable (_ ∧ _))

instance (system : System) (total : ℚ) (state : State) (endpointPolicy : Policy) :
    Decidable (system.HoldsPolicy total state endpointPolicy) :=
  decidable_of_iff (_ ∧ _) ⟨fun both => ⟨both.1, both.2⟩, fun holds => ⟨holds.first, holds.limit⟩⟩

instance (system : System) (total : ℚ) (state : State) : ∀ action, Decidable (system.Steady total state action)
  | .walkDown _ _ _ => inferInstanceAs (Decidable (_ → _))
  | .walkUp _ _ => inferInstanceAs (Decidable True)

instance (settings : PowerSettings) (leaf : LeafRole) (inPolicy : Policy) :
    Decidable (Harmless settings leaf inPolicy) :=
  inferInstanceAs (Decidable (∀ valid, inPolicy.validate settings = .ok valid →
    valid.powerPackageLimitTotal.eq (.value 0) = false ∨ leaf.StartsWith valid))

instance (system : System) (state : State) (rank : Nat) : Decidable (system.WaitsInOrder state rank) :=
  inferInstanceAs (Decidable (rank ≠ 0 → (state.link (system.topology.numLevelCtl rank) rank).policy = none →
    Harmless (system.settings rank) (state.node rank).leaf (state.node rank).inPolicy))

instance (system : System) (state : State) (rank : Nat) (endpointPolicy : Policy) :
    Decidable (system.BeginsInOrder state rank endpointPolicy) :=
  inferInstanceAs (Decidable ((state.node rank).leaf.isFirstPolicy = true →
    ∀ valid, (system.source endpointPolicy).policy.validate (system.settings rank) = .ok valid →
      (state.node rank).leaf.StartsWith valid))

instance (system : System) (state : State) : ∀ action, Decidable (system.InOrder state action)
  | .walkDown rank endpointPolicy _ => inferInstanceAs (Decidable (if system.topology.rootLevel = 0 then
      system.BeginsInOrder state rank endpointPolicy else system.WaitsInOrder state rank))
  | .walkUp _ _ => inferInstanceAs (Decidable True)

instance (system : System) (total : ℚ) (reached : Except AgentError State) (action : Action) :
    Decidable (system.Allows total reached action) :=
  inferInstanceAs (Decidable (∀ _, _ → _ ∧ _ ∧ _))

/-- One node alone. -/
def single : Topology where
  numRank := 1
  rootLevel := 0
  numLevelCtl _ := 0
  members _ _ := []
  parent _ rank := rank
  some_rank := Nat.one_pos
  root := rfl
  below _ known other := absurd (Nat.lt_one_iff.mp known) other
  parent_known _ _ _ inside := absurd inside (Nat.not_lt_zero _)
  parent_self _ _ _ controls := absurd controls (Nat.not_lt_zero _)
  mem_members _ _ _ controls := absurd controls (Nat.not_lt_zero _)

/-- A root with one more node. -/
def pair : Topology where
  numRank := 2
  rootLevel := 1
  numLevelCtl rank := if rank = 0 then 1 else 0
  members _ _ := [0, 1]
  parent _ _ := 0
  some_rank := Nat.two_pos
  root := rfl
  below := fun _ _ other => by simp [other]
  parent_known _ _ level inside _ := ⟨Nat.two_pos, inside⟩
  parent_self rank _ level controls := by
    by_contra other
    rw [if_neg (Ne.symm other)] at controls
    exact absurd controls (Nat.not_lt_zero _)
  mem_members head known level controls rank := by
    have first : head = 0 := by
      by_contra other
      rw [if_neg other] at controls
      exact absurd controls (Nat.not_lt_zero _)
    subst first
    simp only [List.mem_cons, List.not_mem_nil, or_false, and_true]
    have inside : level = 0 := by simpa using controls
    omega

/-- The nodes of a tree with the same packages and a policy from a file. -/
def withFile (topology : Topology) (policy : Policy) : System where
  topology
  settings _ := ⟨50, 300, 200⟩
  numPackage _ := 1
  filePolicy := some policy

/-- Nothing is measured. -/
def idle : Nat → Measured := fun _ => ⟨0, .nan, .nan, .nan, 0⟩

def walks : List Action :=
  [.walkDown 0 .unset fun _ => 0, .walkDown 1 .unset fun _ => 0, .walkUp 1 idle, .walkUp 0 idle,
    .walkDown 0 .unset fun _ => 0]

/-- The root goes on to the next step as its child has yet to. -/
theorem steps_in_sync_pair : (withFile pair ⟨.value 150, .value 5, .nan, .nan⟩).InSync
    (Transition.run (withFile pair ⟨.value 150, .value 5, .nan, .nan⟩).step
      (.ok (withFile pair ⟨.value 150, .value 5, .nan, .nan⟩).initial) walks) :=
  @steps_in_sync _ 150 _ (by decide +kernel)

/-- On a single node the leaf takes the step of the policy over although the limit is not zero. -/
theorem not_steps_in_sync_single :
    ¬∀ (system : System) (total : ℚ) (actions : List Action),
      Transition.Permitted system.step (fun reached action => ∀ state, reached = .ok state →
          system.Permits state action ∧ system.Steady total state action) (.ok system.initial) actions →
        system.InSync (Transition.run system.step (.ok system.initial) actions) := by
  intro all
  have permitted := all (withFile single ⟨.value 150, .value 5, .nan, .nan⟩) 150
    [.walkDown 0 .unset fun _ => 0, .walkUp 0 idle, .walkDown 0 .unset fun _ => 0] (by decide +kernel)
  have thrown : (Transition.run (withFile single ⟨.value 150, .value 5, .nan, .nan⟩).step
      (.ok (withFile single ⟨.value 150, .value 5, .nan, .nan⟩).initial)
      [.walkDown 0 .unset fun _ => 0, .walkUp 0 idle, .walkDown 0 .unset fun _ => 0]) =
        .error .policyStepOutOfSync :=
    Outcome.error_of_failure (by decide +kernel)
  exact permitted.1 _ thrown trivial

end System

end Balancer

end Geopm
