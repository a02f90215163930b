import Geopm.Balancer.BudgetDown

namespace Geopm

/-! What a leaf may use once it has taken a policy, or a sample. -/

namespace LeafRole

variable {settings : PowerSettings} {total : ℚ} {role : LeafRole}

/-- Nothing that is kept depends on the policy. -/
theorem Kept.withPolicy (kept : role.Kept settings total) (policy : Policy) :
    ({ role with policy } : LeafRole).Kept settings total :=
  ⟨kept.sound, kept.settled, kept.reports, kept.capped⟩

end LeafRole

namespace Balancer

namespace System

variable {system : System} {total : ℚ} {state next : State} {rank : Nat} {inPolicy : Policy} {leaf : LeafRole}

theorem Affords.share (affords : system.Affords total) (known : rank < system.topology.numRank) :
    0 < total ∧ 0 < (system.settings rank).minPkgPowerSetting ∧
      total / system.numPackage rank ≤ (system.settings rank).maxPkgPowerSetting := by
  have some_package : (0 : ℚ) < system.numPackage rank := Nat.cast_pos.mpr (affords.some_package rank known)
  have trial := affords.trial rank known
  have low := affords.low rank known
  have default : (0 : ℚ) < ({} : PowerBalancer).trialDelta := by decide +kernel
  rw [le_div_iff₀ some_package] at low
  have positive : 0 < total := lt_of_lt_of_le (mul_pos (by linarith) some_package) low
  have high := (affords.fits.2 rank known).2
  refine ⟨positive, by linarith, ?_⟩
  rw [div_le_iff₀ some_package]
  refine high.trans (le_mul_of_one_le_right (positive.le.trans high) ?_)
  exact Nat.one_le_cast.mpr (affords.some_package rank known)

/-- A leaf that starts with its packages' parts of the total limit. -/
theorem Budget.resets (budget : system.Budget total state) (affords : system.Affords total)
    (known : rank < system.topology.numRank) (given : inPolicy.powerPackageLimitTotal = .value total)
    (clock : Nat → ℚ) :
    ((({ (state.node rank).leaf with policy := inPolicy } : LeafRole).resetCaps.requests (system.settings rank)
        clock).Stocked (system.settings rank) total (system.numPackage rank)) ∧
      (({ (state.node rank).leaf with policy := inPolicy } : LeafRole).resetCaps.requests (system.settings rank)
        clock).Requested (system.settings rank) ∧
      (({ (state.node rank).leaf with policy := inPolicy } : LeafRole).resetCaps.requests (system.settings rank)
        clock).capSum = total := by
  have stocked := budget.leaves rank known
  have share := affords.share known
  have low := affords.low rank known
  have high := share.2.2
  rw [← stocked.length] at low high
  have kept := @LeafRole.resetCaps_kept (system.settings rank) total { (state.node rank).leaf with policy := inPolicy }
    stocked.tries given share.2.1 low high
  have requests := @LeafRole.Kept.requests (system.settings rank) total _ clock kept
  have length : (({ (state.node rank).leaf with policy := inPolicy } : LeafRole).resetCaps.requests
      (system.settings rank) clock).packages.length = system.numPackage rank := by
    rw [LeafRole.requests_length, ← stocked.length]
    exact List.length_map _
  refine ⟨⟨length, fun package member => (requests.1.sound package member).tries, fun none => ?_,
    fun _ => requests.1⟩, requests.2.1, ?_⟩
  · have start : (0 : Int) = -1 := none
    omega
  refine LeafRole.capSum_of_capped (fun none => ?_) (requests.1.capped rfl)
  have some_package := affords.some_package rank known
  rw [none, List.length_nil] at length
  omega

/-- A leaf that stays in its step. -/
theorem Budget.goes_stays {node : Node} (budget : system.Budget total state) (inStep : system.InStep total state)
    (tree : system.topology.rootLevel ≠ 0) (known : rank < system.topology.numRank)
    (agents : node.agent = (state.node rank).agent) (started : (state.node rank).leaf.stepCount ≠ -1)
    (kept : node.leaf.Kept (system.settings rank) total)
    (length : node.leaf.packages.length = (state.node rank).leaf.packages.length)
    (step : node.leaf.stepCount = (state.node rank).leaf.stepCount)
    (requested : node.walks % 2 = 1 → node.leaf.stepCount ≠ -1 ∧ node.leaf.Requested (system.settings rank))
    (caps : node.leaf.capSum = (state.node rank).leaf.capSum)
    (limits : (state.node rank).leaf.areStepsComplete = true →
      node.leaf.limitSum = (state.node rank).leaf.limitSum) : system.Goes total state rank node := by
  have root : system.rootRole (state.setNode rank node) = system.rootRole state := rootRole_setNode agents
  have waits_iff : system.Waits (state.setNode rank node) rank ↔ system.Waits state rank := by
    rw [Waits, Waits, root, State.setNode_node_self, step]
  -- a leaf that has yet to take the slack has completed its step
  have complete (waits : system.Waits state rank) : (state.node rank).leaf.areStepsComplete = true := by
    have completed := (inStep.leaf_behind tree known).2
    rw [← waits.2, add_sub_cancel_right] at completed
    cases completed with
    | inl less => exact absurd less (Int.lt_irrefl _)
    | inr same => exact same.2
  constructor
  case stocked =>
      exact ⟨length.trans (budget.leaves rank known).length, fun package member => (kept.sound package member).tries,
        fun none => absurd (step.symm.trans none) started, fun _ => kept⟩
  case requested => exact requested
  case forward => exact fun _ => step.ge
  case reduced =>
      intro count _ before _
      exact ⟨caps, limits (congrArg Progress.isStepComplete before)⟩
  case waits =>
      intro _ waits
      have waited := waits_iff.mp waits
      exact ⟨waited, limits (complete waited)⟩
  case charge =>
      intro _
      rw [charge, charge, root, State.setNode_node_self, if_congr waits_iff rfl rfl]
      split
      · next waits => rw [limits (complete waits)]
      · exact caps

/-- A leaf that is given the total limit. -/
theorem Budget.goes_resets {node : Node} {clock : Nat → ℚ} (budget : system.Budget total state)
    (inStep : system.InStep total state) (affords : system.Affords total)
    (tree : system.topology.rootLevel ≠ 0) (known : rank < system.topology.numRank)
    (agents : node.agent = (state.node rank).agent) (early : (state.node rank).leaf.stepCount ≤ 0)
    (given : inPolicy.powerPackageLimitTotal = .value total)
    (reset : node.leaf = ({ (state.node rank).leaf with policy := inPolicy } : LeafRole).resetCaps.requests
      (system.settings rank) clock) : system.Goes total state rank node := by
  obtain ⟨stocked, requested, whole⟩ := budget.resets affords known given clock
  rw [← reset] at stocked requested whole
  have root : system.rootRole (state.setNode rank node) = system.rootRole state := rootRole_setNode agents
  have step : node.leaf.stepCount = 0 := by
    rw [reset]
    rfl
  have first (past : 0 < (system.rootRole state).announced) :
      (state.node rank).leaf.stepCount = 0 ∧ (state.node rank).leaf.capSum = total := by
    obtain ⟨nonneg, kept⟩ := budget.started inStep tree known past
    have zero : (state.node rank).leaf.stepCount = 0 := by omega
    refine ⟨zero, LeafRole.capSum_of_capped (fun none => ?_) (kept.capped zero)⟩
    have length := (budget.leaves rank known).length
    have some_package := affords.some_package rank known
    rw [none, List.length_nil] at length
    omega
  -- no slack is given out in the step after the first
  have never {count : Int} (start : count = 0) (announced : count + 1 = (system.rootRole state).announced) :
      BalancerStep.ofCount (system.rootRole state).announced ≠ .sendDownLimit := by
    rw [← announced, start]
    decide
  constructor
  case stocked => exact stocked
  case requested => exact fun _ => ⟨by rw [step]; decide, requested⟩
  case forward =>
      intro reduces
      rw [step] at reduces
      cases reduces
  case reduced =>
      intro count reduces _ complete
      have zero : node.leaf.stepCount = count := congrArg Progress.stepCount complete
      rw [← zero, step] at reduces
      cases reduces
  case waits =>
      intro past waits
      rw [Waits, root, State.setNode_node_self] at waits
      exact absurd waits.1 (never step waits.2)
  case charge =>
      intro past
      obtain ⟨zero, caps⟩ := first past
      rw [charge, charge, if_neg, if_neg, State.setNode_node_self, whole, caps]
      · exact fun waits => never zero waits.2 waits.1
      · rw [Waits, root, State.setNode_node_self]
        exact fun waits => never step waits.2 waits.1

/-- A leaf that goes on to the step that the root has announced. -/
theorem Budget.goes_advance {node : Node} {clock : Nat → ℚ} (budget : system.Budget total state)
    (inStep : system.InStep total state) (affords : system.Affords total)
    (tree : system.topology.rootLevel ≠ 0) (known : rank < system.topology.numRank)
    (agents : node.agent = (state.node rank).agent) (nonneg : 0 ≤ (state.node rank).leaf.stepCount)
    (following : (state.node rank).leaf.stepCount + 1 = (system.rootRole state).announced)
    (slack : BalancerStep.ofCount (system.rootRole state).announced = .sendDownLimit →
      inPolicy.powerSlack = .value (system.rootRole state).slack)
    (advance : node.leaf = (({ (state.node rank).leaf with policy := inPolicy } : LeafRole).advance.enterStep
      (system.settings rank) inPolicy).requests (system.settings rank) clock) : system.Goes total state rank node := by
  have stocked := budget.leaves rank known
  have root : system.rootRole (state.setNode rank node) = system.rootRole state := rootRole_setNode agents
  have past : 0 < (system.rootRole state).announced := by omega
  have kept := stocked.kept (by omega)
  have complete : (state.node rank).leaf.areStepsComplete = true := by
    have completed := (inStep.leaf_behind tree known).2
    rw [← following, add_sub_cancel_right] at completed
    cases completed with
    | inl less => exact absurd less (Int.lt_irrefl _)
    | inr same => exact same.2
  have some_package : (state.node rank).leaf.packages ≠ [] := by
    intro none
    have length := stocked.length
    have some_package := affords.some_package rank known
    rw [none, List.length_nil] at length
    omega
  have enters := @LeafRole.Kept.enters (system.settings rank) total
    { (state.node rank).leaf with policy := inPolicy } inPolicy (system.rootRole state).slack (kept.withPolicy inPolicy)
    nonneg complete some_package fun sends => by
      have announced : BalancerStep.ofCount (system.rootRole state).announced = .sendDownLimit := following ▸ sends
      obtain ⟨_, positive, fits⟩ := budget.shares past announced
      exact ⟨slack announced, positive, fits rank known ⟨announced, following⟩⟩
  obtain ⟨nextKept, requested, caps, _⟩ := @LeafRole.Kept.requests (system.settings rank) total _ clock enters.kept
  rw [← advance] at nextKept requested caps
  have step : node.leaf.stepCount = (state.node rank).leaf.stepCount + 1 := by
    rw [advance]
    exact enters.stepCount
  constructor
  case stocked =>
      refine ⟨?_, fun package member => (nextKept.sound package member).tries, fun none => by omega, fun _ => nextKept⟩
      rw [advance, LeafRole.requests_length, enters.length]
      exact stocked.length
  case requested => exact fun _ => ⟨by omega, requested⟩
  case forward => exact fun _ => by omega
  case reduced =>
      intro count _ before after
      have first : (state.node rank).leaf.stepCount = count := congrArg Progress.stepCount before
      have second : node.leaf.stepCount = count := congrArg Progress.stepCount after
      omega
  case waits =>
      intro _ waits
      rw [Waits, root, State.setNode_node_self] at waits
      have again := waits.2
      omega
  case charge =>
      intro _
      have taken : ¬system.Waits (state.setNode rank node) rank := by
        rw [Waits, root, State.setNode_node_self]
        intro waits
        have again := waits.2
        omega
      rw [charge, charge, if_neg taken, State.setNode_node_self, caps]
      have entered := enters.stepCount
      by_cases sends : BalancerStep.ofCount (system.rootRole state).announced = .sendDownLimit
      case pos =>
          rw [if_pos ⟨sends, following⟩]
          exact enters.sends (by rw [entered, following]; exact sends)
      case neg =>
          rw [if_neg fun waits => sends waits.1]
          exact (enters.others (by rw [entered, following]; exact sends)).1

/-- What a leaf of the tree does with a policy that it has been sent, or with the total limit. -/
theorem Budget.goes_adjustPlatform {valid : Policy} {clock : Nat → ℚ} {adjusts : Bool} {node : Node}
    (budget : system.Budget total state) (inStep : system.InStep total state) (affords : system.Affords total)
    (tree : system.topology.rootLevel ≠ 0) (known : rank < system.topology.numRank)
    (heard : ∀ policy, (state.link 0 rank).policy = some policy → inPolicy = policy)
    (told : (state.link 0 rank).policy = none → valid.powerPackageLimitTotal = .value total)
    (accepted : inPolicy.validate (system.settings rank) = .ok valid)
    (done : (state.node rank).leaf.adjustPlatform (system.settings rank) false system.topology.numRank valid clock =
      .ok (adjusts, node.leaf))
    (agents : node.agent = (state.node rank).agent) : system.Goes total state rank node := by
  have isLink : system.topology.IsLink 0 rank := ⟨known, Nat.pos_of_ne_zero tree, Nat.zero_le _⟩
  have follows := inStep.follows 0 rank isLink
  have some_total : (Number.value total).eq (.value 0) = false := by
    rw [Number.eq_value]
    exact decide_eq_false (affords.share known).1.ne'
  have behind : (state.node rank).leaf.stepCount ≤
      (Link.heard (state.link 0 rank) ((state.node (system.topology.parent 0 rank)).agent 0)).stepCount :=
    follows.trails.behind
  rw [Link.heard] at behind
  cases sent : (state.link 0 rank).policy with
  | none =>
      have given := told sent
      rw [if_pos sent] at behind
      cases LeafRole.adjustPlatform_cases done with
      | inl resets => exact budget.goes_resets inStep affords tree known agents behind given resets.2
      | inr rest =>
          have limit := rest.elim And.left And.left
          rw [given, some_total] at limit
          cases limit
  | some policy =>
      rw [if_neg (by rw [sent]; exact Option.some_ne_none policy)] at behind
      have announces := follows.sent policy sent
      rw [heard policy sent] at accepted
      have announced := announces.validate accepted
      have nonneg := announces.nonneg
      have gives (start : ((state.node (system.topology.parent 0 rank)).agent 0).stepCount = 0) :=
        affords.fits.validate known (budget.gives 0 rank isLink start policy sent) accepted
      cases LeafRole.adjustPlatform_cases done with
      | inl resets =>
          have start : ((state.node (system.topology.parent 0 rank)).agent 0).stepCount = 0 := by
            by_contra later
            have none := resets.1
            rw [announced.limit (by omega)] at none
            simp at none
          exact budget.goes_resets inStep affords tree known agents (behind.trans start.le) (gives start) resets.2
      | inr rest =>
          have later : ((state.node (system.topology.parent 0 rank)).agent 0).stepCount ≠ 0 := by
            intro start
            have limit := rest.elim And.left And.left
            rw [gives start, some_total] at limit
            cases limit
          cases rest with
          | inl same =>
              obtain ⟨_, held, ends⟩ := same
              have step : (state.node rank).leaf.stepCount =
                  ((state.node (system.topology.parent 0 rank)).agent 0).stepCount :=
                Int.cast_injective (Number.value.inj (held.symm.trans announced.stepCount))
              have kept := ((budget.leaves rank known).kept (by omega)).withPolicy valid
              obtain ⟨nextKept, requested, caps, limits⟩ := @LeafRole.Kept.requests (system.settings rank) total _ clock kept
              rw [← ends] at nextKept requested caps limits
              have stays : node.leaf.stepCount = (state.node rank).leaf.stepCount := by
                rw [ends]
                rfl
              exact budget.goes_stays inStep tree known agents (by omega) nextKept (by rw [ends]; exact LeafRole.requests_length) stays
                (fun _ => ⟨by omega, requested⟩) caps limits
          | inr following =>
              obtain ⟨_, held, ends⟩ := following
              have step : (state.node rank).leaf.stepCount + 1 =
                  ((state.node (system.topology.parent 0 rank)).agent 0).stepCount := by
                have equal := Number.value.inj (held.symm.trans announced.stepCount)
                exact_mod_cast equal
              have parent := inStep.parent_behind tree isLink
              have completed := (inStep.leaf_behind tree known).2.le
              have current : (state.node rank).leaf.progress.stepCount = (state.node rank).leaf.stepCount := rfl
              have atMost : (system.rootRole state).stepCount ≤ (system.rootRole state).announced := by
                rw [RootRole.announced]
                split <;> omega
              refine budget.goes_advance inStep affords tree known agents (by omega) (by omega) (fun sends => ?_) ends
              have now : ((state.node (system.topology.parent 0 rank)).agent 0).stepCount =
                  (system.rootRole state).stepCount := by omega
              have same : (system.rootRole state).announced = (system.rootRole state).stepCount := by omega
              exact Fits.validate_slack (budget.carries (same ▸ sends) 0 rank isLink now policy sent) accepted

end System

end Balancer

end Geopm
