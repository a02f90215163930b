import Geopm.Balancer.Links
import Geopm.Balancer.PolicyLimits
import Geopm.Balancer.Reset

namespace Geopm

/-! What the nodes of a tree have in common while a new total limit is sent down. -/

namespace RootRole

/-- The policy of the root is that of its step, or the next one in a step that is complete. A limit that
arrived in a step that was complete leaves it complete. -/
structure Runs (role : RootRole) : Prop where
  rootCap : ∃ total : ℚ, role.rootCap = .value total
  nonneg : 0 ≤ role.stepCount
  announces : role.policy.Announces role.stepCount ∧ (role.isStepComplete = true → role.stepCount = 0) ∨
    role.policy.Announces (role.stepCount + 1) ∧ role.isStepComplete = true
  limit : role.policy.stepCount = .value 0 → role.policy.powerPackageLimitTotal = role.rootCap

def Sound (role : RootRole) : Prop :=
  Balancer.Agent.IsNew (.root role) ∧ role.policy.stepCount = .nan ∨ role.Runs

/-- The step that a new limit starts is not complete, or it has been completed since. -/
def Active (role : RootRole) : Prop :=
  role.stepCount = 0 ∧ (role.isStepComplete = true → role.policy.stepCount = .value 1)

instance (role : RootRole) : Decidable role.Active := inferInstanceAs (Decidable (_ ∧ _))

variable {settings : PowerSettings} {role next : RootRole} {inPolicy : Policy} {inSample : List Sample}
  {result : Bool} {outSample : Sample}

/-- A changed total limit is always sent. -/
theorem descend_changed (changed : inPolicy.powerPackageLimitTotal.eq role.rootCap = false)
    (done : role.descend settings inPolicy = .ok (result, next)) : result = true := by
  simp only [descend, changed, Bool.not_false, if_true] at done
  split at done
  · cases done
  · cases done
    rfl

/-- What `descend` does where the total limit is the same. -/
theorem descend_same (same : inPolicy.powerPackageLimitTotal.eq role.rootCap = true)
    (done : role.descend settings inPolicy = .ok (result, next)) :
    result = true ∧ role.policy.stepCount = .value (role.stepCount + 1) ∧
        next = { role with stepCount := role.stepCount + 1, isStepComplete := false } ∨
      result = false ∧ next = role := by
  rw [descend, same, Bool.not_true, if_neg Bool.false_ne_true] at done
  by_cases following : (Number.value (role.stepCount + 1)).eq role.policy.stepCount
  case pos =>
      rw [if_pos following] at done
      cases done
      exact .inl ⟨rfl, (Number.of_eq following).symm, rfl⟩
  case neg =>
      rw [if_neg following] at done
      split at done
      · cases done
        exact .inr ⟨rfl, rfl⟩
      · cases done

/-- What `ascend` does. -/
theorem ascend_cases (done : role.ascend inSample = .ok (result, outSample, next)) :
    result = true ∧ role.isStepComplete = false ∧ outSample = Sample.aggregate inSample ∧
        outSample.stepCount = .value role.stepCount ∧ role.policy.stepCount = .value role.stepCount ∧
        next = { role with
          isStepComplete := true
          policy := { (BalancerStep.ofCount role.stepCount).updatePolicy role.numNode outSample role.policy with
            stepCount := .value (role.stepCount + 1) } } ∨
      result = false ∧ next = role := by
  rw [ascend] at done
  by_cases finished : (!role.isStepComplete && (Sample.aggregate inSample).stepCount.eq (.value role.stepCount)) = true
  case pos =>
      have both := Bool.and_eq_true_iff.mp finished
      have rises : role.treeAscend inSample =
          .ok (true, Sample.aggregate inSample, { role with isStepComplete := true }) := by
        unfold treeAscend
        exact (if_pos finished).trans (if_pos both.2)
      rw [rises] at done
      change (if (Number.value role.stepCount).eq role.policy.stepCount = true then _ else _) = _ at done
      split at done
      · next same =>
          cases done
          exact .inl ⟨rfl, by simpa using both.1, rfl, Number.of_eq both.2, (Number.of_eq same).symm, rfl⟩
      · cases done
  case neg =>
      have rises : role.treeAscend inSample = .ok (false, Sample.aggregate inSample, role) := by
        unfold treeAscend
        exact if_neg finished
      rw [rises] at done
      cases done
      exact .inr ⟨rfl, rfl⟩

/-- A limit is accepted. -/
theorem Sound.accept {total : ℚ} :
    Sound { role with stepCount := 0, policy := ⟨.value total, .value 0, .value 0, .value 0⟩, rootCap := .value total } := by
  have announces : Policy.Announces ⟨.value total, .value 0, .value 0, .value 0⟩ 0 :=
    ⟨by simp, Int.le_refl 0, fun later => absurd later (Int.lt_irrefl 0)⟩
  exact .inr ⟨⟨total, rfl⟩, Int.le_refl 0, .inl ⟨announces, fun _ => rfl⟩, fun _ => rfl⟩

/-- The next step is sent. -/
theorem Runs.advance (runs : role.Runs) (following : role.policy.stepCount = .value (role.stepCount + 1)) :
    Runs { role with stepCount := role.stepCount + 1, isStepComplete := false } ∧ role.isStepComplete = true := by
  have nonneg := runs.nonneg
  have later : role.policy.Announces (role.stepCount + 1) ∧ role.isStepComplete = true := by
    refine runs.announces.resolve_left fun now => ?_
    have same := Number.value.inj (following.symm.trans now.1.stepCount)
    have step : role.stepCount + 1 = role.stepCount := Int.cast_injective (by rw [← same, Int.cast_add, Int.cast_one])
    omega
  refine ⟨⟨runs.rootCap, by simp only; omega, .inl ⟨later.1, fun complete => by cases complete⟩, fun start => ?_⟩, later.2⟩
  have step := Number.value.inj (start.symm.trans later.1.stepCount)
  have zero : (0 : Int) = role.stepCount + 1 := Int.cast_injective (by rw [← step, Int.cast_zero])
  omega

/-- The step is completed. -/
theorem Runs.finish (runs : role.Runs) (incomplete : role.isStepComplete = false) (sample : Sample) :
    Runs { role with
      isStepComplete := true
      policy := { (BalancerStep.ofCount role.stepCount).updatePolicy role.numNode sample role.policy with
        stepCount := .value (role.stepCount + 1) } } := by
  have nonneg := runs.nonneg
  have announces : role.policy.Announces role.stepCount := by
    refine (runs.announces.resolve_right fun later => ?_).1
    rw [incomplete] at later
    cases later.2
  have limit := BalancerStep.updatePolicy_limit announces role.numNode sample
  refine ⟨runs.rootCap, nonneg, .inr ⟨⟨by simp, Int.le_add_one nonneg, fun _ => limit⟩, rfl⟩, fun start => ?_⟩
  have step : (role.stepCount : ℚ) + 1 = 0 := Number.value.inj start
  have zero : role.stepCount + 1 = 0 := by exact_mod_cast step
  omega

end RootRole

namespace TreeRole

variable {role next : TreeRole} {inPolicy : Policy} {inSample : List Sample} {result : Bool} {outSample : Sample}

theorem descend_cases (done : role.descend inPolicy = .ok (result, next)) :
    result = true ∧ role.isStepComplete = true ∧ inPolicy.stepCount ≠ .value role.stepCount ∧
        inPolicy.stepCount = .value next.stepCount ∧ (next.stepCount = 0 ∨ next.stepCount = role.stepCount + 1) ∧
        next = ⟨inPolicy, next.stepCount, false⟩ ∨
      result = false ∧ next = role := by
  rw [descend] at done
  split at done
  · next ready =>
      have both := Bool.and_eq_true_iff.mp ready
      have other : inPolicy.stepCount ≠ .value role.stepCount := by
        intro same
        simp [same] at both
      split at done
      · next first =>
          cases done
          refine .inl ⟨rfl, both.1, other, ?_, .inl rfl, rfl⟩
          rw [Number.of_eq first, Int.cast_zero]
      · split at done
        · next following =>
            cases done
            refine .inl ⟨rfl, both.1, other, ?_, .inr rfl, rfl⟩
            rw [Number.of_eq following, Int.cast_add, Int.cast_one]
        · cases done
  · cases done
    exact .inr ⟨rfl, rfl⟩

theorem ascend_cases (done : role.ascend inSample = .ok (result, outSample, next)) :
    result = true ∧ role.isStepComplete = false ∧ outSample = Sample.aggregate inSample ∧
        outSample.stepCount = .value role.stepCount ∧ next = { role with isStepComplete := true } ∨
      result = false ∧ next = role := by
  rw [ascend] at done
  split at done
  · next finished =>
      have both := Bool.and_eq_true_iff.mp finished
      rw [if_pos both.2] at done
      cases done
      exact .inl ⟨rfl, by simpa using both.1, rfl, Number.of_eq both.2, rfl⟩
  · cases done
    exact .inr ⟨rfl, rfl⟩

end TreeRole

namespace LeafRole

open Balancer (Progress)

variable {settings : PowerSettings} {role next : LeafRole} {inPolicy : Policy} {numNode : Nat} {clock : Nat → ℚ}
  {adjusts : Bool} {total : ℚ}

/-- Each package has its part of the total limit as its cap. -/
def Capped (total : ℚ) (role : LeafRole) : Prop :=
  ∀ package ∈ role.packages, package.powerBalancer.powerCap = .value (total / role.packages.length)

/-- A leaf that is sent a limit sets its caps and completes the first step. -/
theorem adjustPlatform_resets (given : inPolicy.powerPackageLimitTotal = .value total) (other : total ≠ 0)
    (done : role.adjustPlatform settings false numNode inPolicy clock = .ok (adjusts, next)) :
    next.progress = ⟨0, true⟩ ∧ next.Capped total := by
  have taken : ({ role with policy := inPolicy } : LeafRole).takePolicy settings =
      .ok ({ role with policy := inPolicy } : LeafRole).resetCaps := by
    rw [takePolicy, given]
    exact if_pos (by simp [other])
  obtain ⟨_, reset, adjusted, progress, _⟩ := adjustPlatform_progress false numNode clock taken
  obtain ⟨_, capped, again, length, caps⟩ :=
    @adjustPlatform_caps settings false numNode role clock total (.inl rfl) inPolicy other given
  rw [adjusted] at done again
  cases done
  cases again
  refine ⟨progress.trans resetCaps_progress, fun package member => ?_⟩
  rw [length]
  exact caps package member

/-- A leaf that is sent no limit stays as it is, or takes the step of its policy. -/
theorem adjustPlatform_advances (given : inPolicy.powerPackageLimitTotal = .value 0)
    (done : role.adjustPlatform settings false numNode inPolicy clock = .ok (adjusts, next)) :
    next.progress = role.progress ∨ inPolicy.stepCount = .value next.stepCount := by
  cases taken : ({ role with policy := inPolicy } : LeafRole).takePolicy settings with
  | error reason =>
      rw [adjustPlatform, if_neg Bool.false_ne_true, taken] at done
      cases done
  | ok entered =>
      obtain ⟨_, reached, adjusted, progress, _⟩ := adjustPlatform_progress false numNode clock taken
      rw [adjusted] at done
      cases done
      rw [takePolicy, given] at taken
      by_cases same : inPolicy.stepCount = .value role.stepCount
      case pos =>
          left
          simp only [same, Number.eq_value, decide_true, Bool.not_true, Bool.false_eq_true, if_false] at taken
          cases taken
          exact progress
      case neg =>
          right
          have differs : inPolicy.stepCount.eq (.value role.stepCount) = false := by
            rw [← Bool.not_eq_true]
            exact fun equal => same (Number.of_eq equal)
          simp only [differs, Number.eq_value, decide_true, Bool.not_true, Bool.false_eq_true, if_false, Bool.not_false,
            if_true] at taken
          split at taken
          · cases taken
          · next following =>
              cases taken
              have step : next.stepCount = role.stepCount + 1 :=
                (congrArg Progress.stepCount progress).trans enterStep_stepCount
              rw [step]
              exact Number.of_eq (by simpa using following)

/-- In the first step the signals change nothing. -/
theorem samplePlatform_first {measured : Nat → Measured} {isSingleNode isComplete : Bool} {sample : Sample}
    (start : role.stepCount = 0)
    (done : role.samplePlatform settings isSingleNode measured = .ok (isComplete, sample, next)) :
    next.packages = role.packages := by
  have sampled : role.sampleStep settings measured = .ok role.packages := by
    rw [sampleStep, start]
    rfl
  rw [samplePlatform, sampled] at done
  cases done
  rfl

end LeafRole

namespace Balancer

/-- What holds along each link in every run. -/
structure Conforms (level : Nat) (link : Link) (parent : Agent) (child : Progress) : Prop where
  silent : link.policy = none ↔ parent.IsNew
  sent : ∀ policy, link.policy = some policy → policy.Announces parent.stepCount
  reported : level ≠ 0 → link.sample ≠ none → child.stepCount ≠ -1
  before : level ≠ 0 → 0 < parent.stepCount ∨ parent.stepCount = 0 ∧ parent.isStepComplete = true →
    child.stepCount ≠ -1

/-- What holds along each link while a total limit is sent down. -/
structure Current (total : ℚ) (link : Link) (parent : Agent) (child : Progress) : Prop where
  limit : ∀ policy, link.policy = some policy → parent.stepCount = 0 → policy.powerPackageLimitTotal = .value total
  below : child.stepCount = 0 → parent.stepCount ≤ 0
  sample : ∀ sample, link.sample = some sample → sample.stepCount = .value 0 → child = ⟨0, true⟩
  complete : parent.progress = ⟨0, true⟩ → child = ⟨0, true⟩

variable {level : Nat} {link : Link} {parent next : Agent} {child grown : Progress} {policy : Policy} {sample : Sample}
  {total : ℚ}

namespace Conforms

theorem change (conforms : Conforms level link parent child)
    (stays : level ≠ 0 → child.stepCount ≠ -1 → grown.stepCount ≠ -1) : Conforms level link parent grown where
  silent := conforms.silent
  sent := conforms.sent
  reported := fun upper some => stays upper (conforms.reported upper some)
  before := fun upper past => stays upper (conforms.before upper past)

theorem sendUp (conforms : Conforms level link parent child) (known : level ≠ 0 → child.stepCount ≠ -1) :
    Conforms level { link with sample := some sample } parent child where
  silent := conforms.silent
  sent := conforms.sent
  reported := fun upper _ => known upper
  before := conforms.before

theorem receiveUp (conforms : Conforms level link parent child) :
    Conforms level { link with sample := none } parent child where
  silent := conforms.silent
  sent := conforms.sent
  reported := fun _ some => absurd rfl some
  before := conforms.before

theorem sendDown (conforms : Conforms level link parent child) (announces : policy.Announces next.stepCount)
    (known : ¬next.IsNew)
    (past : 0 < next.stepCount ∨ next.stepCount = 0 ∧ next.isStepComplete = true →
      0 < parent.stepCount ∨ parent.stepCount = 0 ∧ parent.isStepComplete = true) :
    Conforms level { link with policy := some policy } next child where
  silent := ⟨fun none => by simp at none, fun isNew => absurd isNew known⟩
  sent := by
    intro held same
    cases same
    exact announces
  reported := conforms.reported
  before := fun upper later => conforms.before upper (past later)

/-- Where the parent completes a step it has taken a sample of each child. -/
theorem complete (conforms : Conforms level link parent child) (known : ¬parent.IsNew) (nextKnown : ¬next.IsNew)
    (step : next.stepCount = parent.stepCount) (some : link.sample ≠ none) :
    Conforms level { link with sample := none } next child where
  silent := ⟨fun none => absurd (conforms.silent.mp none) known, fun isNew => absurd isNew nextKnown⟩
  sent := by
    rw [step]
    exact conforms.sent
  reported := fun _ none => absurd rfl none
  before := fun upper _ => conforms.reported upper some

/-- A parent that has had a policy is in a step. -/
theorem nonneg (conforms : Conforms level link parent child) (known : ¬parent.IsNew) : 0 ≤ parent.stepCount := by
  cases sent : link.policy with
  | none => exact absurd (conforms.silent.mp sent) known
  | some policy => exact (conforms.sent policy sent).nonneg

end Conforms

namespace Current

theorem sendUp (current : Current total link parent child)
    (complete : sample.stepCount = .value 0 → child = ⟨0, true⟩) :
    Current total { link with sample := some sample } parent child where
  limit := current.limit
  below := current.below
  sample := by
    intro held same
    cases same
    exact complete
  complete := current.complete

theorem receiveUp (current : Current total link parent child) :
    Current total { link with sample := none } parent child where
  limit := current.limit
  below := current.below
  sample := by
    intro sample held
    cases held
  complete := current.complete

/-- A child that completes its step. -/
theorem grow (current : Current total link parent child) (step : grown.stepCount = child.stepCount)
    (complete : child.isStepComplete = true → grown.isStepComplete = true) : Current total link parent grown := by
  have finished (done : child = ⟨0, true⟩) : grown = ⟨0, true⟩ := by
    obtain ⟨stepCount, isComplete⟩ := grown
    rw [done] at step complete
    rw [show stepCount = 0 from step, show isComplete = true from complete rfl]
  exact ⟨current.limit, fun start => current.below (step ▸ start),
    fun sample held start => finished (current.sample sample held start), fun done => finished (current.complete done)⟩

/-- Where the parent completes a step its children have completed the first step, if it is that. -/
theorem finish (current : Current total link parent child) (step : next.stepCount = parent.stepCount)
    (complete : parent.stepCount = 0 → child = ⟨0, true⟩) : Current total { link with sample := none } next child where
  limit := by
    rw [step]
    exact current.limit
  below := by
    rw [step]
    exact current.below
  sample := by
    intro sample held
    cases held
  complete := by
    intro done
    exact complete (step.symm.trans (congrArg Progress.stepCount done))

end Current

end Balancer

end Geopm
