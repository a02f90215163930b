import Geopm.Balancer.Follows
import Geopm.Balancer.MeasureRuntime

namespace Geopm

/-! How far the leaves of the tree are behind their parents. -/

namespace Package

variable {settings : PowerSettings} {package next : Package} {measured : Measured}

/-- A package that is complete stays so while it is sampled. -/
theorem measureRuntime_complete (done : package.measureRuntime measured = .ok next)
    (complete : package.isStepComplete = true) : next.isStepComplete = true := by
  have old : package.hasNewEpoch measured = false := by simp [hasNewEpoch, complete]
  rw [measureRuntime, old] at done
  cases done
  exact complete

theorem reduceLimit_complete (done : package.reduceLimit settings measured = .ok next)
    (complete : package.isStepComplete = true) : next.isStepComplete = true := by
  have old : package.hasNewEpoch measured = false := by simp [hasNewEpoch, complete]
  rw [reduceLimit, old] at done
  cases done
  exact complete

end Package

namespace LeafRole

open Balancer (Progress)

variable {settings : PowerSettings} {role next : LeafRole} {above : Progress} {inPolicy : Policy}
  {isSingleNode isComplete : Bool} {numNode : Nat} {clock : Nat → ℚ} {measured : Nat → Measured} {sample : Sample}

def progress (role : LeafRole) : Progress := ⟨role.stepCount, role.areStepsComplete⟩

theorem enterStep_stepCount : (role.enterStep settings inPolicy).stepCount = role.stepCount := by
  rw [enterStep]
  cases BalancerStep.ofCount role.stepCount <;> rfl

theorem resetCaps_progress : role.resetCaps.progress = ⟨0, true⟩ := by
  simp [progress, resetCaps, areStepsComplete, Package.setComplete]

/-- A leaf takes a limit only in the first step, and else the step that its policy has. -/
theorem takePolicy_follows (settings : PowerSettings) (role : LeafRole) (trails : above.Trails role.progress)
    (first : role.policy.powerPackageLimitTotal.eq (.value 0) = false → above.stepCount = 0)
    (step : role.policy.powerPackageLimitTotal.eq (.value 0) = true →
      role.policy.stepCount = .value above.stepCount ∨ role.policy.stepCount = .value role.stepCount) :
    ∃ next, role.takePolicy settings = .ok next ∧ above.Trails next.progress ∧
      ∀ count, role.progress.Completed count → next.progress.Completed count := by
  rw [takePolicy]
  cases limit : role.policy.powerPackageLimitTotal.eq (.value 0) with
  | false =>
      refine ⟨role.resetCaps, rfl, ?_⟩
      have start := first limit
      have behind : role.stepCount ≤ above.stepCount := trails.behind
      have finished (count : Int) (early : count ≤ 0) : (⟨0, true⟩ : Progress).Completed count := by
        cases Int.lt_or_eq_of_le early with
        | inl less => exact .inl less
        | inr same => exact .inr ⟨same, rfl⟩
      rw [resetCaps_progress]
      refine ⟨⟨start.ge, finished _ (by omega), fun _ => finished _ (by omega)⟩, fun count completed => ?_⟩
      have early : count ≤ role.stepCount := completed.le
      exact finished count (by omega)
  | true =>
      rw [Bool.not_true, if_neg Bool.false_ne_true]
      by_cases same : role.policy.stepCount = .value role.stepCount
      case pos =>
          rw [same, Number.eq_value, decide_eq_true rfl, Bool.not_true, if_neg Bool.false_ne_true]
          exact ⟨role, rfl, trails, fun _ => id⟩
      case neg =>
          have heard : role.policy.stepCount = .value above.stepCount := (step limit).resolve_right same
          have other : role.stepCount ≠ above.stepCount := fun equal => same (by rw [heard, equal])
          have late : role.stepCount + 1 = above.stepCount := trails.step.resolve_left other
          have following : (above.stepCount : ℚ) = role.stepCount + 1 := by
            rw [← late, Int.cast_add, Int.cast_one]
          have differs : (above.stepCount : ℚ) ≠ role.stepCount := fun equal => other (Int.cast_injective equal).symm
          rw [if_pos (by simpa [heard] using differs), if_neg (by simp [heard, following])]
          let advanced : LeafRole := { role with
            stepCount := role.stepCount + 1
            packages := role.packages.map (Package.setComplete · false) }
          have entered : (advanced.enterStep settings role.policy).stepCount = above.stepCount :=
            enterStep_stepCount.trans late
          obtain ⟨kept, _, more⟩ := trails.advance other (advanced.enterStep settings role.policy).progress entered
          exact ⟨_, rfl, kept, more⟩

theorem areStepsComplete_eq (same : next.packages.map Package.isStepComplete = role.packages.map Package.isStepComplete) :
    next.areStepsComplete = role.areStepsComplete := by
  have flags (packages : List Package) :
      packages.all Package.isStepComplete = (packages.map Package.isStepComplete).all id := by
    rw [List.all_map, Function.id_comp]
  rw [areStepsComplete, areStepsComplete, flags, flags, same]

/-- The limits that are requested do not change how far a leaf is. -/
theorem adjustPlatform_progress (isSingleNode : Bool) (numNode : Nat) (clock : Nat → ℚ) {entered : LeafRole}
    (taken : (if isSingleNode then role.updatePolicy numNode inPolicy
      else { role with policy := inPolicy }).takePolicy settings = .ok entered) :
    ∃ adjusts next, role.adjustPlatform settings isSingleNode numNode inPolicy clock = .ok (adjusts, next) ∧
      next.progress = entered.progress ∧ next.policy = entered.policy ∧
      next.isFirstPolicy = entered.isFirstPolicy := by
  refine ⟨_, { entered with
    packages := (entered.packages.mapIdx fun index package =>
      package.requestLimit settings (clock index)).map Prod.snd }, by rw [adjustPlatform, taken]; rfl, ?_, rfl, rfl⟩
  rw [progress, progress]
  congr 1
  apply areStepsComplete_eq
  apply List.ext_getElem
  · simp
  · intro index inside _
    simp [requestLimit_eq.1]

/-- The step is reported where all packages have completed it. -/
theorem samplePlatform_follows (settings : PowerSettings) (role : LeafRole) (isSingleNode : Bool)
    (measured : Nat → Measured) :
    Outcome.Keeps (fun reason => ¬AgentError.IsStepError reason)
      (fun result => result.2.1.stepCount = .value role.stepCount ∧ result.2.2.stepCount = role.stepCount ∧
        result.1 = result.2.2.areStepsComplete ∧ (role.areStepsComplete = true → result.1 = true))
      (role.samplePlatform settings isSingleNode measured) := by
  rw [samplePlatform]
  cases sampled : role.sampleStep settings measured with
  | error reason => exact id
  | ok packages =>
      refine ⟨rfl, rfl, rfl, fun complete => ?_⟩
      rw [areStepsComplete, List.all_eq_true] at complete ⊢
      have member_complete {item : Package × Nat} (member : item ∈ role.packages.zipIdx) :
          item.1.isStepComplete = true :=
        complete item.1 (List.mem_of_getElem? (List.mem_zipIdx_iff_getElem?.mp member))
      rw [sampleStep] at sampled
      cases step : BalancerStep.ofCount role.stepCount with
      | sendDownLimit =>
          rw [step] at sampled
          cases sampled
          exact complete
      | measureRuntime =>
          rw [step] at sampled
          exact Outcome.forall_mapM sampled fun item member next done =>
            Package.measureRuntime_complete done (member_complete member)
      | reduceLimit =>
          rw [step] at sampled
          exact Outcome.forall_mapM sampled fun item member next done =>
            Package.reduceLimit_complete done (member_complete member)

/-- What a single node keeps of its policy. -/
theorem samplePlatform_policy (settings : PowerSettings) (role : LeafRole) (isSingleNode : Bool)
    (measured : Nat → Measured) :
    Outcome.Keeps (fun reason => ¬AgentError.IsStepError reason)
      (fun result => result.2.2.policy.powerPackageLimitTotal = role.policy.powerPackageLimitTotal ∧
        result.2.2.policy.stepCount = role.policy.stepCount ∧ result.2.2.isFirstPolicy = role.isFirstPolicy ∧
        result.2.2.stepCount = role.stepCount ∧ (role.areStepsComplete = true → result.2.2.areStepsComplete = true))
      (role.samplePlatform settings isSingleNode measured) := by
  have follows := samplePlatform_follows settings role isSingleNode measured
  rw [samplePlatform] at follows ⊢
  cases sampled : role.sampleStep settings measured with
  | error reason => exact id
  | ok packages =>
      rw [sampled] at follows
      obtain ⟨_, _, complete, stays⟩ := follows
      refine ⟨?_, ?_, rfl, rfl, fun done => complete ▸ stays done⟩
      · simp only
        split <;> rfl
      · simp only
        split <;> rfl

/-- The policy of a single node has the step of its leaf, or the one before in a step that is complete;
a limit is in it only in such a step. -/
structure Loops (role : LeafRole) : Prop where
  limit : role.policy.powerPackageLimitTotal.eq (.value 0) = true ∨
    BalancerStep.ofCount role.stepCount = .sendDownLimit ∧ role.areStepsComplete = true
  stepCount : role.policy.stepCount = .value role.stepCount ∨
    role.policy.stepCount + .value 1 = .value role.stepCount ∧ role.areStepsComplete = true

/-- The policy has the first step, or that of the leaf. -/
def StartsWith (leaf : LeafRole) (policy : Policy) : Prop :=
  policy.stepCount = .value 0 ∨ policy.stepCount = .value leaf.stepCount

instance (leaf : LeafRole) (policy : Policy) : Decidable (leaf.StartsWith policy) :=
  inferInstanceAs (Decidable (_ ∨ _))

theorem enterStep_policy : (role.enterStep settings inPolicy).policy = role.policy ∧
    (role.enterStep settings inPolicy).isFirstPolicy = role.isFirstPolicy := by
  rw [enterStep]
  cases BalancerStep.ofCount role.stepCount <;> exact ⟨rfl, rfl⟩

/-- A policy without a limit that has the step of the leaf or the next one. -/
theorem takePolicy_next (limit : role.policy.powerPackageLimitTotal.eq (.value 0) = true)
    (step : role.policy.stepCount = .value role.stepCount ∨ role.policy.stepCount = .value (role.stepCount + 1)) :
    ∃ next, role.takePolicy settings = .ok next ∧ next.Loops ∧ next.isFirstPolicy = role.isFirstPolicy := by
  rw [takePolicy, limit, Bool.not_true, if_neg Bool.false_ne_true]
  cases step with
  | inl same =>
      rw [same, Number.eq_value, decide_eq_true rfl, Bool.not_true, if_neg Bool.false_ne_true]
      exact ⟨role, rfl, ⟨.inl limit, .inl same⟩, rfl⟩
  | inr following =>
      rw [if_pos (by simp [following]), if_neg (by simp [following])]
      refine ⟨_, rfl, ⟨.inl ?_, .inl ?_⟩, enterStep_policy.2⟩
      · rw [enterStep_policy.1]
        exact limit
      · rw [enterStep_policy.1, enterStep_stepCount, following, Int.cast_add, Int.cast_one]

/-- The first policy of a single node. -/
theorem takePolicy_first (start : role.stepCount = -1) (startsWith : role.StartsWith role.policy) :
    ∃ next, role.takePolicy settings = .ok next ∧ next.Loops ∧ next.isFirstPolicy = role.isFirstPolicy := by
  cases limit : role.policy.powerPackageLimitTotal.eq (.value 0) with
  | true =>
      refine takePolicy_next limit ?_
      cases startsWith with
      | inl first => exact .inr (by simp [first, start])
      | inr same => exact .inl same
  | false =>
      have complete : role.resetCaps.areStepsComplete = true := congrArg Progress.isStepComplete resetCaps_progress
      refine ⟨role.resetCaps, by rw [takePolicy, limit]; rfl, ⟨.inr ⟨rfl, complete⟩, ?_⟩, rfl⟩
      cases startsWith with
      | inl first => exact .inl (by simpa [resetCaps] using first)
      | inr same => exact .inr ⟨by simp [resetCaps, same, start], complete⟩

/-- A single node goes on by itself. -/
theorem Loops.updatePolicy (loops : role.Loops) (later : role.isFirstPolicy = false) :
    ∃ next, (role.updatePolicy numNode inPolicy).takePolicy settings = .ok next ∧ next.Loops ∧
      next.isFirstPolicy = false := by
  rw [LeafRole.updatePolicy, later, if_neg Bool.false_ne_true]
  cases complete : role.areStepsComplete with
  | false =>
      rw [if_neg Bool.false_ne_true, ← later]
      refine takePolicy_next (loops.limit.resolve_right fun none => ?_) (.inl (loops.stepCount.resolve_right fun none => ?_))
      · exact Bool.false_ne_true (complete.symm.trans none.2)
      · exact Bool.false_ne_true (complete.symm.trans none.2)
  | true =>
      rw [if_pos rfl, ← later]
      have updated (sample : Sample) :
          ((BalancerStep.ofCount role.stepCount).updatePolicy numNode sample role.policy).stepCount =
            role.policy.stepCount := by
        cases BalancerStep.ofCount role.stepCount <;> rfl
      refine takePolicy_next ?_ ?_
      · cases loops.limit with
        | inl none =>
            cases BalancerStep.ofCount role.stepCount with
            | sendDownLimit => simp [BalancerStep.updatePolicy]
            | measureRuntime => exact none
            | reduceLimit => exact none
        | inr first =>
            rw [first.1]
            simp [BalancerStep.updatePolicy]
      · simp only [updated]
        cases loops.stepCount with
        | inl same => exact .inr (by rw [same]; simp)
        | inr before => exact .inl before.1

end LeafRole

end Geopm
