import Geopm.Balancer.Root

namespace Geopm

/-! `PowerBalancerAgent::RootRole`: whether a new total limit lets the root go on. -/

namespace RootRole

/-- What the `Controller` calls. -/
inductive Call where
  | descend (inPolicy : Policy)
  | ascend (inSample : List Sample)
deriving Repr, DecidableEq

def perform (settings : PowerSettings) (role : RootRole) : Call → Except AgentError (Bool × RootRole)
  | .descend inPolicy => role.descend settings inPolicy
  | .ascend inSample => (role.ascend inSample).map fun (result, _, next) => (result, next)

/-- The role after calls that all return. -/
def run (settings : PowerSettings) (role : RootRole) (calls : List Call) : Except AgentError RootRole :=
  calls.foldlM (fun role call => (role.perform settings call).map Prod.snd) role

/-- The role after calls that return false: nothing is sent down and no step is completed. -/
def wait (settings : PowerSettings) (role : RootRole) (calls : List Call) : Option RootRole :=
  calls.foldlM (fun role call =>
    match role.perform settings call with
    | .ok (false, next) => some next
    | _ => none) role

/-- The step is completed with the samples, and the call returns true. -/
def Completes (role : RootRole) (inSample : List Sample) : Prop :=
  ∃ outSample next, role.ascend inSample = .ok (true, outSample, next) ∧ next.isStepComplete = true

variable {settings : PowerSettings} {role next reset waiting : RootRole} {call : Call} {calls : List Call}
  {inPolicy : Policy} {inSample : List Sample} {outSample : Sample} {count : ℚ}

/-- Only a call that returns true changes the role. -/
theorem perform_false (performed : role.perform settings call = .ok (false, next)) : next = role := by
  cases call with
  | descend inPolicy =>
      simp only [perform, descend] at performed
      split at performed
      case isTrue =>
          split at performed
          · cases performed
          · cases performed
      case isFalse =>
          split at performed
          · cases performed
          · split at performed
            · cases performed
              rfl
            · cases performed
  | ascend inSample =>
      simp only [perform, ascend, treeAscend] at performed
      split at performed
      case isTrue complete =>
          rw [Bool.and_eq_true] at complete
          simp only [complete.2, if_true, bind, Except.bind] at performed
          split at performed
          · cases performed
          · cases performed
      case isFalse =>
          cases performed
          rfl

theorem wait_eq (waited : role.wait settings calls = some waiting) : waiting = role := by
  induction calls generalizing role with
  | nil =>
      cases waited
      rfl
  | cons call rest ih =>
      rw [wait, List.foldlM_cons] at waited
      cases performed : role.perform settings call with
      | error reason =>
          rw [performed] at waited
          cases waited
      | ok outcome =>
          obtain ⟨result, next⟩ := outcome
          rw [performed] at waited
          cases result with
          | true => cases waited
          | false =>
              obtain rfl := perform_false performed
              exact ih waited

/-- A new total limit starts with the first step again; whether a step is complete stays as it is. -/
theorem descend_reset (changed : inPolicy.powerPackageLimitTotal.eq role.rootCap = false)
    (sent : role.descend settings inPolicy = .ok (true, reset)) :
    reset = { role with
      stepCount := 0
      policy := ⟨inPolicy.powerPackageLimitTotal, .value 0, .value 0, .value 0⟩
      rootCap := inPolicy.powerPackageLimitTotal } := by
  simp only [descend, changed, Bool.not_false, if_true] at sent
  split at sent
  · cases sent
  · cases sent
    rfl

/-- The step of the samples together is that of each of them. -/
theorem aggregate_stepCount (some_sample : inSample ≠ [])
    (current : ∀ sample ∈ inSample, sample.stepCount = .value count) :
    (Sample.aggregate inSample).stepCount = .value count := by
  have counts : inSample.map Sample.stepCount = (List.replicate inSample.length count).map .value := by
    rw [List.map_replicate, List.eq_replicate_iff, List.length_map]
    refine ⟨rfl, ?_⟩
    intro step member
    obtain ⟨sample, inside, rfl⟩ := List.mem_map.mp member
    exact current sample inside
  have smallest : (List.replicate inSample.length count).min? = some count := by
    rw [List.min?_eq_some_iff]
    refine ⟨List.mem_replicate.mpr ⟨mt List.length_eq_zero_iff.mp some_sample, rfl⟩, ?_⟩
    intro other member
    exact (List.eq_of_mem_replicate member).ge
  rw [Sample.aggregate, counts, Agg.min, Number.rationals_value, smallest]

/-- Where the policy is that of the current step, samples of this step complete it unless it is
complete already. -/
theorem completes_iff (inStep : role.policy.stepCount = .value role.stepCount)
    (reported : (Sample.aggregate inSample).stepCount = .value role.stepCount) :
    role.Completes inSample ↔ role.isStepComplete = false := by
  rw [Completes, ascend, treeAscend, reported]
  cases complete : role.isStepComplete with
  | true => simp [bind, Except.bind]
  | false => simp [bind, Except.bind, inStep]

end RootRole

/-- After a policy with another total limit was sent, the first samples that all report the current step
complete it just when no step was complete as the policy arrived. -/
theorem RootRole.reset_completes_iff {settings : PowerSettings} {role reset waiting : RootRole}
    {inPolicy : Policy} {between : List Call} {inSample : List Sample}
    (changed : inPolicy.powerPackageLimitTotal.eq role.rootCap = false)
    (sent : role.descend settings inPolicy = .ok (true, reset))
    (silent : reset.wait settings between = some waiting) (some_sample : inSample ≠ [])
    (current : ∀ sample ∈ inSample, sample.stepCount = .value waiting.stepCount) :
    waiting.Completes inSample ↔ role.isStepComplete = false := by
  obtain rfl := wait_eq silent
  obtain rfl := descend_reset changed sent
  exact completes_iff rfl (aggregate_stepCount some_sample current)

namespace RootRole

def limitOf (limit : ℚ) : Policy := ⟨.value limit, .value 0, .value 0, .value 0⟩

def sampleOf (count : ℚ) : Sample := ⟨.value count, .value 0, .value 0, .value 0⟩

/-- The limit is changed before the first step is complete; meanwhile the children report a step
from before. -/
theorem reset_completes_early :
    Completes ⟨2, limitOf 200, 0, false, .value 200⟩ [sampleOf 0, sampleOf 0] :=
  (@reset_completes_iff ⟨50, 300, 200⟩ ⟨2, limitOf 150, 0, false, .value 150⟩ _ _ (limitOf 200)
    [.ascend [sampleOf 3, sampleOf 3], .descend (limitOf 200)] [sampleOf 0, sampleOf 0] (by decide +kernel)
    rfl (by decide +kernel) (by simp) (by simp [sampleOf])).mpr rfl

/-- The limit is changed after the children have completed the first step and before the next one
is sent to them. -/
theorem not_reset_completes :
    ∃ role reset, (new 2).run ⟨50, 300, 200⟩ [.descend (limitOf 150), .ascend [sampleOf 0, sampleOf 0]] = .ok role ∧
      (limitOf 200).powerPackageLimitTotal.eq role.rootCap = false ∧
      role.descend ⟨50, 300, 200⟩ (limitOf 200) = .ok (true, reset) ∧ reset.stepCount = 0 ∧
      ¬reset.Completes [sampleOf 0, sampleOf 0] := by
  refine ⟨_, _, rfl, by decide +kernel, rfl, rfl, ?_⟩
  rw [completes_iff rfl (by decide +kernel)]
  decide +kernel

end RootRole

end Geopm
