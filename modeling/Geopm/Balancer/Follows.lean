import Geopm.Balancer.Tree
import Geopm.Library.Outcome
import Mathlib.Tactic.Linarith

namespace Geopm

/-! How far a node of the tree may be behind its parent, and what their link may hold. -/

/-- A message of a parent at the step: after the first step no limit is sent. -/
structure Policy.Announces (policy : Policy) (count : Int) : Prop where
  stepCount : policy.stepCount = .value count
  nonneg : 0 ≤ count
  limit : 0 < count → policy.powerPackageLimitTotal = .value 0

/-- The root has a total limit, and the policy that it has sent, or that it will send as its step is complete. -/
structure RootRole.Holds (total : ℚ) (role : RootRole) : Prop where
  rootCap : role.rootCap = .value total
  nonneg : 0 ≤ role.stepCount
  announces : role.policy.Announces (if role.isStepComplete then role.stepCount + 1 else role.stepCount)

namespace Policy

variable {settings : PowerSettings} {policy valid : Policy} {count : Int}

theorem validate_ok (accepted : policy.validate settings = .ok valid) :
    valid = { policy.withDefaults settings with
      powerPackageLimitTotal := clamp settings (policy.withDefaults settings).powerPackageLimitTotal } := by
  simp only [validate] at accepted
  split at accepted
  · cases accepted
  · exact (Except.ok.inj accepted).symm

theorem validate_error {reason : AgentError} (refused : policy.validate settings = .error reason) :
    ¬reason.IsStepError := by
  simp only [validate] at refused
  split at refused
  · cases refused
    exact id
  · cases refused

theorem validate_stepCount (accepted : policy.validate settings = .ok valid)
    (step : policy.stepCount = .value count) : valid.stepCount = .value count := by
  rw [validate_ok accepted, withDefaults, step]
  simp

theorem Announces.validate (announces : policy.Announces count) (accepted : policy.validate settings = .ok valid) :
    valid.Announces count where
  stepCount := validate_stepCount accepted announces.stepCount
  nonneg := announces.nonneg
  limit := by
    intro later
    rw [validate_ok accepted]
    simp [withDefaults, announces.limit later, clamp]

end Policy

/-- Every step leaves a policy without a limit. -/
theorem BalancerStep.updatePolicy_limit {stepCount : Int} {policy : Policy} (announces : policy.Announces stepCount)
    (numNode : Nat) (sample : Sample) :
    ((ofCount stepCount).updatePolicy numNode sample policy).powerPackageLimitTotal = .value 0 := by
  by_cases first : stepCount = 0
  case pos =>
      rw [first]
      rfl
  case neg =>
      have nonneg := announces.nonneg
      have limit := announces.limit (by omega)
      cases ofCount stepCount with
      | sendDownLimit => rfl
      | measureRuntime => exact limit
      | reduceLimit => exact limit

namespace Balancer

/-- The step of a role, and whether it is complete. -/
structure Progress where
  stepCount : Int
  isStepComplete : Bool
deriving Repr, DecidableEq

namespace Progress

def Completed (progress : Progress) (count : Int) : Prop :=
  count < progress.stepCount ∨ count = progress.stepCount ∧ progress.isStepComplete = true

/-- The child is at the step of its parent or has completed the one before, and it has completed
all steps that its parent has. -/
structure Trails (parent child : Progress) : Prop where
  behind : child.stepCount ≤ parent.stepCount
  before : child.Completed (parent.stepCount - 1)
  complete : parent.isStepComplete = true → child.Completed parent.stepCount

variable {parent child : Progress} {count : Int} {isComplete : Bool}

theorem Completed.le (completed : child.Completed count) : count ≤ child.stepCount := by
  cases completed with
  | inl less => omega
  | inr same => omega

theorem Trails.step (trails : parent.Trails child) :
    child.stepCount = parent.stepCount ∨ child.stepCount + 1 = parent.stepCount := by
  have before := trails.before.le
  have behind := trails.behind
  omega

/-- A child that has not yet the step of its parent takes it. -/
theorem Trails.advance (trails : parent.Trails child) (other : child.stepCount ≠ parent.stepCount)
    (next : Progress) (same : next.stepCount = parent.stepCount) :
    parent.Trails next ∧ child.stepCount + 1 = parent.stepCount ∧
      ∀ count, child.Completed count → next.Completed count := by
  have late : child.stepCount + 1 = parent.stepCount := trails.step.resolve_left other
  have more (count : Int) (completed : child.Completed count) : next.Completed count := by
    left
    have few := completed.le
    omega
  exact ⟨⟨by omega, more _ trails.before, fun complete => more _ (trails.complete complete)⟩, late, more⟩

/-- A child that completes its step. -/
theorem Trails.finish (trails : parent.Trails child) (next : Progress) (same : next.stepCount = child.stepCount)
    (complete : child.isStepComplete = true → next.isStepComplete = true) :
    parent.Trails next ∧ ∀ count, child.Completed count → next.Completed count := by
  have more (count : Int) (completed : child.Completed count) : next.Completed count := by
    cases completed with
    | inl less =>
        left
        omega
    | inr equal => exact .inr ⟨by omega, complete equal.2⟩
  exact ⟨⟨by rw [same]; exact trails.behind, more _ trails.before, fun done => more _ (trails.complete done)⟩, more⟩

end Progress

namespace Agent

def progress (agent : Agent) : Progress := ⟨agent.stepCount, agent.isStepComplete⟩

/-- The agent has not had a policy. -/
def IsNew : Agent → Prop
  | .tree role => role.stepCount = -1 ∧ role.isStepComplete = true
  | .root role => role.rootCap = .nan ∧ role.stepCount = 0 ∧ role.isStepComplete = false

end Agent

namespace Link

/-- What is known of the parent before its first policy arrives. -/
def heard (link : Link) (parent : Agent) : Progress :=
  if link.policy = none then ⟨0, false⟩ else parent.progress

end Link

/-- What holds between a parent, the link to its child and the child. -/
structure Follows (link : Link) (parent : Agent) (child : Progress) : Prop where
  silent : link.policy = none ↔ parent.IsNew
  sent : ∀ policy, link.policy = some policy → policy.Announces parent.stepCount
  trails : (link.heard parent).Trails child
  sample : ∀ sample, link.sample = some sample →
    ∃ count : Int, sample.stepCount = .value count ∧ child.Completed count

namespace Follows

variable {link : Link} {parent next : Agent} {child grown : Progress} {policy : Policy} {sample : Sample}
  {count : Int}

theorem trails_sent (follows : Follows link parent child) (some_policy : link.policy ≠ none) :
    parent.progress.Trails child := by
  have trails := follows.trails
  rwa [Link.heard, if_neg some_policy] at trails

theorem change (follows : Follows link parent child) (trails : (link.heard parent).Trails grown)
    (more : ∀ count, child.Completed count → grown.Completed count) : Follows link parent grown where
  silent := follows.silent
  sent := follows.sent
  trails := trails
  sample := by
    intro sample held
    obtain ⟨count, step, completed⟩ := follows.sample sample held
    exact ⟨count, step, more count completed⟩

theorem sendUp (follows : Follows link parent child) (step : sample.stepCount = .value count)
    (completed : child.Completed count) : Follows { link with sample := some sample } parent child where
  silent := follows.silent
  sent := follows.sent
  trails := follows.trails
  sample := by
    intro held same
    cases same
    exact ⟨count, step, completed⟩

theorem receiveUp (follows : Follows link parent child) : Follows { link with sample := none } parent child where
  silent := follows.silent
  sent := follows.sent
  trails := follows.trails
  sample := by
    intro sample held
    cases held

/-- A parent goes on to the next step and sends it, or it sends its first policy. -/
theorem sendDown (follows : Follows link parent child) (announces : policy.Announces next.stepCount)
    (incomplete : next.isStepComplete = false) (known : ¬next.IsNew)
    (first : parent.IsNew → next.stepCount = 0)
    (other : ¬parent.IsNew → next.stepCount = parent.stepCount + 1 ∧ parent.isStepComplete = true) :
    Follows { link with policy := some policy } next child where
  silent := ⟨fun none => by simp at none, fun isNew => absurd isNew known⟩
  sent := by
    intro held same
    cases same
    exact announces
  trails := by
    have heard : Link.heard { link with policy := some policy } next = ⟨next.stepCount, false⟩ := by
      rw [Link.heard, if_neg (by simp), Agent.progress, incomplete]
    rw [heard]
    by_cases isNew : parent.IsNew
    case pos =>
        have trails := follows.trails
        rw [Link.heard, if_pos (follows.silent.mpr isNew)] at trails
        rwa [first isNew]
    case neg =>
        obtain ⟨step, complete⟩ := other isNew
        have trails := follows.trails_sent (mt follows.silent.mp isNew)
        have behind : child.stepCount ≤ parent.stepCount := trails.behind
        refine ⟨by simp only; omega, ?_, fun done => by cases done⟩
        have completed : child.Completed parent.stepCount := trails.complete complete
        simpa [step] using completed
  sample := follows.sample

/-- A parent completes its step when its children have completed it. -/
theorem complete (follows : Follows link parent child) (known : ¬parent.IsNew) (nextKnown : ¬next.IsNew)
    (step : next.stepCount = parent.stepCount) (completed : child.Completed parent.stepCount) :
    Follows link next child where
  silent := ⟨fun none => absurd (follows.silent.mp none) known, fun isNew => absurd isNew nextKnown⟩
  sent := by
    rw [step]
    exact follows.sent
  trails := by
    have trails := follows.trails_sent (mt follows.silent.mp known)
    have same : next.progress.stepCount = parent.progress.stepCount := step
    rw [Link.heard, if_neg (mt follows.silent.mp known)]
    exact ⟨same ▸ trails.behind, same ▸ trails.before, fun _ => same ▸ completed⟩
  sample := follows.sample

end Follows

namespace Agent

/-- An agent of the tree, whose root role is of some kind. -/
def Plays (good : RootRole → Prop) (isRoot : Prop) : Agent → Prop
  | .tree _ => ¬isRoot
  | .root role => isRoot ∧ good role

/-- The root role has no policy, or one with the total limit. -/
def Rooted (total : ℚ) (role : RootRole) : Prop := IsNew (.root role) ∨ role.Holds total

/-- What an agent that sends its policy to its children has become. -/
structure Sends (parent next : Agent) : Prop where
  announces : next.policy.Announces next.stepCount
  incomplete : next.isStepComplete = false
  known : ¬next.IsNew
  first : parent.IsNew → next.stepCount = 0
  other : ¬parent.IsNew → next.stepCount = parent.stepCount + 1 ∧ parent.isStepComplete = true

/-- What an agent that completes its step has become. -/
structure Finishes (parent next : Agent) : Prop where
  incomplete : parent.isStepComplete = false
  complete : next.isStepComplete = true
  stepCount : next.stepCount = parent.stepCount

/-- `descend` sends the policy of the agent or changes nothing. -/
def Descends (agent : Agent) : Bool × Agent → Prop
  | (true, next) => agent.Sends next
  | (false, next) => next = agent

/-- `ascend` completes the step, which is that of the samples together, or changes nothing. -/
def Ascends (inSample : List Sample) (agent : Agent) : Bool × Sample × Agent → Prop
  | (true, outSample, next) => outSample.stepCount = .value agent.stepCount ∧
      outSample = Sample.aggregate inSample ∧ agent.Finishes next
  | (false, _, next) => next = agent

variable {settings : PowerSettings} {inPolicy : Policy} {inSample : List Sample} {total : ℚ} {above : Progress}

/-- A tree role that hears what its parent has announced. -/
theorem descend_tree (settings : PowerSettings) {role : TreeRole} (announces : inPolicy.Announces above.stepCount)
    (trails : above.Trails (Agent.tree role).progress) :
    ∃ result, (Agent.tree role).descend settings inPolicy = .ok result ∧ (Agent.tree role).Descends result ∧
      (∃ next, result.2 = .tree next) ∧
      (result.1 = true → role.stepCount ≠ above.stepCount ∧ result.2.stepCount = above.stepCount) := by
  by_cases ready : role.isStepComplete = true ∧ role.stepCount ≠ above.stepCount
  case pos =>
      have late : role.stepCount + 1 = above.stepCount := trails.step.resolve_left ready.2
      have nonneg := announces.nonneg
      have descended : role.descend inPolicy = .ok (true, ⟨inPolicy, above.stepCount, false⟩) := by
        have other : (above.stepCount : ℚ) ≠ role.stepCount := fun same => ready.2 (Int.cast_injective same).symm
        have following : (above.stepCount : ℚ) = role.stepCount + 1 := by
          rw [← late, Int.cast_add, Int.cast_one]
        by_cases first : above.stepCount = 0
        · rw [first, Int.cast_zero] at other
          simp [TreeRole.descend, announces.stepCount, ready.1, first, other]
        · simp [TreeRole.descend, announces.stepCount, ready.1, first, other, ← following, late]
      refine ⟨(true, .tree ⟨inPolicy, above.stepCount, false⟩), ?_, ?_, ⟨_, rfl⟩, fun _ => ⟨ready.2, rfl⟩⟩
      · rw [descend, descended]
        rfl
      · exact
          { announces
            incomplete := rfl
            known := by
              intro isNew
              have step : above.stepCount = -1 := isNew.1
              omega
            first := by
              intro isNew
              have step : role.stepCount = -1 := isNew.1
              change above.stepCount = 0
              omega
            other := fun _ => ⟨late.symm, ready.1⟩ }
  case neg =>
      have descended : role.descend inPolicy = .ok (false, role) := by
        have same : role.isStepComplete = true → above.stepCount = role.stepCount := fun complete =>
          (not_not.mp fun other => ready ⟨complete, Ne.symm other⟩)
        rw [TreeRole.descend, announces.stepCount, if_neg]
        simpa using same
      refine ⟨(false, .tree role), ?_, rfl, ⟨_, rfl⟩, fun sent => by cases sent⟩
      rw [descend, descended]
      rfl

/-- The root role, whose total limit does not change. -/
theorem descend_root {role : RootRole} (plays : Rooted total role)
    (limit : inPolicy.powerPackageLimitTotal = .value total) :
    Outcome.Keeps (fun reason => ¬reason.IsStepError)
      (fun result => (Agent.root role).Descends result ∧ (∃ next, result.2 = .root next ∧ next.Holds total))
      ((Agent.root role).descend settings inPolicy) := by
  rw [descend, RootRole.descend, limit]
  cases plays with
  | inl isNew =>
      obtain ⟨rootCap, step, incomplete⟩ := isNew
      rw [rootCap, Number.eq_nan, Bool.not_false, if_pos rfl]
      by_cases outside : (Number.value settings.maxPkgPowerSetting).lt (.value total) ∨
          (Number.value total).lt (.value settings.minPkgPowerSetting)
      case pos =>
          rw [if_pos outside]
          exact id
      case neg =>
          rw [if_neg outside]
          have announces : Policy.Announces ⟨.value total, .value 0, .value 0, .value 0⟩ 0 :=
            ⟨by simp, Int.le_refl 0, fun later => absurd later (Int.lt_irrefl 0)⟩
          refine ⟨?_, _, rfl, rfl, Int.le_refl 0, ?_⟩
          · exact
              { announces
                incomplete
                known := fun isNew => by cases isNew.1
                first := fun _ => rfl
                other := fun known => absurd ⟨rootCap, step, incomplete⟩ known }
          · simp only [incomplete]
            exact announces
  | inr holds =>
      have announces := holds.announces
      have known : ¬IsNew (.root role) := fun isNew => by
        have rootCap := isNew.1
        rw [holds.rootCap] at rootCap
        cases rootCap
      rw [holds.rootCap, Number.eq_value, decide_eq_true rfl, Bool.not_true, if_neg Bool.false_ne_true]
      cases complete : role.isStepComplete with
      | true =>
          rw [complete, if_pos rfl] at announces
          have following : (Number.value (role.stepCount + 1)).eq role.policy.stepCount = true := by
            rw [announces.stepCount]
            simp
          rw [if_pos following]
          refine ⟨?_, _, rfl, rfl, announces.nonneg, announces⟩
          exact
            { announces
              incomplete := rfl
              known := fun isNew => by cases isNew.1
              first := fun isNew => absurd isNew known
              other := fun _ => ⟨rfl, complete⟩ }
      | false =>
          rw [complete] at announces
          have same : role.policy.stepCount = .value role.stepCount := announces.stepCount
          rw [if_neg (by simp [same]), if_pos (by simp [same])]
          exact ⟨rfl, role, rfl, holds⟩

/-- The step of the samples together is the step of the agent: it becomes complete. -/
theorem ascend_tree (role : TreeRole) (inSample : List Sample) :
    ∃ result, (Agent.tree role).ascend inSample = .ok result ∧ (Agent.tree role).Ascends inSample result ∧
      ∃ next, result.2.2 = .tree next := by
  rw [ascend, TreeRole.ascend]
  by_cases finished : role.isStepComplete = false ∧ (Sample.aggregate inSample).stepCount = .value role.stepCount
  case pos =>
      simp only [finished.1, finished.2, Bool.not_false, Number.eq_value, decide_true, Bool.and_self, if_true]
      exact ⟨_, rfl, ⟨finished.2, rfl, finished.1, rfl, rfl⟩, _, rfl⟩
  case neg =>
      have other : (!role.isStepComplete && (Sample.aggregate inSample).stepCount.eq (.value role.stepCount)) = false := by
        rw [← Bool.not_eq_true]
        intro both
        rw [Bool.and_eq_true] at both
        exact finished ⟨by simpa using both.1, Number.of_eq both.2⟩
      simp only [other, Bool.false_eq_true, if_false]
      exact ⟨_, rfl, rfl, _, rfl⟩

theorem ascend_root {role : RootRole} (holds : role.Holds total) (inSample : List Sample) :
    ∃ result, (Agent.root role).ascend inSample = .ok result ∧ (Agent.root role).Ascends inSample result ∧
      ∃ next, result.2.2 = .root next ∧ next.Holds total := by
  rw [ascend, RootRole.ascend, RootRole.treeAscend]
  by_cases finished : role.isStepComplete = false ∧ (Sample.aggregate inSample).stepCount = .value role.stepCount
  case pos =>
      have announces := holds.announces
      rw [finished.1] at announces
      have same : role.policy.stepCount = .value role.stepCount := announces.stepCount
      have limit := BalancerStep.updatePolicy_limit announces role.numNode (Sample.aggregate inSample)
      have nonneg := holds.nonneg
      simp only [finished.1, finished.2, Bool.not_false, Number.eq_value, decide_true, Bool.and_self, if_true,
        bind, Except.bind, same]
      refine ⟨_, rfl, ⟨finished.2, rfl, finished.1, rfl, rfl⟩, _, rfl, ⟨holds.rootCap, nonneg, ?_⟩⟩
      exact ⟨by simp, Int.le_add_one nonneg, fun _ => limit⟩
  case neg =>
      have other : (!role.isStepComplete && (Sample.aggregate inSample).stepCount.eq (.value role.stepCount)) = false := by
        rw [← Bool.not_eq_true]
        intro both
        rw [Bool.and_eq_true] at both
        exact finished ⟨by simpa using both.1, Number.of_eq both.2⟩
      simp only [other, Bool.false_eq_true, if_false, bind, Except.bind]
      exact ⟨_, rfl, rfl, _, rfl, holds⟩

end Agent

end Balancer

end Geopm
