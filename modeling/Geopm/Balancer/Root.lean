import Geopm.Balancer.Policy
import Geopm.PolicySource

namespace Geopm

/-! `PowerBalancerAgent::RootRole` and what the root of the tree sends to its children. -/

/-- `RootRole`, with what it has from `TreeRole` and `Role`. -/
structure RootRole where
  numNode : Nat
  policy : Policy
  stepCount : Int
  isStepComplete : Bool
  rootCap : Number
deriving Repr, DecidableEq

namespace RootRole

/-- The constructor. -/
def new (numNode : Nat) : RootRole := ⟨numNode, .unset, 0, false, .nan⟩

/-- `TreeRole::ascend`. -/
def treeAscend (inSample : List Sample) (role : RootRole) :
    Except AgentError (Bool × Sample × RootRole) :=
  let outSample := Sample.aggregate inSample
  if !role.isStepComplete && outSample.stepCount.eq (.value role.stepCount) then
    if outSample.stepCount.eq (.value role.stepCount) then
      .ok (true, outSample, { role with isStepComplete := true })
    else .error .stepCountMismatch
  else .ok (false, outSample, role)

/-- `ascend`. -/
def ascend (inSample : List Sample) (role : RootRole) : Except AgentError (Bool × Sample × RootRole) := do
  let (result, outSample, role) ← role.treeAscend inSample
  if result then
    if (Number.value role.stepCount).eq role.policy.stepCount then
      let policy := (BalancerStep.ofCount role.stepCount).updatePolicy role.numNode outSample role.policy
      .ok (true, outSample, { role with
        policy := { policy with stepCount := .value (role.stepCount + 1) } })
    else .error .sampleMismatch
  else .ok (false, outSample, role)

/-- `descend`. Where the result is true, each child gets the policy of the role. -/
def descend (settings : PowerSettings) (inPolicy : Policy) (role : RootRole) :
    Except AgentError (Bool × RootRole) :=
  if !inPolicy.powerPackageLimitTotal.eq role.rootCap then
    let rootCap := inPolicy.powerPackageLimitTotal
    if (Number.value settings.maxPkgPowerSetting).lt rootCap ∨
        rootCap.lt (.value settings.minPkgPowerSetting) then
      .error (.invalidPowerBudget rootCap)
    else .ok (true, { role with
      stepCount := 0
      policy := ⟨rootCap, .value 0, .value 0, .value 0⟩
      rootCap })
  else if (Number.value (role.stepCount + 1)).eq role.policy.stepCount then
    .ok (true, { role with stepCount := role.stepCount + 1, isStepComplete := false })
  else if (Number.value role.stepCount).eq role.policy.stepCount then .ok (false, role)
  else .error .updatedPolicyOutOfSync

end RootRole

/-- The fields in their order. -/
def Policy.values (policy : Policy) : List Number :=
  [policy.powerPackageLimitTotal, policy.stepCount, policy.maxEpochRuntime, policy.powerSlack]

/-- The comparison of the policy with the last one. -/
def Policy.same (first second : Policy) : Bool := samePolicy first.values second.values

/-- The `Controller` of the root, as far as it concerns the children of the highest level. -/
structure RootNode where
  lastPolicy : Policy
  role : RootRole
deriving Repr, DecidableEq

namespace RootNode

/-- The constructor and `init_agents`. -/
def new (numNode : Nat) : RootNode := ⟨.unset, .new numNode⟩

/-- `walk_down`: the policy that is sent to the children, if any. -/
def walkDown (settings : PowerSettings) (source : PolicySource Policy) (node : RootNode) :
    Except AgentError (Option Policy × RootNode) :=
  let read := source.read Policy.same node.lastPolicy
  if read.1 then do
    let inPolicy ← source.policy.validate settings
    let (doSend, role) ← node.role.descend settings inPolicy
    .ok (if doSend then some role.policy else none, ⟨read.2, role⟩)
  else .ok (none, ⟨read.2, node.role⟩)

/-- `walk_up` with what `receive_up` has received from the children, if there is a sample of each.
It does not succeed where a value is nan. -/
def walkUp (received : Option (List Sample)) (node : RootNode) : Except AgentError RootNode :=
  match received with
  | none => .ok node
  | some inSample =>
      if inSample.any Sample.hasNan then .ok node
      else do
        let (_, _, role) ← node.role.ascend inSample
        .ok { node with role }

/-- The policies that are sent to the children, when samples are received in between. -/
def sent (settings : PowerSettings) (source : PolicySource Policy) :
    RootNode → List (Option (List Sample)) → List Policy
  | _, [] => []
  | node, received :: rest =>
      match node.walkDown settings source with
      | .error _ => []
      | .ok (policy, node) => policy.toList ++
          match node.walkUp received with
          | .error _ => []
          | .ok node => sent settings source node rest

section Alike

variable {settings : PowerSettings} {policy valid : Policy} {numNode : Nat} {cap : ℚ} {node : RootNode}
  {received : Option (List Sample)} {rounds rest : List (Option (List Sample))}

/-- The first call of `walk_down` throws: the policy is not valid or its limit is out of bounds. -/
def Refused (settings : PowerSettings) (policy : Policy) : Prop :=
  ∀ valid, policy.validate settings = .ok valid →
    (Number.value settings.maxPkgPowerSetting).lt valid.powerPackageLimitTotal = true ∨
      valid.powerPackageLimitTotal.lt (.value settings.minPkgPowerSetting) = true

/-- Samples say that all children have completed the first step. -/
def Completes (received : Option (List Sample)) : Prop :=
  ∃ samples, received = some samples ∧ samples.any Sample.hasNan = false ∧
    (Sample.aggregate samples).stepCount = .value 0

/-- The role once the first policy has been sent. -/
def started (numNode : Nat) (cap : ℚ) : RootRole :=
  ⟨numNode, ⟨.value cap, .value 0, .value 0, .value 0⟩, 0, false, .value cap⟩

/-- The role once the children have completed the first step. -/
def advanced (numNode : Nat) (cap : ℚ) : RootRole :=
  ⟨numNode, ⟨.value 0, .value 1, .value 0, .value 0⟩, 0, true, .value cap⟩

/-- A limit that is accepted is a number. -/
theorem validate_limit (accepted : policy.validate settings = .ok valid) :
    ∃ cap, valid.powerPackageLimitTotal = .value cap := by
  simp only [Policy.validate] at accepted
  split at accepted
  case isTrue => cases accepted
  case isFalse =>
      rw [← Except.ok.inj accepted]
      have filled : ∃ limit, (policy.withDefaults settings).powerPackageLimitTotal = .value limit := by
        simp only [Policy.withDefaults]
        cases policy.powerPackageLimitTotal with
        | nan => exact ⟨_, rfl⟩
        | value limit => exact ⟨limit, by simp⟩
      obtain ⟨limit, filled⟩ := filled
      simp only [filled, Policy.clamp]
      split_ifs
      · exact ⟨_, rfl⟩
      · exact ⟨_, rfl⟩
      · exact ⟨_, rfl⟩
      · exact ⟨_, rfl⟩

theorem same_self : policy.same policy = true := by
  rw [Policy.same]
  induction policy.values with
  | nil => rfl
  | cons value rest ih =>
      rw [samePolicy] at ih ⊢
      rw [List.zip_cons_cons, List.all_cons, ih, Bool.and_true]
      cases value <;> simp

theorem walkUp_lastPolicy {next : RootNode} (walked : node.walkUp received = .ok next) :
    next.lastPolicy = node.lastPolicy := by
  cases received with
  | none =>
      cases walked
      rfl
  | some inSample =>
      simp only [walkUp] at walked
      split at walked
      case isTrue =>
          cases walked
          rfl
      case isFalse =>
          cases ascends : node.role.ascend inSample with
          | error reason =>
              rw [ascends] at walked
              cases walked
          | ok result =>
              rw [ascends] at walked
              cases walked
              rfl

/-- An endpoint whose policy has been seen has nothing sent any more. -/
theorem sent_endpoint (seen : policy.same node.lastPolicy = true) :
    sent settings (.endpoint policy) node rounds = [] := by
  induction rounds generalizing node with
  | nil => rfl
  | cons received rest ih =>
      have silent : node.walkDown settings (.endpoint policy) = .ok (none, node) := by
        simp only [walkDown, PolicySource.read, seen, if_true, Bool.false_eq_true, if_false]
      simp only [sent, silent, Option.toList_none, List.nil_append]
      cases walked : node.walkUp received with
      | error reason => rfl
      | ok next => exact ih (by rw [walkUp_lastPolicy walked, seen])

/-- Only samples that complete the first step have an effect on the role. -/
theorem walkUp_started (role : node.role = started numNode cap) (incomplete : ¬Completes received) :
    node.walkUp received = .ok node := by
  cases received with
  | none => rfl
  | some inSample =>
      simp only [walkUp]
      split
      case isTrue => rfl
      case isFalse nanFree =>
          have other : (Sample.aggregate inSample).stepCount.eq (.value 0) = false := by
            rw [← Bool.not_eq_true]
            intro same
            apply incomplete
            refine ⟨inSample, rfl, Bool.not_eq_true _ ▸ nanFree, ?_⟩
            cases step : (Sample.aggregate inSample).stepCount with
            | nan => simp [step] at same
            | value count => simpa [step] using same
          have ascends : node.role.ascend inSample = .ok (false, Sample.aggregate inSample, node.role) := by
            simp [RootRole.ascend, RootRole.treeAscend, role, started, other, bind, Except.bind]
          rw [ascends]
          rfl

theorem walkUp_completes (role : node.role = started numNode cap) (complete : Completes received) :
    node.walkUp received = .ok { node with role := advanced numNode cap } := by
  obtain ⟨inSample, rfl, nanFree, step⟩ := complete
  have ascends : node.role.ascend inSample = .ok (true, Sample.aggregate inSample, advanced numNode cap) := by
    simp [RootRole.ascend, RootRole.treeAscend, role, started, advanced, step, bind, Except.bind,
      BalancerStep.ofCount, BalancerStep.updatePolicy]
  simp only [walkUp, nanFree, Bool.false_eq_true, if_false, ascends]
  rfl

section File

variable (accepted : policy.validate settings = .ok valid) (limit : valid.powerPackageLimitTotal = .value cap)

include accepted limit

/-- A policy from a file is split in each walk, and not sent where the step is as before. -/
theorem walkDown_started (role : node.role = started numNode cap) :
    node.walkDown settings (.file policy) = .ok (none, node) := by
  cases node
  simp only at role
  simp [walkDown, PolicySource.read, PolicySource.policy, accepted, RootRole.descend, limit, role, started,
    bind, Except.bind]

theorem walkDown_advanced (role : node.role = advanced numNode cap) :
    ∃ sent next, node.walkDown settings (.file policy) = .ok (some sent, next) := by
  simp [walkDown, PolicySource.read, PolicySource.policy, accepted, RootRole.descend, limit, role, advanced,
    bind, Except.bind]

/-- After the first policy more are sent from a file once the children have completed the step. -/
theorem sent_file_iff (role : node.role = started numNode cap) :
    (match node.walkUp received with
      | .error _ => []
      | .ok next => sent settings (.file policy) next rest) = [] ↔
      ∀ earlier ∈ (received :: rest).dropLast, ¬Completes earlier := by
  induction rest generalizing received with
  | nil =>
      simp only [sent, List.dropLast_singleton, List.not_mem_nil, false_imp_iff, implies_true, iff_true]
      cases node.walkUp received <;> rfl
  | cons next rest ih =>
      rw [List.dropLast_cons_cons, List.forall_mem_cons]
      by_cases complete : Completes received
      case pos =>
          have role : ({ node with role := advanced numNode cap } : RootNode).role = advanced numNode cap := rfl
          obtain ⟨second, after, walked⟩ := walkDown_advanced accepted limit role
          simp [walkUp_completes (by assumption) complete, sent, walked, complete]
      case neg =>
          rw [walkUp_started role complete]
          simp only [sent, walkDown_started accepted limit role, Option.toList_none, List.nil_append, ih,
            complete, not_false_eq_true, true_and]

end File

/-- The first policy is sent whatever its source is. -/
theorem descend_new (limit : valid.powerPackageLimitTotal = .value cap) (within : ¬((Number.value settings.maxPkgPowerSetting).lt (.value cap) = true ∨
      (Number.value cap).lt (.value settings.minPkgPowerSetting) = true)) :
    (RootRole.new numNode).descend settings valid = .ok (true, started numNode cap) := by
  rw [RootRole.descend, limit, RootRole.new, Number.eq_nan, Bool.not_false, if_pos rfl, if_neg within]
  rfl

theorem descend_refused (refused : Refused settings policy) (accepted : policy.validate settings = .ok valid) :
    (RootRole.new numNode).descend settings valid =
      .error (.invalidPowerBudget valid.powerPackageLimitTotal) := by
  rw [RootRole.descend, RootRole.new, Number.eq_nan, Bool.not_false, if_pos rfl,
    if_pos (refused valid accepted)]

theorem walkDown_refused {source : PolicySource Policy} (refused : Refused settings source.policy)
    (reads : (source.read Policy.same Policy.unset).1 = true) :
    ∃ reason, (new numNode).walkDown settings source = .error reason := by
  simp only [walkDown, new, reads, if_true]
  cases accepted : source.policy.validate settings with
  | error reason => exact ⟨reason, rfl⟩
  | ok valid =>
      simp only [bind, Except.bind, descend_refused refused accepted]
      exact ⟨_, rfl⟩

theorem walkDown_new {source : PolicySource Policy}
    (reads : (source.read Policy.same Policy.unset).1 = true)
    (accepted : source.policy.validate settings = .ok valid) (limit : valid.powerPackageLimitTotal = .value cap)
    (within : ¬((Number.value settings.maxPkgPowerSetting).lt (.value cap) = true ∨
      (Number.value cap).lt (.value settings.minPkgPowerSetting) = true)) :
    (new numNode).walkDown settings source = .ok (some (started numNode cap).policy,
      ⟨(source.read Policy.same Policy.unset).2,
        started numNode cap⟩) := by
  simp only [walkDown, new, reads, if_true, accepted, bind, Except.bind, descend_new limit within]

/-- What is sent after the first policy. -/
theorem sent_new {source : PolicySource Policy} (reads : (source.read Policy.same Policy.unset).1 = true)
    (accepted : source.policy.validate settings = .ok valid) (limit : valid.powerPackageLimitTotal = .value cap)
    (within : ¬((Number.value settings.maxPkgPowerSetting).lt (.value cap) = true ∨
      (Number.value cap).lt (.value settings.minPkgPowerSetting) = true)) :
    sent settings source (.new numNode) (received :: rest) = (started numNode cap).policy ::
      match walkUp received ⟨(source.read Policy.same Policy.unset).2, started numNode cap⟩ with
      | .error _ => []
      | .ok next => sent settings source next rest := by
  rw [sent, walkDown_new reads accepted limit within]
  rfl

theorem same_unset : policy.same .unset = true ↔ policy = .unset := by
  have blank (number : Number) : number.isNan = true ↔ number = .nan := by
    cases number <;> simp
  cases policy
  simp [Policy.same, samePolicy, Policy.values, Policy.unset, blank]

end Alike

/-- The policies from a file and from an endpoint that returns the same each time are sent alike only
as long as the root has nothing to send but that policy: an endpoint has none sent that is all nan, and
none after the first, whereas from a file one more is sent when the children have completed the first
step. -/
theorem sent_alike_iff (settings : PowerSettings) (policy : Policy) (numNode : Nat)
    (rounds : List (Option (List Sample))) :
    sent settings (.file policy) (.new numNode) rounds =
        sent settings (.endpoint policy) (.new numNode) rounds ↔
      rounds = [] ∨ Refused settings policy ∨
        policy ≠ .unset ∧ ∀ received ∈ rounds.dropLast, ¬Completes received := by
  have silent (unset : policy = .unset) : sent settings (.endpoint policy) (.new numNode) rounds = [] :=
    sent_endpoint (same_unset.mpr unset)
  have fileReads : ((PolicySource.file policy).read Policy.same Policy.unset).1 = true := rfl
  have endpointReads (set : policy ≠ .unset) :
      (PolicySource.endpoint policy).read Policy.same .unset = (true, policy) := by
    rw [PolicySource.read, if_neg (mt same_unset.mp set)]
  cases rounds with
  | nil => simp [sent]
  | cons received rest =>
      simp only [reduceCtorEq, false_or]
      by_cases refused : Refused settings policy
      case pos =>
          simp only [refused, true_or, iff_true]
          obtain ⟨_, fromFile⟩ : ∃ reason, (new numNode).walkDown settings (.file policy) = .error reason :=
            walkDown_refused refused fileReads
          have nothing : sent settings (.file policy) (.new numNode) (received :: rest) = [] := by
            rw [sent, fromFile]
          rw [nothing]
          by_cases unset : policy = .unset
          · exact (silent unset).symm
          · obtain ⟨_, fromEndpoint⟩ : ∃ reason,
                (new numNode).walkDown settings (.endpoint policy) = .error reason :=
              walkDown_refused refused (by rw [endpointReads unset])
            rw [sent, fromEndpoint]
      case neg =>
          simp only [refused, false_or]
          obtain ⟨valid, accepted, within⟩ : ∃ valid, policy.validate settings = .ok valid ∧
              ¬((Number.value settings.maxPkgPowerSetting).lt valid.powerPackageLimitTotal = true ∨
                valid.powerPackageLimitTotal.lt (.value settings.minPkgPowerSetting) = true) := by
            simpa only [Refused, not_forall, exists_prop] using refused
          obtain ⟨cap, limit⟩ := validate_limit accepted
          rw [limit] at within
          have fromFile : sent settings (.file policy) (.new numNode) (received :: rest) = _ :=
            sent_new fileReads accepted limit within
          rw [fromFile]
          by_cases unset : policy = .unset
          case pos =>
              rw [silent unset]
              simp [unset]
          case neg =>
              have fromEndpoint : sent settings (.endpoint policy) (.new numNode) (received :: rest) = _ :=
                sent_new (by rw [endpointReads unset]) accepted limit within
              have last : (match walkUp received ⟨policy, started numNode cap⟩ with
                  | .error _ => []
                  | .ok next => sent settings (.endpoint policy) next rest) = [] := by
                cases walked : walkUp received ⟨policy, started numNode cap⟩ with
                | error reason => rfl
                | ok next => exact sent_endpoint (by rw [walkUp_lastPolicy walked, same_self])
              rw [fromEndpoint, endpointReads unset, last, List.cons.injEq]
              simp only [true_and, ne_eq, unset, not_false_eq_true]
              exact sent_file_iff accepted limit rfl

/-- A package of 50 to 300 watts. -/
def packageSettings : PowerSettings := ⟨50, 300, 200⟩

def limitOnly : Policy := ⟨.value 150, .nan, .nan, .nan⟩

def firstStep : List Sample := [⟨.value 0, .value 0, .value 0, .value 0⟩]

/-- Samples of the first step before the last walk make the difference. -/
theorem not_sent_alike_limitOnly : ¬∀ (settings : PowerSettings) (policy : Policy) (numNode : Nat)
    (rounds : List (Option (List Sample))), sent settings (.file policy) (.new numNode) rounds =
      sent settings (.endpoint policy) (.new numNode) rounds := by
  intro all
  exact absurd (all packageSettings limitOnly 1 [some firstStep, none]) (by decide +kernel)


end RootNode

end Geopm
