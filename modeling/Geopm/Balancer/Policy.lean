import Geopm.Balancer.PowerBalancer

namespace Geopm

/-! What travels between the agents of a tree of power balancers. -/

structure Policy where
  powerPackageLimitTotal : Number
  stepCount : Number
  maxEpochRuntime : Number
  powerSlack : Number
deriving Repr, DecidableEq

structure Sample where
  stepCount : Number
  maxEpochRuntime : Number
  sumPowerSlack : Number
  minPowerHeadroom : Number
deriving Repr, DecidableEq

inductive AgentError where
  /-- "PowerBalancerAgent: invalid policy." -/
  | invalidPolicy
  /-- "PowerBalancerAgent::adjust_platform(): The policy step is out of sync with the agent
  step or first policy received had a zero power cap." -/
  | policyStepOutOfSync
  /-- "PowerBalancerAgent::descend(): policy is out of sync with agent step." -/
  | policyOutOfSync
  /-- "PowerBalancerAgent::descend(): updated policy is out of sync with current step" -/
  | updatedPolicyOutOfSync
  /-- "PowerBalancerAgent::TreeRole::ascend(): sample received has true for step complete
  field, but the step_count does not match the agent's current step_count." -/
  | stepCountMismatch
  /-- "PowerBalancerAgent::RootRole::ascend(): sample passed does not match current
  step_count." -/
  | sampleMismatch
  /-- "PowerBalancerAgent::descend(): invalid power budget: " and the budget. -/
  | invalidPowerBudget (rootCap : Number)
  /-- An exception of a circular buffer of runtimes. -/
  | buffer (reason : BufferError)
deriving Repr, DecidableEq

/-- The steps of two agents, or of an agent and a message, do not fit together. -/
def AgentError.IsStepError : AgentError → Prop
  | .policyStepOutOfSync | .policyOutOfSync | .updatedPolicyOutOfSync
  | .stepCountMismatch | .sampleMismatch => True
  | .invalidPolicy | .invalidPowerBudget _ | .buffer _ => False

/-- What the constructor of an agent reads from the platform, in watts. -/
structure PowerSettings where
  /-- "POWER_PACKAGE_MIN" -/
  minPkgPowerSetting : ℚ
  /-- "POWER_PACKAGE_MAX" -/
  maxPkgPowerSetting : ℚ
  /-- "POWER_PACKAGE_TDP" -/
  powerTdp : ℚ
deriving Repr, DecidableEq

namespace Policy

/-- A vector of `NAN`. -/
def unset : Policy := ⟨.nan, .nan, .nan, .nan⟩

def hasNan (policy : Policy) : Bool :=
  policy.powerPackageLimitTotal.isNan || policy.stepCount.isNan ||
    policy.maxEpochRuntime.isNan || policy.powerSlack.isNan

/-- Every field that is not a number gets its default. -/
def withDefaults (settings : PowerSettings) (policy : Policy) : Policy where
  powerPackageLimitTotal :=
    if policy.powerPackageLimitTotal.isNan then .value settings.powerTdp
    else policy.powerPackageLimitTotal
  stepCount := if policy.stepCount.isNan then .value 0 else policy.stepCount
  maxEpochRuntime := if policy.maxEpochRuntime.isNan then .value 0 else policy.maxEpochRuntime
  powerSlack := if policy.powerSlack.isNan then .value 0 else policy.powerSlack

/-- Zero is a power limit when the step is not `SEND_DOWN_LIMIT`. -/
def clamp (settings : PowerSettings) (limit : Number) : Number :=
  if limit.eq (.value 0) then limit
  else if limit.lt (.value settings.minPkgPowerSetting) then .value settings.minPkgPowerSetting
  else if (Number.value settings.maxPkgPowerSetting).lt limit then
    .value settings.maxPkgPowerSetting
  else limit

def isZero (policy : Policy) : Bool :=
  policy.powerPackageLimitTotal.eq (.value 0) && policy.stepCount.eq (.value 0) &&
    policy.maxEpochRuntime.eq (.value 0) && policy.powerSlack.eq (.value 0)

/-- `validate_policy`. -/
def validate (settings : PowerSettings) (policy : Policy) : Except AgentError Policy :=
  let filled := policy.withDefaults settings
  let valid := { filled with
    powerPackageLimitTotal := clamp settings filled.powerPackageLimitTotal }
  if valid.isZero then .error .invalidPolicy else .ok valid

end Policy

namespace Sample

def hasNan (sample : Sample) : Bool :=
  sample.stepCount.isNan || sample.maxEpochRuntime.isNan ||
    sample.sumPowerSlack.isNan || sample.minPowerHeadroom.isNan

/-- `aggregate_sample` with the functions of `M_AGG_FUNC`. -/
def aggregate (samples : List Sample) : Sample where
  stepCount := Agg.min (samples.map stepCount)
  maxEpochRuntime := Agg.max (samples.map maxEpochRuntime)
  sumPowerSlack := Agg.sum (samples.map sumPowerSlack)
  minPowerHeadroom := Agg.min (samples.map minPowerHeadroom)

end Sample

/-- `m_step_e`. -/
inductive BalancerStep where
  | sendDownLimit
  | measureRuntime
  | reduceLimit
deriving Repr, DecidableEq

namespace BalancerStep

/-- `Role::step`; the step count before the first step is converted to `2 ^ 64 - 1`,
which is a multiple of three. -/
def ofCount (stepCount : Int) : BalancerStep :=
  match stepCount.toNat % 3 with
  | 0 => .sendDownLimit
  | 1 => .measureRuntime
  | _ => .reduceLimit

/-- `Step::update_policy`. -/
def updatePolicy (step : BalancerStep) (numNode : Nat) (sample : Sample) (policy : Policy) :
    Policy :=
  match step with
  | .sendDownLimit => { policy with powerPackageLimitTotal := .value 0 }
  | .measureRuntime => { policy with maxEpochRuntime := sample.maxEpochRuntime }
  | .reduceLimit =>
      { policy with
        powerSlack := (sample.sumPowerSlack / .value numNode).least sample.minPowerHeadroom }

end BalancerStep

end Geopm
