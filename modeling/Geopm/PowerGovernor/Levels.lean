import Geopm.Balancer.Policy
import Geopm.Controllers.Tree
import Geopm.PowerGovernorAgent

namespace Geopm

/-! `PowerGovernorAgent` of all levels, in the tree of the controllers. -/

namespace Agg

open Number (rationals)

/-- `average`. -/
def average (operand : List Number) : Number :=
  if (rationals operand).isEmpty then .nan else sum operand / .value (rationals operand).length

/-- `logical_and`. -/
def logicalAnd (operand : List Number) : Number :=
  if (rationals operand).isEmpty then .nan
  else if (rationals operand).all fun value => decide (value ≠ 0) then .value 1 else .value 0

end Agg

namespace PowerGovernor

inductive AgentError where
  /-- "PowerGovernorAgent::split_policy(): invalid power budget." -/
  | invalidPowerBudget
  | buffer (reason : BufferError)
deriving Repr, DecidableEq

/-- `PowerGovernorAgent`. The members that the leaf uses are in `base`. -/
structure LevelAgent where
  settings : PowerSettings
  base : Agent
  isSampleStable : Bool
  powerBudgetChanged : Bool
  ascendCount : Nat

/-- `m_ascend_period` -/
def ascendPeriod : Nat := 10

namespace LevelAgent

/-- The constructor and `init`. -/
def new (settings : PowerSettings) (powerGov : PowerGovernor) : LevelAgent :=
  ⟨settings, .new powerGov, false, false, 0⟩

/-- `validate_policy` -/
def validatePolicy (policy : Number) (agent : LevelAgent) : Number :=
  let power := if policy.isNan then .value agent.settings.powerTdp else policy
  if power.lt (.value agent.settings.minPkgPowerSetting) then .value agent.settings.minPkgPowerSetting
  else if (Number.value agent.settings.maxPkgPowerSetting).lt power then .value agent.settings.maxPkgPowerSetting
  else power

/-- `split_policy` -/
def splitPolicy (powerBudgetIn : Number) (outPolicy : List Number) (agent : LevelAgent) :
    Except AgentError (List Number × LevelAgent) :=
  if (Number.value agent.settings.maxPkgPowerSetting).lt powerBudgetIn ||
      powerBudgetIn.lt (.value agent.settings.minPkgPowerSetting) then .error .invalidPowerBudget
  else if (agent.base.lastPowerBudget.isNan && !powerBudgetIn.isNan) ||
      !agent.base.lastPowerBudget.eq powerBudgetIn then
    .ok (outPolicy.map fun _ => powerBudgetIn, { agent with
      base := { agent.base with
        lastPowerBudget := powerBudgetIn
        epochPowerBuf := agent.base.epochPowerBuf.clear }
      powerBudgetChanged := true })
  else .ok (outPolicy, { agent with powerBudgetChanged := false })

/-- `Agent::aggregate_sample` with the functions that `init` sets. -/
def aggregate (inSample : List Sample) : Sample where
  power := Agg.average (inSample.map Sample.power)
  isConverged := Agg.logicalAnd (inSample.map Sample.isConverged)
  powerEnforced := Agg.average (inSample.map Sample.powerEnforced)

/-- `aggregate_sample` -/
def aggregateSample (inSample : List Sample) (outSample : Sample) (agent : LevelAgent) : Sample × LevelAgent :=
  let isSampleStable := inSample.all fun sample => !sample.isConverged.eq (.value 0)
  let doSendSample := isSampleStable && decide (agent.ascendCount = 0)
  let count := if isSampleStable then agent.ascendCount + 1 else agent.ascendCount
  (if doSendSample then aggregate inSample else outSample, { agent with
    base := { agent.base with doSendSample }
    isSampleStable
    ascendCount := if isSampleStable && decide (count = ascendPeriod) then 0 else count })

/-- `adjust_platform` -/
def adjustPlatform (policy : Number) (agent : LevelAgent) : LevelAgent :=
  { agent with base := agent.base.adjustPlatform policy }

/-- `sample_platform` -/
def samplePlatform (pkgPower : Number) (outSample : Sample) (agent : LevelAgent) :
    Except AgentError (Sample × LevelAgent) :=
  match agent.base.samplePlatform pkgPower outSample with
  | .error reason => .error (.buffer reason)
  | .ok (base, outSample) => .ok (outSample, { agent with base })

end LevelAgent

/-- A policy is the power budget, a reading the package power of the board. -/
def methods : Controllers.Methods Number Sample LevelAgent Number AgentError where
  policyValues policy := [policy]
  sampleValues sample := [sample.power, sample.isConverged, sample.powerEnforced]
  unsetPolicy := .nan
  unsetSample := ⟨.nan, .nan, .nan⟩
  validatePolicy policy agent := .ok (agent.validatePolicy policy)
  splitPolicy policy outPolicy agent := agent.splitPolicy policy outPolicy
  doSendPolicy agent := agent.powerBudgetChanged
  aggregateSample inSample outSample agent := .ok (agent.aggregateSample inSample outSample)
  doSendSample agent := agent.base.doSendSample
  adjustPlatform policy agent := .ok (agent.adjustPlatform policy)
  samplePlatform pkgPower outSample agent := agent.samplePlatform pkgPower outSample

/-- The nodes of a job that run the agent, and the communicators of their tree. -/
structure Job where
  dims : List Nat
  split : (Nat → TreeComm.SplitCall) → Nat → List Nat
  positive : ∀ dim ∈ dims, 1 ≤ dim
  splits : TreeComm.Splits dims.prod split
  settings : Nat → PowerSettings
  powerGov : Nat → PowerGovernor
  filePolicy : Option Number
  /-- No governor has set a limit yet. -/
  unset : ∀ rank, (powerGov rank).lastPkgPowerSetting = .nan

def Job.system (job : Job) : Controllers.System Number Sample LevelAgent Number AgentError where
  methods
  topology := TreeComm.topology job.positive job.splits
  agent rank _ := .new (job.settings rank) (job.powerGov rank)
  filePolicy := job.filePolicy

end PowerGovernor

end Geopm
