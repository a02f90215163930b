import Geopm.Balancer.Agg
import Geopm.EpochFilter.CircularBuffer

namespace Geopm

/-! `PowerBalancer`: the power cap and the power limit of one package. -/

structure PowerBalancer where
  /-- `M_CONTROL_LATENCY`, three times the 15 ms of the time window. -/
  controlLatency : ℚ := 45 / 1000
  /-- `M_MIN_TRIAL_DELTA`. -/
  minTrialDelta : ℚ := 1 / 8
  /-- `M_MIN_NUM_SAMPLE`. -/
  minNumSample : Nat := 9
  /-- `M_MIN_DURATION`. -/
  minDuration : ℚ := 1 / 4
  /-- `M_RUNTIME_FRACTION`. -/
  runtimeFraction : ℚ := 2 / 100
  numSample : Nat := 0
  powerCap : Number := .nan
  powerLimit : Number := .nan
  powerLimitChangeTime : ℚ := 0
  targetRuntime : Number := .nan
  trialDelta : ℚ := 8
  runtimeSample : Number := .nan
  isTargetMet : Bool := false
  runtimeBuffer : CircularBuffer ℚ := CircularBuffer.new 0
  runtimeVec : List ℚ := []

namespace PowerBalancer

/-- `power_cap` with an argument. -/
def setPowerCap (balancer : PowerBalancer) (cap : Number) : PowerBalancer :=
  { balancer with
    powerLimit := cap
    powerCap := cap
    runtimeBuffer := balancer.runtimeBuffer.clear
    targetRuntime := .nan }

/-- `power_limit_adjusted`. -/
def powerLimitAdjusted (balancer : PowerBalancer) (now : ℚ) (actualLimit : Number) :
    PowerBalancer :=
  -- the minimum was hit, so stop lowering
  let met : PowerBalancer := { balancer with
    isTargetMet := balancer.isTargetMet || balancer.powerLimit.lt actualLimit }
  if balancer.powerLimit.eq actualLimit then met
  else
    { met with
      powerLimitChangeTime := now
      powerLimit := actualLimit
      runtimeBuffer := balancer.runtimeBuffer.clear }

/-- `is_limit_stable`. -/
def isLimitStable (balancer : PowerBalancer) (now : ℚ) : Bool :=
  decide (balancer.controlLatency < now - balancer.powerLimitChangeTime)

/-- `calculate_runtime_sample`. -/
def calculateRuntimeSample (balancer : PowerBalancer) : PowerBalancer :=
  { balancer with
    runtimeSample :=
      if balancer.runtimeBuffer.size ≠ 0 then
        Agg.median (balancer.runtimeBuffer.entries.map .value)
      else Agg.median (balancer.runtimeVec.map .value) }

/-- The vector holds the runtimes until their sum tells the size of the buffer. -/
def collectRuntime (balancer : PowerBalancer) (runtime : ℚ) :
    Except BufferError (Bool × PowerBalancer) := do
  let runtimeVec := balancer.runtimeVec ++ [runtime]
  if balancer.minDuration < runtimeVec.sum then
    let few := decide (runtimeVec.length < balancer.minNumSample)
    let numSample := if few then balancer.minNumSample else runtimeVec.length
    let runtimeBuffer ← runtimeVec.foldlM CircularBuffer.insert
      (balancer.runtimeBuffer.setCapacity numSample)
    return (!few, { balancer with numSample, runtimeBuffer, runtimeVec := [] })
  else
    return (false, { balancer with runtimeVec })

/-- `is_runtime_stable`. -/
def isRuntimeStable (balancer : PowerBalancer) (now : ℚ) (measuredRuntime : Number) :
    Except BufferError (Bool × PowerBalancer) :=
  match balancer.isLimitStable now, measuredRuntime with
  | true, .value runtime => do
      let (result, next) ←
        if balancer.runtimeBuffer.size = 0 then balancer.collectRuntime runtime
        else do
          let runtimeBuffer ← balancer.runtimeBuffer.insert runtime
          pure (decide (runtimeBuffer.size = runtimeBuffer.maxSize),
            { balancer with runtimeBuffer })
      return (result, next.calculateRuntimeSample)
  | _, _ => .ok (false, balancer)

/-- `target_runtime`. -/
def setTargetRuntime (balancer : PowerBalancer) (largestRuntime : Number) : PowerBalancer :=
  let targetRuntime := largestRuntime * .value (1 - balancer.runtimeFraction)
  { balancer with targetRuntime, isTargetMet := targetRuntime.lt balancer.runtimeSample }

/-- What `is_target_met` does once the runtime is stable. -/
def tryLimit (balancer : PowerBalancer) : PowerBalancer :=
  if balancer.targetRuntime.lt balancer.runtimeSample then
    let raised := balancer.powerLimit + .value balancer.trialDelta
    let powerLimit :=
      if balancer.powerLimit.lt balancer.powerCap then
        if balancer.powerCap.lt raised then balancer.powerCap else raised
      else balancer.powerLimit
    { balancer with powerLimit, isTargetMet := true }
  else
    { balancer with
      powerLimit := balancer.powerLimit - .value balancer.trialDelta
      runtimeBuffer := balancer.runtimeBuffer.clear }

/-- `is_target_met`. -/
def testTarget (balancer : PowerBalancer) (now : ℚ) (measuredRuntime : Number) :
    Except BufferError (Bool × PowerBalancer) := do
  if balancer.isTargetMet then
    return (true, balancer)
  let (stable, measured) ← balancer.isRuntimeStable now measuredRuntime
  let tried := if stable then measured.tryLimit else measured
  return (tried.isTargetMet, tried)

/-- `power_slack`, which halves the trial delta where there is none. -/
def powerSlack (balancer : PowerBalancer) : Number × PowerBalancer :=
  let result := balancer.powerCap - balancer.powerLimit
  if result.eq (.value 0) then
    (result, { balancer with trialDelta := max (balancer.trialDelta / 2) balancer.minTrialDelta })
  else (result, balancer)

end PowerBalancer

end Geopm
