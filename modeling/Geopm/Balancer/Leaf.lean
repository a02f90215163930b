import Geopm.Balancer.Policy

namespace Geopm

/-! `LeafRole`: the agent of one compute node, which sets the limits of its packages. -/

/-- What the signals of a package say. -/
structure Measured where
  epochCount : Int
  /-- The runtime of the last epoch, and what of it was spent in the network or is ignored. -/
  total : Number
  network : Number
  ignore : Number
  now : ℚ

def Measured.balancedEpochRuntime (measured : Measured) : Number :=
  measured.total - measured.network - measured.ignore

/-- `m_package_s`, with the balancer of the package. -/
structure Package where
  lastEpochCount : Int := 0
  runtime : Number := .value 0
  actualLimit : Number := .nan
  powerSlack : Number := .value 0
  powerHeadroom : Number := .value 0
  isOutOfBounds : Bool := false
  isStepComplete : Bool := true
  powerBalancer : PowerBalancer := {}

namespace Package

variable (settings : PowerSettings)

/-- The power that a package may still be given. -/
def headroom (package : Package) (evenSlack : Number) : Number :=
  .value settings.maxPkgPowerSetting - (package.powerBalancer.powerLimit + evenSlack)

def setCap (package : Package) (cap : Number) : Package :=
  { package with powerBalancer := package.powerBalancer.setPowerCap cap }

def setComplete (package : Package) (isComplete : Bool) : Package :=
  { package with isStepComplete := isComplete }

/-- What `adjust_platform` does for one package, and whether it adjusts the limit. -/
def requestLimit (package : Package) (now : ℚ) : Bool × Package :=
  let requested := package.powerBalancer.powerLimit
  if requested.isNan || requested.eq (.value 0) then (false, package)
  else
    let isLow := requested.lt (.value settings.minPkgPowerSetting)
    let limit := if isLow then .value settings.minPkgPowerSetting else requested
    let bounded : Package := { package with isOutOfBounds := package.isOutOfBounds || isLow }
    if limit.eq package.actualLimit then (false, bounded)
    else
      (true, { bounded with
        powerBalancer := package.powerBalancer.powerLimitAdjusted now limit
        actualLimit := limit })

/-- All ranks have observed a new epoch in a step that is not complete. -/
def hasNewEpoch (package : Package) (measured : Measured) : Bool :=
  decide (1 < measured.epochCount) && decide (measured.epochCount ≠ package.lastEpochCount) &&
    !package.isStepComplete

/-- What `MeasureRuntimeStep::sample_platform` does for one package. -/
def measureRuntime (package : Package) (measured : Measured) : Except BufferError Package :=
  if package.hasNewEpoch measured then do
    let (isStable, powerBalancer) ← package.powerBalancer.isRuntimeStable measured.now
      measured.balancedEpochRuntime
    return { package with
      powerBalancer
      isStepComplete := isStable
      runtime := if isStable then package.runtime else powerBalancer.runtimeSample
      lastEpochCount := measured.epochCount }
  else .ok { package with lastEpochCount := measured.epochCount }

/-- The target counts as met out of bounds, where it is not tested. -/
def testTarget (package : Package) (measured : Measured) :
    Except BufferError (Bool × PowerBalancer) :=
  if package.isOutOfBounds then .ok (true, package.powerBalancer)
  else package.powerBalancer.testTarget measured.now measured.balancedEpochRuntime

/-- What `ReduceLimitStep::sample_platform` does for one package. -/
def reduceLimit (package : Package) (measured : Measured) : Except BufferError Package :=
  if package.hasNewEpoch measured then do
    let (isMet, tested) ← package.testTarget measured
    let (powerSlack, powerBalancer) := tested.powerSlack
    return { package with
      powerBalancer
      isStepComplete := isMet
      powerSlack
      isOutOfBounds := false
      powerHeadroom := .value settings.maxPkgPowerSetting - powerBalancer.powerLimit
      lastEpochCount := measured.epochCount }
  else .ok { package with lastEpochCount := measured.epochCount }

end Package

structure LeafRole where
  policy : Policy := .unset
  stepCount : Int := -1
  packages : List Package
  isFirstPolicy : Bool := true

/-- The largest `double`. -/
def maxDouble : ℚ := 2 ^ 1024 - 2 ^ 971

namespace LeafRole

variable (settings : PowerSettings)

def numDomain (role : LeafRole) : Number := .value role.packages.length

/-- `are_steps_complete`. -/
def areStepsComplete (role : LeafRole) : Bool := role.packages.all Package.isStepComplete

/-- `SendDownLimitStep::enter_step`. -/
def enterSendDownLimit (role : LeafRole) (inPolicy : Policy) : LeafRole :=
  let minHeadroom := role.packages.foldl
    (fun least package => least.least
      (.value settings.maxPkgPowerSetting - package.powerBalancer.powerLimit))
    (.value maxDouble)
  let isEven := (inPolicy.powerSlack / role.numDomain).lt minHeadroom
  let evenSlack := if isEven then inPolicy.powerSlack / role.numDomain else minHeadroom
  let slackPower :=
    if isEven then .value 0 else inPolicy.powerSlack - evenSlack * role.numDomain
  let totalHeadroom := role.packages.foldl
    (fun total package => total + package.headroom settings evenSlack) (.value 0)
  let cap (package : Package) : Number :=
    let factor :=
      if totalHeadroom.eq (.value 0) then .value 1
      else package.headroom settings evenSlack / totalHeadroom
    package.powerBalancer.powerLimit + evenSlack + factor * slackPower
  { role with
    packages := role.packages.map fun package =>
      (package.setCap (cap package)).setComplete true }

/-- `ReduceLimitStep::enter_step`. -/
def enterReduceLimit (role : LeafRole) (inPolicy : Policy) : LeafRole :=
  { role with
    packages := role.packages.map fun package => { package with
      powerBalancer := package.powerBalancer.setTargetRuntime inPolicy.maxEpochRuntime } }

/-- `Step::enter_step`. -/
def enterStep (role : LeafRole) (inPolicy : Policy) : LeafRole :=
  match BalancerStep.ofCount role.stepCount with
  | .sendDownLimit => role.enterSendDownLimit settings inPolicy
  | .measureRuntime => role
  | .reduceLimit => role.enterReduceLimit inPolicy

/-- A single node takes its first policy and then updates it by itself. -/
def updatePolicy (role : LeafRole) (numNode : Nat) (inPolicy : Policy) : LeafRole :=
  if role.isFirstPolicy then { role with policy := inPolicy, isFirstPolicy := false }
  else if role.areStepsComplete then
    let sample : Sample :=
      ⟨role.policy.stepCount, role.policy.maxEpochRuntime, role.policy.powerSlack,
        role.policy.powerSlack⟩
    let updated :=
      (BalancerStep.ofCount role.stepCount).updatePolicy numNode sample role.policy
    { role with policy := { updated with stepCount := updated.stepCount + .value 1 } }
  else role

/-- A cap from the resource manager resets the algorithm. -/
def resetCaps (role : LeafRole) : LeafRole :=
  let pkgLimit := role.policy.powerPackageLimitTotal / role.numDomain
  { role with
    stepCount := 0
    packages := role.packages.map fun package => (package.setCap pkgLimit).setComplete true }

/-- What `adjust_platform` does with the policy. -/
def takePolicy (role : LeafRole) : Except AgentError LeafRole :=
  if !role.policy.powerPackageLimitTotal.eq (.value 0) then .ok role.resetCaps
  else if !role.policy.stepCount.eq (.value role.stepCount) then
    let advanced := { role with
      stepCount := role.stepCount + 1
      packages := role.packages.map (Package.setComplete · false) }
    if !role.policy.stepCount.eq (.value advanced.stepCount) then .error .policyStepOutOfSync
    else .ok (advanced.enterStep settings role.policy)
  else .ok role

/-- `adjust_platform`, which tells whether any limit is adjusted. -/
def adjustPlatform (isSingleNode : Bool) (numNode : Nat) (role : LeafRole) (inPolicy : Policy)
    (clock : Nat → ℚ) : Except AgentError (Bool × LeafRole) := do
  let received :=
    if isSingleNode then role.updatePolicy numNode inPolicy else { role with policy := inPolicy }
  let entered ← received.takePolicy settings
  let requests := entered.packages.mapIdx fun index package =>
    package.requestLimit settings (clock index)
  return (requests.any Prod.fst, { entered with packages := requests.map Prod.snd })

/-- `Step::sample_platform`. -/
def sampleStep (role : LeafRole) (measured : Nat → Measured) : Except BufferError (List Package) :=
  match BalancerStep.ofCount role.stepCount with
  | .sendDownLimit => .ok role.packages
  | .measureRuntime =>
      role.packages.zipIdx.mapM fun (package, index) => package.measureRuntime (measured index)
  | .reduceLimit =>
      role.packages.zipIdx.mapM fun (package, index) =>
        package.reduceLimit settings (measured index)

/-- The sample of the node. -/
def sample (role : LeafRole) : Sample where
  stepCount := .value role.stepCount
  maxEpochRuntime := role.packages.foldl (fun runtime package => runtime.most package.runtime)
    (.value 0)
  sumPowerSlack := role.packages.foldl (fun slack package => slack + package.powerSlack) (.value 0)
  minPowerHeadroom :=
    role.packages.foldl (fun headroom package => headroom + package.powerHeadroom) (.value 0)

/-- `sample_platform`, which tells whether the step is complete. -/
def samplePlatform (isSingleNode : Bool) (role : LeafRole) (measured : Nat → Measured) :
    Except AgentError (Bool × Sample × LeafRole) :=
  match role.sampleStep settings measured with
  | .error reason => .error (.buffer reason)
  | .ok packages =>
      let sampled := { role with packages }
      let sample := sampled.sample
      let policy :=
        if isSingleNode && sampled.areStepsComplete then
          { role.policy with
            maxEpochRuntime := sample.maxEpochRuntime
            powerSlack := sample.sumPowerSlack.least sample.minPowerHeadroom }
        else role.policy
      .ok (sampled.areStepsComplete, sample, { sampled with policy })

end LeafRole

end Geopm
