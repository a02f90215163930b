import Geopm.Library.Number
import Geopm.Record

namespace Geopm

/-! `FrequencyMapAgent`: what it does with policies. -/

namespace FrequencyMap

/-- `M_NUM_POLICY`. -/
def numPolicy : Nat := 64

inductive AgentError where
  /-- "default frequency must be provided in policy." -/
  | noDefaultFrequency
  /-- "default frequency out of range: ". -/
  | defaultFrequencyOutOfRange (frequency : Number)
  /-- "mapped region with no frequency assigned." -/
  | noFrequencyAssigned
  /-- "FrequencyMapAgent policy has multiple entries for region: ". -/
  | multipleEntries (region : Nat)
  /-- "FrequencyMapAgent policy maps a NaN region with frequency: ". -/
  | nanRegion (frequency : Number)
  /-- "FrequencyMapAgent::update_policy(): received invalid all-NAN policy." -/
  | allNanPolicy
deriving Repr, DecidableEq

/-- `FrequencyMapAgent`, as far as it holds policies. -/
structure Agent where
  isPolicyUpdated : Bool
  isRealPolicy : Bool
  hashFreqMap : List (Nat × Number)
  coreFreqMin : Number
  coreFreqMax : Number
  defaultFreq : Number
  uncoreFreq : Number
deriving Repr, DecidableEq

/-- `is_all_nan`. -/
def isAllNan (policy : List Number) : Bool := policy.all Number.isNan

/-- The loop of `validate_policy` over the pairs of a hash and a frequency. -/
def validatePairs : List Number → List Nat → Except AgentError Unit
  | hash :: mappedFreq :: rest, policyRegions =>
      match hash with
      | .nan =>
          if mappedFreq.isNan then validatePairs rest policyRegions else .error (.nanRegion mappedFreq)
      | .value rational =>
          let region := (truncate rational).toNat
          if mappedFreq.isNan then .error .noFrequencyAssigned
          else if region ∈ policyRegions then .error (.multipleEntries region)
          else validatePairs rest (region :: policyRegions)
  | _, _ => .ok ()

/-- An assignment to an entry of `m_hash_freq_map`, in the order of the keys. -/
def assign (hash : Nat) (freq : Number) : List (Nat × Number) → List (Nat × Number)
  | [] => [(hash, freq)]
  | entry :: rest =>
      if hash < entry.1 then (hash, freq) :: entry :: rest
      else if hash = entry.1 then (hash, freq) :: rest
      else entry :: assign hash freq rest

/-- The loop of `update_policy`. -/
def mapPairs : List Number → List (Nat × Number) → List (Nat × Number)
  | hash :: freq :: rest, hashFreqMap =>
      match hash with
      | .nan => mapPairs rest hashFreqMap
      | .value rational => mapPairs rest (assign (truncate rational).toNat freq hashFreqMap)
  | _, hashFreqMap => hashFreqMap

/-- `==` of two maps. -/
def sameMap : List (Nat × Number) → List (Nat × Number) → Bool
  | [], [] => true
  | left :: lefts, right :: rights => left.1 == right.1 && left.2.eq right.2 && sameMap lefts rights
  | _, _ => false

namespace Agent

/-- The constructor. -/
def new : Agent := ⟨false, false, [], .nan, .nan, .nan, .nan⟩

/-- `init`. Only the agent of level 0 reads the limits of the platform. -/
def init (level : Nat) (coreFreqMin coreFreqMax : ℚ) (agent : Agent) : Agent :=
  if level = 0 then
    { agent with coreFreqMin := .value coreFreqMin, coreFreqMax := .value coreFreqMax }
  else agent

/-- `validate_policy`. -/
def validatePolicy (policy : List Number) (agent : Agent) : Except AgentError Unit :=
  let freqDefault := policy.getD 0 .nan
  if isAllNan policy then .ok ()
  else if freqDefault.isNan then .error .noDefaultFrequency
  else if agent.coreFreqMax.lt freqDefault ∨ freqDefault.lt agent.coreFreqMin then
    .error (.defaultFrequencyOutOfRange freqDefault)
  else validatePairs (policy.drop 2) []

/-- `update_policy`. -/
def updatePolicy (policy : List Number) (agent : Agent) : Except AgentError Agent :=
  if isAllNan policy && !agent.isRealPolicy then
    -- ignored until the first real policy is received
    .ok { agent with isPolicyUpdated := false }
  else if isAllNan policy then .error .allNanPolicy
  else
    let freqDefault := policy.getD 0 .nan
    let freqUncore := policy.getD 1 .nan
    let hashFreqMap := mapPairs (policy.drop 2) []
    .ok { agent with
      isRealPolicy := true
      hashFreqMap
      isPolicyUpdated := !agent.defaultFreq.eq freqDefault || !sameMap hashFreqMap agent.hashFreqMap ||
        !freqUncore.isNan && !agent.uncoreFreq.eq freqUncore
      defaultFreq := if agent.defaultFreq.eq freqDefault then agent.defaultFreq else freqDefault
      uncoreFreq := freqUncore }

/-- `split_policy`. -/
def splitPolicy (inPolicy : List Number) (outPolicy : List (List Number)) (agent : Agent) :
    Except AgentError (Agent × List (List Number)) := do
  let agent ← agent.updatePolicy inPolicy
  pure (agent, if agent.isPolicyUpdated then outPolicy.map fun _ => inPolicy else outPolicy)

/-- `do_send_policy`. -/
def doSendPolicy (agent : Agent) : Bool := agent.isPolicyUpdated

/-- `adjust_platform`, as far as it concerns the policy. -/
def adjustPlatform (inPolicy : List Number) (agent : Agent) : Except AgentError Agent :=
  agent.updatePolicy inPolicy

variable {agent : Agent} {policy : List Number}

/-- A policy that is accepted with the limits of a platform is accepted without. -/
theorem validatePolicy_unlimited (accepted : agent.validatePolicy policy = .ok ()) :
    new.validatePolicy policy = .ok () := by
  simp only [validatePolicy] at accepted ⊢
  split_ifs at accepted with blank missing limits
  case pos => rw [if_pos blank]
  case neg =>
      rw [if_neg blank, if_neg missing, if_neg (by simp [new]), accepted]

/-- The first policy that is not blank is new. -/
theorem updatePolicy_first (first : agent.defaultFreq = .nan) (filled : isAllNan policy = false) :
    ∃ next, agent.updatePolicy policy = .ok next ∧ next.isPolicyUpdated = true := by
  rw [updatePolicy, filled]
  simp only [Bool.false_and, Bool.false_eq_true, if_false]
  exact ⟨_, rfl, by simp [first]⟩

theorem splitPolicy_first (first : agent.defaultFreq = .nan) (filled : isAllNan policy = false)
    (outPolicy : List (List Number)) :
    ∃ next, agent.splitPolicy policy outPolicy = .ok (next, outPolicy.map fun _ => policy) ∧
      next.doSendPolicy = true := by
  obtain ⟨next, updated, new⟩ := updatePolicy_first first filled
  refine ⟨next, ?_, new⟩
  simp only [splitPolicy, updated, bind, Except.bind, pure, Except.pure, new, if_true]

end Agent

end FrequencyMap

end Geopm
