import Geopm.FrequencyMapAgent
import Mathlib.Data.Finset.Dedup
import Mathlib.Data.Finset.Lattice.Basic
import Mathlib.Data.Finset.Union

namespace Geopm

/-! `FrequencyMapAgent` of level 0: the frequencies that it sets. -/

namespace FrequencyMap

/-- A frequency control with the vectors of the agent at its index. -/
structure FreqDomain where
  lastHash : Nat
  lastFreq : Number
  /-- what `adjust` was called with -/
  setting : Number
  /-- what `write_batch` has written -/
  inForce : Number
deriving Repr, DecidableEq

/-- The two controls of the uncore frequency. -/
structure UncoreLimits where
  minRatio : Number
  maxRatio : Number
deriving Repr, DecidableEq

/-- A fixed frequency. -/
def UncoreLimits.fixed (freq : Number) : UncoreLimits := ⟨freq, freq⟩

structure Leaf where
  agent : Agent
  domains : List FreqDomain
  lastUncoreFreq : Number
  uncoreSetting : UncoreLimits
  uncoreInForce : UncoreLimits
  uncoreInit : UncoreLimits
  isAdjustInitialized : Bool
  defaultFreqHash : Finset Nat
  doWriteBatch : Bool
deriving DecidableEq

/-- `GEOPM_REGION_HASH_UNMARKED`. -/
def regionHashUnmarked : Nat := 0x725e8066

/-- The frequency of a region. -/
def Agent.freqOf (agent : Agent) (hash : Nat) : Number :=
  (agent.hashFreqMap.lookup hash).getD agent.defaultFreq

/-- What `update_policy` finds to have changed. -/
def Agent.isChanged (policy : List Number) (agent : Agent) : Bool :=
  !agent.defaultFreq.eq (policy.getD 0 .nan) || !sameMap (mapPairs (policy.drop 2) []) agent.hashFreqMap ||
    !(policy.getD 1 .nan).isNan && !agent.uncoreFreq.eq (policy.getD 1 .nan)

/-- The agent after a policy that is not blank. -/
def Agent.accept (policy : List Number) (agent : Agent) : Agent :=
  { agent with
    isRealPolicy := true
    hashFreqMap := mapPairs (policy.drop 2) []
    isPolicyUpdated := agent.isChanged policy
    defaultFreq := policy.getD 0 .nan
    uncoreFreq := policy.getD 1 .nan }

theorem Agent.updatePolicy_filled {agent : Agent} {policy : List Number} (filled : isAllNan policy = false) :
    agent.updatePolicy policy = .ok (agent.accept policy) := by
  have default : (if agent.defaultFreq.eq (policy.getD 0 .nan) then agent.defaultFreq
      else policy.getD 0 .nan) = policy.getD 0 .nan := by
    split
    · next same => exact Number.of_eq same
    · rfl
  rw [updatePolicy, filled]
  simp only [Bool.false_and, Bool.false_eq_true, if_false, default]
  rfl

/-- The loop of `adjust_platform` for one domain. -/
def FreqDomain.adjust (agent : Agent) (domain : FreqDomain) : FreqDomain :=
  let freq := agent.freqOf domain.lastHash
  if domain.lastFreq.eq freq then domain else { domain with lastFreq := freq, setting := freq }

/-- `write_batch` for one domain. -/
def FreqDomain.write (domain : FreqDomain) : FreqDomain := { domain with inForce := domain.setting }

namespace Leaf

/-- The constructor and `init`, over the settings that the platform has. -/
def init (coreFreqMin coreFreqMax : ℚ) (freqs : List Number) (uncore : UncoreLimits) : Leaf where
  agent := Agent.new.init 0 coreFreqMin coreFreqMax
  domains := freqs.map fun freq => ⟨regionHashUnmarked, .nan, .nan, freq⟩
  lastUncoreFreq := .nan
  uncoreSetting := ⟨.nan, .nan⟩
  uncoreInForce := uncore
  uncoreInit := uncore
  isAdjustInitialized := false
  defaultFreqHash := ∅
  doWriteBatch := false

/-- Each control is adjusted once to what it has. -/
def adjustOnce (leaf : Leaf) : Leaf :=
  if leaf.isAdjustInitialized then leaf
  else { leaf with
    domains := leaf.domains.map fun domain => { domain with setting := domain.inForce }
    uncoreSetting := leaf.uncoreInit
    isAdjustInitialized := true }

/-- The hashes of the regions that the map does not name. -/
def unmapped (hashFreqMap : List (Nat × Number)) (domains : List FreqDomain) : Finset Nat :=
  ((domains.map FreqDomain.lastHash).filter fun hash => (hashFreqMap.lookup hash).isNone).toFinset

/-- The loop of `adjust_platform`. -/
def adjustFreqs (leaf : Leaf) : Leaf :=
  { leaf with
    domains := leaf.domains.map (FreqDomain.adjust leaf.agent)
    defaultFreqHash := leaf.defaultFreqHash ∪ unmapped leaf.agent.hashFreqMap leaf.domains
    doWriteBatch := leaf.doWriteBatch || leaf.domains.any fun domain =>
      !domain.lastFreq.eq (leaf.agent.freqOf domain.lastHash) }

/-- The end of `adjust_platform`. -/
def adjustUncore (leaf : Leaf) : Leaf :=
  let uncoreFreq := leaf.agent.uncoreFreq
  if leaf.lastUncoreFreq.eq uncoreFreq then leaf
  else if !uncoreFreq.isNan then
    { leaf with uncoreSetting := .fixed uncoreFreq, doWriteBatch := true, lastUncoreFreq := uncoreFreq }
  else if !leaf.lastUncoreFreq.isNan then
    { leaf with uncoreSetting := leaf.uncoreInit, doWriteBatch := true, lastUncoreFreq := uncoreFreq }
  else { leaf with lastUncoreFreq := uncoreFreq }

/-- `adjust_platform`. -/
def adjustPlatform (inPolicy : List Number) (leaf : Leaf) : Except AgentError Leaf := do
  let agent ← leaf.agent.updatePolicy inPolicy
  let leaf := adjustOnce { leaf with agent, doWriteBatch := false }
  if isAllNan inPolicy && !agent.isRealPolicy then pure leaf
  else pure leaf.adjustFreqs.adjustUncore

/-- `write_batch`, which the controller calls if `do_write_batch` is true. -/
def writeBatch (leaf : Leaf) : Leaf :=
  if leaf.doWriteBatch then
    { leaf with
      domains := leaf.domains.map FreqDomain.write
      uncoreInForce := leaf.uncoreSetting }
  else leaf

/-- `sample_platform`. -/
def samplePlatform (hashes : Nat → Nat) (leaf : Leaf) : Leaf :=
  { leaf with domains := leaf.domains.mapIdx fun index domain => { domain with lastHash := hashes index } }

/-- A step of the controller. -/
def step (inPolicy : List Number) (hashes : Nat → Nat) (leaf : Leaf) : Except AgentError Leaf := do
  let leaf ← leaf.adjustPlatform inPolicy
  pure (leaf.writeBatch.samplePlatform hashes)

/-- The limits for an uncore frequency, which may be missing. -/
def uncoreFor (leaf : Leaf) (freq : Number) : UncoreLimits :=
  if freq.isNan then leaf.uncoreInit else .fixed freq

/-- The core and uncore frequencies that are in force. -/
def applied (leaf : Leaf) : List Number × UncoreLimits :=
  (leaf.domains.map FreqDomain.inForce, leaf.uncoreInForce)

/-- Everything that was adjusted is in force. -/
structure Written (leaf : Leaf) : Prop where
  isAdjustInitialized : leaf.isAdjustInitialized = true
  domains : ∀ domain ∈ leaf.domains, domain.setting = domain.inForce
  uncoreSetting : leaf.uncoreSetting = leaf.uncoreFor leaf.lastUncoreFreq
  uncoreInForce : leaf.uncoreInForce = leaf.uncoreFor leaf.lastUncoreFreq

/-- The leaf after a step with a policy that is not blank. -/
def next (policy : List Number) (hashes : Nat → Nat) (leaf : Leaf) : Leaf :=
  ((adjustOnce { leaf with agent := leaf.agent.accept policy, doWriteBatch := false }).adjustFreqs.adjustUncore
    |>.writeBatch).samplePlatform hashes

variable {leaf other : Leaf} {policy : List Number} {hashes : Nat → Nat}

theorem step_filled (filled : isAllNan policy = false) :
    leaf.step policy hashes = .ok (leaf.next policy hashes) := by
  simp only [step, adjustPlatform, Agent.updatePolicy_filled filled, filled, bind, Except.bind, pure,
    Except.pure, Bool.false_and, Bool.false_eq_true, if_false]
  rfl

theorem adjustOnce_written (written : leaf.Written) : leaf.adjustOnce = leaf := by
  rw [adjustOnce, if_pos written.isAdjustInitialized]

theorem Written.ready (written : leaf.Written) : leaf.adjustOnce.Written := by
  rwa [adjustOnce_written written]

theorem next_adjustOnce : leaf.adjustOnce.next policy hashes = leaf.next policy hashes := by
  cases done : leaf.isAdjustInitialized with
  | true => rw [adjustOnce, if_pos done]
  | false =>
      have started : leaf.adjustOnce = { leaf with
          domains := leaf.domains.map fun domain => { domain with setting := domain.inForce }
          uncoreSetting := leaf.uncoreInit
          isAdjustInitialized := true } := by
        rw [adjustOnce, if_neg (by simp [done])]
      rw [started]
      simp only [next, adjustOnce, done, if_true, Bool.false_eq_true, if_false]

/-- A domain that is not changed needs no write. -/
theorem write_adjust_unchanged {agent : Agent} {domain : FreqDomain}
    (inForce : domain.setting = domain.inForce)
    (unchanged : domain.lastFreq.eq (agent.freqOf domain.lastHash) = true) :
    (domain.adjust agent).write = domain.adjust agent := by
  rw [FreqDomain.adjust, if_pos unchanged]
  cases domain with
  | mk lastHash lastFreq setting written =>
      cases inForce
      rfl

theorem map_write_adjust {agent : Agent} {domains : List FreqDomain}
    (inForce : ∀ domain ∈ domains, domain.setting = domain.inForce)
    (unchanged : (domains.any fun domain => !domain.lastFreq.eq (agent.freqOf domain.lastHash)) = false) :
    (domains.map (FreqDomain.adjust agent)).map FreqDomain.write = domains.map (FreqDomain.adjust agent) := by
  rw [List.map_map]
  apply List.map_congr_left
  intro domain member
  have same := List.any_eq_false.mp unchanged domain member
  exact write_adjust_unchanged (inForce domain member) (by simpa using same)

/-- The end of `adjust_platform` sets the limits for the new frequency, and
requests a write unless they are in force. -/
theorem adjustUncore_eq (set : leaf.uncoreSetting = leaf.uncoreFor leaf.lastUncoreFreq) :
    ∃ write, leaf.adjustUncore = { leaf with
        uncoreSetting := leaf.uncoreFor leaf.agent.uncoreFreq
        lastUncoreFreq := leaf.agent.uncoreFreq
        doWriteBatch := leaf.doWriteBatch || write } ∧
      (write = false → leaf.uncoreFor leaf.agent.uncoreFreq = leaf.uncoreFor leaf.lastUncoreFreq) := by
  rw [adjustUncore]
  by_cases same : leaf.lastUncoreFreq.eq leaf.agent.uncoreFreq = true
  · have equal := Number.of_eq same
    refine ⟨false, ?_, fun _ => by rw [equal]⟩
    rw [if_pos same, Bool.or_false, ← equal, ← set]
  · rw [if_neg same]
    cases fixed : leaf.agent.uncoreFreq with
    | value freq =>
        refine ⟨true, ?_, fun impossible => by cases impossible⟩
        simp [uncoreFor]
    | nan =>
        cases last : leaf.lastUncoreFreq with
        | value freq =>
            refine ⟨true, ?_, fun impossible => by cases impossible⟩
            simp [uncoreFor]
        | nan =>
            refine ⟨false, ?_, fun _ => rfl⟩
            rw [last] at set
            simp [← set]

/-- What a step leaves depends on the policy and not on the policies before. -/
theorem next_eq (written : leaf.Written) :
    ∃ write, leaf.next policy hashes = { leaf with
      agent := leaf.agent.accept policy
      domains := ((leaf.domains.map (FreqDomain.adjust (leaf.agent.accept policy))).map FreqDomain.write).mapIdx
        fun index domain => { domain with lastHash := hashes index }
      lastUncoreFreq := policy.getD 1 .nan
      uncoreSetting := leaf.uncoreFor (policy.getD 1 .nan)
      uncoreInForce := leaf.uncoreFor (policy.getD 1 .nan)
      defaultFreqHash := leaf.defaultFreqHash ∪ unmapped (mapPairs (policy.drop 2) []) leaf.domains
      doWriteBatch := write } := by
  let adjusted := adjustFreqs { leaf with agent := leaf.agent.accept policy, doWriteBatch := false }
  have start : leaf.next policy hashes = (adjusted.adjustUncore.writeBatch).samplePlatform hashes := by
    rw [← next_adjustOnce, adjustOnce_written written, next, adjustOnce]
    exact congrArg _ (congrArg _ (congrArg _ (congrArg _ (if_pos written.isAdjustInitialized))))
  obtain ⟨write, uncore, kept⟩ := @adjustUncore_eq adjusted written.uncoreSetting
  refine ⟨adjusted.doWriteBatch || write, ?_⟩
  rw [start, uncore, writeBatch]
  cases writes : adjusted.doWriteBatch || write with
  | true => rfl
  | false =>
      obtain ⟨unchanged, still⟩ := Bool.or_eq_false_iff.mp writes
      have domains := map_write_adjust written.domains unchanged
      have inForce : adjusted.uncoreInForce = adjusted.uncoreFor adjusted.agent.uncoreFreq :=
        written.uncoreInForce.trans (kept still).symm
      rw [domains, if_neg Bool.false_ne_true, inForce]
      rfl

theorem written_next (ready : leaf.adjustOnce.Written) : (leaf.next policy hashes).Written := by
  rw [← next_adjustOnce]
  obtain ⟨write, stepped⟩ := @next_eq _ policy hashes ready
  rw [stepped]
  refine ⟨ready.isAdjustInitialized, ?_, rfl, rfl⟩
  intro domain member
  obtain ⟨index, inside, rfl⟩ := List.mem_mapIdx.mp member
  rw [List.getElem_map]
  rfl

theorem written_init {coreFreqMin coreFreqMax : ℚ} {freqs : List Number} {uncore : UncoreLimits} :
    (init coreFreqMin coreFreqMax freqs uncore).adjustOnce.Written where
  isAdjustInitialized := rfl
  domains := by
    intro domain member
    obtain ⟨before, _, rfl⟩ := List.mem_map.mp member
    rfl
  uncoreSetting := rfl
  uncoreInForce := rfl

/-- Two leaves with the same domains and initial limits. -/
def Alike (leaf other : Leaf) : Prop := leaf.domains = other.domains ∧ leaf.uncoreInit = other.uncoreInit

theorem Alike.next {first second : List Number} (alike : leaf.Alike other) (written : leaf.Written)
    (otherWritten : other.Written) (default : first.getD 0 .nan = second.getD 0 .nan)
    (mapped : mapPairs (first.drop 2) [] = mapPairs (second.drop 2) []) :
    (leaf.next first hashes).Alike (other.next second hashes) := by
  obtain ⟨write, stepped⟩ := @next_eq _ first hashes written
  obtain ⟨otherWrite, otherStepped⟩ := @next_eq _ second hashes otherWritten
  have adjusts : FreqDomain.adjust (leaf.agent.accept first) = FreqDomain.adjust (other.agent.accept second) := by
    have frequencies : (leaf.agent.accept first).freqOf = (other.agent.accept second).freqOf := by
      funext hash
      change ((mapPairs (first.drop 2) []).lookup hash).getD (first.getD 0 .nan) = _
      rw [default, mapped]
      rfl
    funext domain
    rw [FreqDomain.adjust, FreqDomain.adjust, frequencies]
  rw [stepped, otherStepped]
  refine ⟨?_, alike.2⟩
  simp only [adjusts, alike.1]

theorem next_lastUncoreFreq (written : leaf.Written) :
    (leaf.next policy hashes).lastUncoreFreq = policy.getD 1 .nan := by
  obtain ⟨write, stepped⟩ := @next_eq _ policy hashes written
  rw [stepped]

theorem next_uncoreInit (written : leaf.Written) : (leaf.next policy hashes).uncoreInit = leaf.uncoreInit := by
  obtain ⟨write, stepped⟩ := @next_eq _ policy hashes written
  rw [stepped]

/-- Two leaves that are alike differ only in their uncore frequencies. -/
theorem applied_eq_iff (alike : leaf.Alike other) (written : leaf.Written) (otherWritten : other.Written) :
    leaf.applied = other.applied ↔
      leaf.uncoreFor leaf.lastUncoreFreq = leaf.uncoreFor other.lastUncoreFreq := by
  have same : other.uncoreFor = leaf.uncoreFor := by
    funext freq
    rw [uncoreFor, uncoreFor, alike.2]
  rw [applied, applied, alike.1, written.uncoreInForce, otherWritten.uncoreInForce, same]
  simp

end Leaf

end FrequencyMap

end Geopm
