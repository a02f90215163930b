import Geopm.EnergyEfficient.Forwarding
import Geopm.EnergyEfficient.Region
import Geopm.FrequencyMapLeaf
import Geopm.Library.Assoc
import Geopm.Library.Outcome

namespace Geopm

/-! `EnergyEfficientAgent` of level 0: the regions that it learns of. -/

namespace EnergyEfficient

/-- `m_region_info_s`. -/
structure RegionInfo where
  hash : Nat
  runtime : Number
  count : Nat
deriving Repr, DecidableEq

/-- What is sampled for a frequency domain. -/
structure RegionSample where
  hash : ℚ
  runtime : Number
  count : ℚ
deriving Repr, DecidableEq

/-- The conversion of the samples to `uint64_t`. -/
def RegionSample.info (sample : RegionSample) : RegionInfo :=
  ⟨(truncate sample.hash).toNat % 2 ^ 64, sample.runtime, (truncate sample.count).toNat % 2 ^ 64⟩

inductive LeafError where
  /-- "unknown target frequency hash = " -/
  | unknownTarget (hash : Nat)
  /-- "region 0x... exit before entry detected." -/
  | exitBeforeEntry (hash : Nat)
  | governor (reason : GovernorError)
deriving Repr, DecidableEq

/-- The vectors of the agent at the index of a frequency domain. -/
structure Domain where
  lastRegionInfo : RegionInfo
  targetFreq : ℚ
  regionMap : List (Nat × Region)

namespace Domain

/-- The entry of a region. -/
def enter (noLearningHash : Finset Nat) (fresh : Region) (hash : Nat) (domain : Domain) : Domain :=
  if hash ∈ noLearningHash then domain
  else match Assoc.lookup hash domain.regionMap with
    | some _ => domain
    | none => { domain with regionMap := Assoc.assign hash fresh domain.regionMap }

/-- The exit of the last region. Higher is better for performance, so its runtime is negated. -/
def exit (noLearningHash : Finset Nat) (domain : Domain) : Except LeafError Domain :=
  let last := domain.lastRegionInfo
  if last.hash ∈ noLearningHash then .ok domain
  else match Assoc.lookup last.hash domain.regionMap with
    | none => .error (.exitBeforeEntry last.hash)
    | some _ => .ok { domain with
        regionMap := Assoc.adjust last.hash (Region.updateExit · (.value (-1) * last.runtime)) domain.regionMap }

/-- The loop of `sample_platform` for one domain. -/
def sample (noLearningHash : Finset Nat) (fresh : Region) (current : RegionInfo) (domain : Domain) :
    Except LeafError Domain :=
  if domain.lastRegionInfo.hash ≠ current.hash ∨ domain.lastRegionInfo.count ≠ current.count then do
    let left ← (domain.enter noLearningHash fresh current.hash).exit noLearningHash
    .ok { left with lastRegionInfo := current }
  else .ok domain

/-- The loop of `adjust_platform` for one domain. -/
def aim (freqMin freqMax : ℚ) (lowFreqHash : Finset Nat) (domain : Domain) : Except LeafError Domain :=
  let hash := domain.lastRegionInfo.hash
  if FrequencyMap.regionHashUnmarked = hash then .ok { domain with targetFreq := freqMax }
  else if hash ∈ lowFreqHash then .ok { domain with targetFreq := freqMin }
  else match Assoc.lookup hash domain.regionMap with
    | some region => .ok { domain with targetFreq := region.freq }
    | none => .error (.unknownTarget hash)

end Domain

structure Leaf where
  agent : Agent
  /-- `get_frequency_step` of the governor -/
  freqStep : ℚ
  domains : List Domain
  lowFreqHash : Finset Nat

namespace Leaf

inductive Call where
  | samplePlatform (samples : Nat → RegionSample)
  | adjustPlatform (inPolicy : Policy)

/-- The constructor and `init`, with the hashes of the network functions. -/
def init (agent : Agent) (freqStep : ℚ) (regionMap : List (Nat × Region)) (regionHashNetwork : Finset Nat) : Leaf where
  agent
  freqStep
  domains := agent.freqGovernor.controls.map fun _ =>
    ⟨⟨FrequencyMap.regionHashUnmarked, .value 0, 0⟩, agent.freqGovernor.freqMax, regionMap⟩
  lowFreqHash := regionHashNetwork

/-- `m_no_learning_hash`. -/
def noLearningHash (leaf : Leaf) : Finset Nat := insert FrequencyMap.regionHashUnmarked leaf.lowFreqHash

/-- A region that was not met before. -/
def freshRegion (leaf : Leaf) : Region :=
  .new leaf.agent.freqGovernor.freqMin leaf.agent.freqGovernor.freqMax leaf.freqStep leaf.agent.perfMargin

/-- `sample_platform`. -/
def samplePlatform (leaf : Leaf) (samples : Nat → RegionSample) : Except LeafError Leaf := do
  let domains ← leaf.domains.zipIdx.mapM fun indexed =>
    indexed.1.sample leaf.noLearningHash leaf.freshRegion (samples indexed.2).info
  .ok { leaf with domains }

/-- `adjust_platform`. -/
def adjustPlatform (leaf : Leaf) (inPolicy : Policy) : Except LeafError Leaf :=
  match leaf.agent.updatePolicy inPolicy with
  | (.error reason, _) => .error (.governor reason)
  | (.ok _, agent) => do
      let domains ← leaf.domains.mapM
        (Domain.aim agent.freqGovernor.freqMin agent.freqGovernor.freqMax leaf.lowFreqHash)
      match agent.freqGovernor.adjustPlatform (domains.map Domain.targetFreq) with
      | .error reason => .error (.governor reason)
      | .ok freqGovernor => .ok { leaf with agent := { agent with freqGovernor }, domains }

/-- A call, after which the controller writes what is to be written. -/
def step (leaf : Leaf) : Call → Except LeafError Leaf
  | .samplePlatform samples => leaf.samplePlatform samples
  | .adjustPlatform inPolicy => do
      let adjusted ← leaf.adjustPlatform inPolicy
      .ok { adjusted with agent := { adjusted.agent with freqGovernor := adjusted.agent.freqGovernor.writeBatch } }

/-- Calls, up to one that throws, which ends the controller. -/
def run (leaf : Leaf) (calls : List Call) : Except LeafError Leaf := calls.foldlM step leaf

end Leaf

/-- The errors of the governor alone. -/
def LeafError.IsGovernor : LeafError → Prop
  | .governor _ => True
  | _ => False

namespace Domain

variable {domain : Domain} {noLearningHash lowFreqHash : Finset Nat} {fresh : Region} {current : RegionInfo} {hash : Nat}
  {freqMin freqMax : ℚ}

/-- A region that the agent need not know, or does know. -/
def Knows (noLearningHash : Finset Nat) (domain : Domain) (hash : Nat) : Prop :=
  hash ∈ noLearningHash ∨ (Assoc.lookup hash domain.regionMap).isSome

/-- The last region is known. -/
def Tracked (noLearningHash : Finset Nat) (domain : Domain) : Prop :=
  domain.Knows noLearningHash domain.lastRegionInfo.hash

/-- The entry of a region loses no other one. -/
theorem Knows.enter {other : Nat} (known : domain.Knows noLearningHash hash) :
    (domain.enter noLearningHash fresh other).Knows noLearningHash hash := by
  rw [Domain.enter]
  split
  · exact known
  · cases found : Assoc.lookup other domain.regionMap with
    | some region => exact known
    | none =>
        by_cases same : hash = other
        case pos =>
            rw [same]
            exact .inr (by rw [Assoc.lookup_assign]; rfl)
        case neg =>
            rw [Knows, Assoc.lookup_assign_ne same]
            exact known

/-- After its entry a region is known. -/
theorem knows_enter : (domain.enter noLearningHash fresh hash).Knows noLearningHash hash := by
  rw [Domain.enter]
  split
  · next ignored => exact .inl ignored
  · cases found : Assoc.lookup hash domain.regionMap with
    | some region => exact .inr (by rw [found]; rfl)
    | none => exact .inr (by rw [Assoc.lookup_assign]; rfl)

@[simp] theorem enter_lastRegionInfo :
    (domain.enter noLearningHash fresh hash).lastRegionInfo = domain.lastRegionInfo := by
  rw [Domain.enter]
  split
  · rfl
  · split <;> rfl

/-- The exit of a region that is known succeeds, and loses no region. -/
theorem Tracked.exit (tracked : domain.Tracked noLearningHash) :
    ∃ left, domain.exit noLearningHash = .ok left ∧
      ∀ hash, domain.Knows noLearningHash hash → left.Knows noLearningHash hash := by
  rw [Domain.exit]
  by_cases ignored : domain.lastRegionInfo.hash ∈ noLearningHash
  case pos => exact ⟨domain, if_pos ignored, fun _ known => known⟩
  case neg =>
      obtain ⟨region, found⟩ := Option.isSome_iff_exists.mp (tracked.resolve_left ignored)
      simp only [ignored, if_false, found]
      refine ⟨_, rfl, fun hash known => known.imp_right fun listed => ?_⟩
      rw [Assoc.lookup_adjust]
      split
      · rwa [Option.isSome_map]
      · exact listed

/-- A sample succeeds, and the region that was sampled is known. -/
theorem Tracked.sample (tracked : domain.Tracked noLearningHash) :
    Outcome.Keeps LeafError.IsGovernor (Tracked noLearningHash) (domain.sample noLearningHash fresh current) := by
  rw [Domain.sample]
  split
  · have entered : (domain.enter noLearningHash fresh current.hash).Tracked noLearningHash := by
      rw [Tracked, enter_lastRegionInfo]
      exact Knows.enter tracked
    obtain ⟨left, exited, keeps⟩ := entered.exit
    rw [exited]
    exact keeps current.hash knows_enter
  · exact tracked

/-- There is a target frequency for a region that is known. -/
theorem Tracked.aim (tracked : domain.Tracked (insert FrequencyMap.regionHashUnmarked lowFreqHash)) :
    Outcome.Keeps LeafError.IsGovernor (Tracked (insert FrequencyMap.regionHashUnmarked lowFreqHash))
      (domain.aim freqMin freqMax lowFreqHash) := by
  rw [Domain.aim]
  by_cases unmarked : FrequencyMap.regionHashUnmarked = domain.lastRegionInfo.hash
  case pos =>
      simp only [unmarked, if_true]
      exact unmarked ▸ tracked
  case neg =>
      by_cases low : domain.lastRegionInfo.hash ∈ lowFreqHash
      case pos =>
          simp only [unmarked, low, if_true, if_false]
          exact tracked
      case neg =>
          have ignored : domain.lastRegionInfo.hash ∉ insert FrequencyMap.regionHashUnmarked lowFreqHash := by
            rw [Finset.mem_insert, not_or]
            exact ⟨Ne.symm unmarked, low⟩
          obtain ⟨region, found⟩ := Option.isSome_iff_exists.mp (tracked.resolve_left ignored)
          simp only [unmarked, low, if_false, found]
          exact tracked

end Domain

namespace Leaf

variable {leaf : Leaf} {calls : List Call} {call : Call}

/-- In each domain the last region is known. -/
def Tracked (leaf : Leaf) : Prop := ∀ domain ∈ leaf.domains, domain.Tracked leaf.noLearningHash

theorem tracked_init {agent : Agent} {freqStep : ℚ} {regionMap : List (Nat × Region)} {regionHashNetwork : Finset Nat} :
    (init agent freqStep regionMap regionHashNetwork).Tracked := by
  intro domain member
  obtain ⟨_, _, rfl⟩ := List.mem_map.mp member
  exact .inl (Finset.mem_insert_self _ _)

theorem Tracked.samplePlatform {samples : Nat → RegionSample} (tracked : leaf.Tracked) :
    Outcome.Keeps LeafError.IsGovernor Tracked (leaf.samplePlatform samples) := by
  have each (indexed : Domain × Nat) (member : indexed ∈ leaf.domains.zipIdx) :
      Outcome.Keeps LeafError.IsGovernor (Domain.Tracked leaf.noLearningHash)
        (indexed.1.sample leaf.noLearningHash leaf.freshRegion (samples indexed.2).info) :=
    (tracked indexed.1 (List.fst_mem_of_mem_zipIdx member)).sample
  exact (Outcome.keeps_mapM each).bind fun _ known => known

theorem Tracked.adjustPlatform {inPolicy : Policy} (tracked : leaf.Tracked) :
    Outcome.Keeps LeafError.IsGovernor Tracked (leaf.adjustPlatform inPolicy) := by
  rw [Leaf.adjustPlatform]
  split
  · exact trivial
  · next agent _ =>
      have aimed := Outcome.keeps_mapM (fun domain (member : domain ∈ leaf.domains) =>
        @Domain.Tracked.aim domain leaf.lowFreqHash agent.freqGovernor.freqMin agent.freqGovernor.freqMax
          (tracked domain member))
      refine aimed.bind fun domains known => ?_
      split
      · exact trivial
      · exact known

theorem Tracked.step (tracked : leaf.Tracked) : Outcome.Keeps LeafError.IsGovernor Tracked (leaf.step call) := by
  cases call with
  | samplePlatform samples => exact tracked.samplePlatform
  | adjustPlatform inPolicy => exact tracked.adjustPlatform.bind fun _ known => known

/-- Whatever is called in whichever order, no region is lost: a call throws only what the governor does. -/
theorem run_keeps_regions (agent : Agent) (freqStep : ℚ) (regionMap : List (Nat × Region)) (regionHashNetwork : Finset Nat)
    (calls : List Call) (hash : Nat) :
    (init agent freqStep regionMap regionHashNetwork).run calls ≠ .error (.exitBeforeEntry hash) ∧
      (init agent freqStep regionMap regionHashNetwork).run calls ≠ .error (.unknownTarget hash) := by
  have keeps : Outcome.Keeps LeafError.IsGovernor Tracked
      ((init agent freqStep regionMap regionHashNetwork).run calls) :=
    Outcome.keeps_foldlM (fun _ _ tracked => tracked.step) tracked_init
  constructor
  · intro failed
    rw [failed] at keeps
    exact keeps
  · intro failed
    rw [failed] at keeps
    exact keeps

end Leaf

end EnergyEfficient

end Geopm
