import Geopm.PowerGovernor.Average

namespace Geopm

/-! What the leaves report: the median of what they have read last, and whether it meets a budget that they were given. -/

namespace PowerGovernor

open History (readable)

variable {job : Job} {bound : ℚ} {rank level : Nat} {past : List Number}

/-- Every node makes no more of the policy than the bound. The default is the power at which a package is sold. -/
def Fits (job : Job) (bound : ℚ) : Number → Prop
  | .nan => ∀ rank, (job.settings rank).powerTdp ≤ bound
  | .value power => power ≤ bound

/-- A sample of a leaf that has read these powers. -/
structure Measures (bound : ℚ) (past : List Number) (sample : Sample) : Prop where
  median : ∃ window, window.length = 16 ∧ window <:+: past ∧ sample.power = Agg.median window
  power : ∃ power, sample.power = .value power ∧
    (sample.isConverged = .value 0 ∨ sample.isConverged = .value 1 ∧ power ≤ bound)
  enforced : ∃ enforced, sample.powerEnforced = .value enforced

theorem Measures.mono {more : List Number} {sample : Sample} (measures : Measures bound past sample) :
    Measures bound (past ++ more) sample where
  median := by
    obtain ⟨window, size, within, same⟩ := measures.median
    exact ⟨window, size, within.trans (List.infix_append' [] past more), same⟩
  power := measures.power
  enforced := measures.enforced

/-- A leaf that has read these powers. -/
structure Leaf (bound : ℚ) (past : List Number) (agent : LevelAgent) : Prop where
  maxSize : agent.base.epochPowerBuf.maxSize = 16
  minNumConverged : agent.base.minNumConverged = 15
  window : agent.base.epochPowerBuf.entries = past.rtake 16
  numbers : ∀ number ∈ past, number.isNan = false
  budget : ∀ budget, agent.base.lastPowerBudget = .value budget → budget ≤ bound
  enforced : ∃ enforced, agent.base.adjustedPower = .value enforced

theorem leaf_new {settings : PowerSettings} {powerGov : PowerGovernor} : Leaf bound [] (.new settings powerGov) where
  maxSize := rfl
  minNumConverged := rfl
  window := rfl
  numbers _ member := absurd member List.not_mem_nil
  budget _ none := by cases none
  enforced := ⟨0, rfl⟩

theorem validatePolicy_fits {policy : Number} (agent : LevelAgent) (fits : Fits job bound policy)
    (tdp : ∃ rank, agent.settings = job.settings rank) (low : ∀ rank, (job.settings rank).minPkgPowerSetting ≤ bound) :
    ∃ power, agent.validatePolicy policy = .value power ∧ power ≤ bound := by
  obtain ⟨rank, settings⟩ := tdp
  have low := low rank
  rw [LevelAgent.validatePolicy, settings]
  have within : ∀ power ≤ bound, ∃ final,
      (if (Number.value power).lt (.value (job.settings rank).minPkgPowerSetting) then
        .value (job.settings rank).minPkgPowerSetting
      else if (Number.value (job.settings rank).maxPkgPowerSetting).lt (.value power) then
        .value (job.settings rank).maxPkgPowerSetting
      else .value power) = Number.value final ∧ final ≤ bound := by
    intro power most
    simp only [Number.lt_value, decide_eq_true_eq]
    split
    · exact ⟨_, rfl, low⟩
    · split
      · next above => exact ⟨_, rfl, above.le.trans most⟩
      · exact ⟨_, rfl, most⟩
  cases policy with
  | nan => exact within _ (fits rank)
  | value power =>
      simp only [Number.isNan_value, Bool.false_eq_true, if_false]
      exact within power fits

/-- The governor enforces a number. -/
theorem adjustPlatform_enforced {governor : PowerGovernor} {request actual : ℚ} :
    ∃ enforced, (governor.adjustPlatform (.value request) (.value actual)).2 = .value enforced := by
  have target : ∃ target, (if (Number.value request / .value governor.numPkg).lt governor.minPkgPowerPolicy then
        governor.minPkgPowerPolicy
      else if governor.maxPkgPowerPolicy.lt (.value request / .value governor.numPkg) then governor.maxPkgPowerPolicy
      else .value request / .value governor.numPkg) = Number.value target := by
    split
    · next below =>
        cases lowest : governor.minPkgPowerPolicy with
        | nan => simp [lowest] at below
        | value least => exact ⟨least, rfl⟩
    · split
      · next above =>
          cases highest : governor.maxPkgPowerPolicy with
          | nan => simp [highest] at above
          | value most => exact ⟨most, rfl⟩
      · exact ⟨_, rfl⟩
  obtain ⟨target, same⟩ := target
  rw [PowerGovernor.adjustPlatform, if_neg (by simp)]
  simp only [same]
  split
  · exact ⟨actual, rfl⟩
  · exact ⟨_, rfl⟩

theorem Leaf.adjustPlatform {agent : LevelAgent} {power : ℚ} (leaf : Leaf bound past agent) (most : power ≤ bound) :
    Leaf bound past (agent.adjustPlatform (.value power)) where
  maxSize := leaf.maxSize
  minNumConverged := leaf.minNumConverged
  window := leaf.window
  numbers := leaf.numbers
  budget budget same := by
    cases same
    exact most
  enforced := by
    obtain ⟨enforced, before⟩ := leaf.enforced
    rw [LevelAgent.adjustPlatform, Agent.adjustPlatform, before]
    exact adjustPlatform_enforced

/-- The median of numbers is one. -/
theorem median_value {window : List Number} (some : window ≠ []) (numbers : ∀ number ∈ window, number.isNan = false) :
    ∃ median, Agg.median window = .value median := by
  have counts : (Number.rationals window).length = window.length := by
    rw [Number.rationals, List.length_filterMap_eq_countP, List.countP_eq_length]
    intro number member
    cases number with
    | nan => cases numbers .nan member
    | value rational => rfl
  have inside : ((Number.rationals window).insertionSort (· ≤ ·)).length / 2 <
      ((Number.rationals window).insertionSort (· ≤ ·)).length := by
    rw [List.length_insertionSort, counts]
    have positive := List.length_pos_of_ne_nil some
    omega
  rw [Agg.median]
  simp only [List.getElem?_eq_getElem inside]
  split
  · exact ⟨_, rfl⟩
  · exact ⟨_, rfl⟩

/-- Whether a median meets a budget. -/
theorem isConverged_cases {median : ℚ} {budget : Number} (most : ∀ power, budget = .value power → power ≤ bound) :
    isConverged (.value median) budget = .value 0 ∨ isConverged (.value median) budget = .value 1 ∧ median ≤ bound := by
  rw [isConverged]
  cases budget with
  | nan => exact .inl rfl
  | value budget =>
      simp only [Number.lt_value, Number.eq_value, Bool.or_eq_true, decide_eq_true_eq]
      split
      · next met => exact .inr ⟨rfl, (le_of_lt_or_eq met).trans (most budget rfl)⟩
      · exact .inl rfl

/-- A power that is read, and what is sent then. -/
theorem Leaf.samplePlatform {agent : LevelAgent} {pkgPower : Number} {outSample : Sample} (leaf : Leaf bound past agent) :
    ∃ sample after, agent.samplePlatform pkgPower outSample = .ok (sample, after) ∧
      after.settings = agent.settings ∧ Leaf bound (past ++ readable pkgPower) after ∧
      (after.base.doSendSample = true → Measures bound (past ++ readable pkgPower) sample) := by
  have invariant : (⟨agent.base, outSample, [], past⟩ : History).Invariant :=
    ⟨leaf.maxSize, leaf.minNumConverged, leaf.window⟩
  obtain ⟨window, inserted, sized, entries⟩ := @History.Invariant.insert _ pkgPower invariant
  have entries : window.entries = (past ++ readable pkgPower).rtake 16 := entries
  have numbers : ∀ number ∈ past ++ readable pkgPower, number.isNan = false := by
    rw [List.forall_mem_append]
    refine ⟨leaf.numbers, ?_⟩
    cases missing : pkgPower.isNan with
    | true => simp [readable, missing]
    | false => simp [readable, missing]
  have inserted : agent.base.insertPower pkgPower = .ok window := inserted
  rw [LevelAgent.samplePlatform, Agent.samplePlatform, inserted]
  simp only [bind, Except.bind, leaf.minNumConverged, pure, Except.pure]
  by_cases full : 15 < window.size
  · rw [if_pos full]
    have length : window.entries.length = 16 := Nat.le_antisymm (sized ▸ window.bounded) full
    have suffix : window.entries <:+ past ++ readable pkgPower := entries ▸ List.drop_suffix _ _
    obtain ⟨median, same⟩ := median_value (List.ne_nil_of_length_pos (by omega))
      fun number member => numbers number (suffix.subset member)
    refine ⟨_, _, rfl, rfl, ⟨sized, rfl, entries, numbers, leaf.budget, leaf.enforced⟩, fun _ => ?_⟩
    exact ⟨⟨window.entries, length, suffix.isInfix, rfl⟩, ⟨median, same, by simpa only [same] using isConverged_cases leaf.budget⟩,
      leaf.enforced⟩
  · rw [if_neg full]
    exact ⟨_, _, rfl, rfl, ⟨sized, rfl, entries, numbers, leaf.budget, leaf.enforced⟩, fun sends => by cases sends⟩

end PowerGovernor

end Geopm
