import Geopm.Balancer.MeasureRuntime
import Mathlib.Tactic.Linarith

namespace Geopm

/-! The caps that a leaf derives from a policy, and the limits of its packages. -/

/-- The limits of a package are positive and in order, and so is the design power. -/
structure PowerSettings.Ordered (settings : PowerSettings) : Prop where
  positive : 0 < settings.minPkgPowerSetting
  ordered : settings.minPkgPowerSetting ≤ settings.maxPkgPowerSetting
  design : 0 < settings.powerTdp

/-- What `clamp` does with a limit that is a number and not zero. -/
def PowerSettings.clampPkg (settings : PowerSettings) (limit : ℚ) : ℚ :=
  if limit < settings.minPkgPowerSetting then settings.minPkgPowerSetting
  else if settings.maxPkgPowerSetting < limit then settings.maxPkgPowerSetting
  else limit

/-- Totals that stay within the limits of a number of packages. -/
def PowerSettings.Fits (settings : PowerSettings) (numDomain : ℚ) : Number → Prop
  | .nan => numDomain = 1 ∨
      numDomain * settings.minPkgPowerSetting ≤ settings.maxPkgPowerSetting ∧
        numDomain * settings.minPkgPowerSetting ≤ settings.powerTdp
  | .value total => total = 0 ∨ numDomain = 1 ∨
      numDomain * settings.minPkgPowerSetting ≤ settings.maxPkgPowerSetting ∧
        numDomain * settings.minPkgPowerSetting ≤ total ∧
        (total ≤ settings.maxPkgPowerSetting ∨ numDomain * settings.maxPkgPowerSetting < total)

namespace LeafRole

/-- A total within the limits of all packages is kept. -/
def KeepsTotal (settings : PowerSettings) (role : LeafRole) (policy : Policy) : Prop :=
  ∀ total, policy.powerPackageLimitTotal = .value total →
    role.packages.length * settings.minPkgPowerSetting ≤ total →
    total ≤ role.packages.length * settings.maxPkgPowerSetting →
      ∃ valid, policy.validate settings = .ok valid ∧ valid.powerPackageLimitTotal = .value total

/-- The caps that a total other than zero leads to are within the limits of a package. -/
def CapsWithin (settings : PowerSettings) (isSingleNode : Bool) (numNode : Nat) (role : LeafRole)
    (policy : Policy) (clock : Nat → ℚ) : Prop :=
  policy.powerPackageLimitTotal ≠ .value 0 → ∃ valid adjusts next,
    policy.validate settings = .ok valid ∧
    role.adjustPlatform settings isSingleNode numNode valid clock = .ok (adjusts, next) ∧
    ∀ package ∈ next.packages, ∃ cap, package.powerBalancer.powerCap = .value cap ∧
      settings.minPkgPowerSetting ≤ cap ∧ cap ≤ settings.maxPkgPowerSetting

variable {settings : PowerSettings} {isSingleNode : Bool} {numNode : Nat} {role : LeafRole}
  {policy : Policy} {clock : Nat → ℚ} {total : ℚ}

theorem clampPkg_within (ordered : settings.Ordered) :
    settings.minPkgPowerSetting ≤ settings.clampPkg total ∧
      settings.clampPkg total ≤ settings.maxPkgPowerSetting := by
  have order := ordered.ordered
  rw [PowerSettings.clampPkg]
  split
  · exact ⟨le_refl _, order⟩
  · next low =>
      split
      · exact ⟨order, le_refl _⟩
      · next high => exact ⟨not_lt.mp low, not_lt.mp high⟩

theorem clamp_value (other : total ≠ 0) :
    Policy.clamp settings (.value total) = .value (settings.clampPkg total) := by
  simp only [Policy.clamp, PowerSettings.clampPkg, Number.eq_value, Number.lt_value, decide_eq_true_eq,
    if_neg other]
  split_ifs <;> rfl

/-- A policy with a total other than zero is valid. -/
theorem validate_total (ordered : settings.Ordered) (other : total ≠ 0)
    (filled : (policy.withDefaults settings).powerPackageLimitTotal = .value total) :
    ∃ valid, policy.validate settings = .ok valid ∧
      valid.powerPackageLimitTotal = .value (settings.clampPkg total) := by
  have positive : settings.clampPkg total ≠ 0 :=
    (lt_of_lt_of_le ordered.positive (clampPkg_within ordered).1).ne'
  refine ⟨{ policy.withDefaults settings with
    powerPackageLimitTotal := .value (settings.clampPkg total) }, ?_, rfl⟩
  simp only [Policy.validate, filled, clamp_value other]
  rw [if_neg]
  simp [Policy.isZero, positive]

theorem requestLimit_powerCap {package : Package} {now : ℚ} :
    (package.requestLimit settings now).2.powerBalancer.powerCap = package.powerBalancer.powerCap := by
  simp only [Package.requestLimit, PowerBalancer.powerLimitAdjusted]
  split_ifs <;> rfl

/-- A leaf that takes a total other than zero gives each package the same part of it. -/
theorem adjustPlatform_caps (takes : isSingleNode = false ∨ role.isFirstPolicy = true)
    {inPolicy : Policy} (other : total ≠ 0) (given : inPolicy.powerPackageLimitTotal = .value total) :
    ∃ adjusts next, role.adjustPlatform settings isSingleNode numNode inPolicy clock = .ok (adjusts, next) ∧
      next.packages.length = role.packages.length ∧
      ∀ package ∈ next.packages, package.powerBalancer.powerCap = .value (total / role.packages.length) := by
  let received := if isSingleNode then role.updatePolicy numNode inPolicy else { role with policy := inPolicy }
  have taken : received.policy = inPolicy ∧ received.packages = role.packages := by
    cases takes with
    | inl several =>
        subst several
        exact ⟨rfl, rfl⟩
    | inr first =>
        have updated : role.updatePolicy numNode inPolicy =
            { role with policy := inPolicy, isFirstPolicy := false } := by
          rw [updatePolicy, if_pos first]
        cases isSingleNode with
        | false => exact ⟨rfl, rfl⟩
        | true =>
            change (role.updatePolicy numNode inPolicy).policy = _ ∧ (role.updatePolicy numNode inPolicy).packages = _
            rw [updated]
            exact ⟨rfl, rfl⟩
  have resets : received.takePolicy settings = .ok received.resetCaps := by
    rw [takePolicy, taken.1, given]
    exact if_pos (by simp [other])
  let requests := received.resetCaps.packages.mapIdx fun index package =>
    package.requestLimit settings (clock index)
  refine ⟨requests.any Prod.fst, { received.resetCaps with packages := requests.map Prod.snd }, ?_, ?_, ?_⟩
  · rw [adjustPlatform]
    change Except.bind (received.takePolicy settings) _ = _
    rw [resets]
    rfl
  · simp [requests, resetCaps, taken.2]
  · intro package member
    obtain ⟨request, requested, rfl⟩ := List.mem_map.mp member
    obtain ⟨index, inside, rfl⟩ := List.mem_mapIdx.mp requested
    rw [requestLimit_powerCap]
    have reset := List.getElem_mem inside
    obtain ⟨before, _, same⟩ := List.mem_map.mp reset
    rw [← same]
    change received.policy.powerPackageLimitTotal / received.numDomain = _
    rw [taken.1, given, numDomain, taken.2]
    rfl

/-- The part of a package in a clamped total is within its limits if the total is large enough. -/
theorem part_within_iff (ordered : settings.Ordered) {count : ℚ} (whole : count = 1 ∨ 2 ≤ count) :
    (settings.minPkgPowerSetting ≤ settings.clampPkg total / count ∧
        settings.clampPkg total / count ≤ settings.maxPkgPowerSetting) ↔
      count = 1 ∨ count * settings.minPkgPowerSetting ≤ settings.maxPkgPowerSetting ∧
        count * settings.minPkgPowerSetting ≤ total := by
  have positive := ordered.positive
  have order := ordered.ordered
  obtain ⟨low, high⟩ := @clampPkg_within settings total ordered
  cases whole with
  | inl one =>
      subst one
      rw [div_one]
      exact iff_of_true ⟨low, high⟩ (.inl rfl)
  | inr several =>
      have large : (0 : ℚ) < count := by linarith
      have most : settings.clampPkg total / count ≤ settings.maxPkgPowerSetting := by
        rw [div_le_iff₀ large]
        nlinarith
      have least : settings.minPkgPowerSetting < count * settings.minPkgPowerSetting := by nlinarith
      rw [le_div_iff₀ large, mul_comm, and_iff_left most, PowerSettings.clampPkg]
      have other : count ≠ 1 := by linarith
      simp only [other, false_or]
      split
      · next below => exact iff_of_false (by linarith) (fun both => by linarith [both.2])
      · split
        · next above => exact ⟨fun fits => ⟨fits, by linarith⟩, fun both => both.1⟩
        · next inside => exact ⟨fun fits => ⟨by linarith [not_lt.mp inside], fits⟩, fun both => both.2⟩

theorem count_whole (some : role.packages ≠ []) :
    (role.packages.length : ℚ) = 1 ∨ 2 ≤ (role.packages.length : ℚ) := by
  have positive := List.length_pos_iff.mpr some
  by_cases one : role.packages.length = 1
  · exact .inl (by rw [one, Nat.cast_one])
  · exact .inr (by exact_mod_cast (show 2 ≤ role.packages.length by omega))

/-- A total within the limits of all packages is kept unless it is more than one package may have. -/
theorem keepsTotal_iff (ordered : settings.Ordered) (some : role.packages ≠ [])
    (given : policy.powerPackageLimitTotal = .value total) :
    role.KeepsTotal settings policy ↔
      (role.packages.length * settings.minPkgPowerSetting ≤ total →
        total ≤ role.packages.length * settings.maxPkgPowerSetting → total ≤ settings.maxPkgPowerSetting) := by
  have positive := ordered.positive
  have whole := @count_whole role some
  have filled : (policy.withDefaults settings).powerPackageLimitTotal = .value total := by
    simp [Policy.withDefaults, given]
  have enough (low : role.packages.length * settings.minPkgPowerSetting ≤ total) :
      settings.minPkgPowerSetting ≤ total := by
    cases whole with
    | inl one => rwa [one, one_mul] at low
    | inr several => nlinarith
  constructor
  · intro keeps low high
    obtain ⟨valid, validated, kept⟩ := keeps total given low high
    have other : total ≠ 0 := (lt_of_lt_of_le positive (enough low)).ne'
    obtain ⟨other, again, clamped⟩ := validate_total ordered other filled
    cases validated.symm.trans again
    rw [← Number.value.inj (clamped.symm.trans kept)]
    exact (clampPkg_within ordered).2
  · intro within same given' low high
    cases given.symm.trans given'
    have other : total ≠ 0 := (lt_of_lt_of_le positive (enough low)).ne'
    obtain ⟨valid, validated, clamped⟩ := validate_total ordered other filled
    refine ⟨valid, validated, clamped.trans ?_⟩
    rw [PowerSettings.clampPkg, if_neg (not_lt.mpr (enough low)), if_neg (not_lt.mpr (within low high))]

theorem capsWithin_iff (ordered : settings.Ordered) (some : role.packages ≠ [])
    (takes : isSingleNode = false ∨ role.isFirstPolicy = true) (other : total ≠ 0)
    (nonzero : policy.powerPackageLimitTotal ≠ .value 0)
    (filled : (policy.withDefaults settings).powerPackageLimitTotal = .value total) :
    role.CapsWithin settings isSingleNode numNode policy clock ↔
      (role.packages.length : ℚ) = 1 ∨
        role.packages.length * settings.minPkgPowerSetting ≤ settings.maxPkgPowerSetting ∧
          role.packages.length * settings.minPkgPowerSetting ≤ total := by
  obtain ⟨valid, validated, clamped⟩ := validate_total ordered other filled
  have positive : settings.clampPkg total ≠ 0 :=
    (lt_of_lt_of_le ordered.positive (clampPkg_within ordered).1).ne'
  obtain ⟨adjusts, next, adjusted, length, caps⟩ :=
    @adjustPlatform_caps settings isSingleNode numNode role clock _ takes valid positive clamped
  rw [← part_within_iff ordered (count_whole some)]
  constructor
  · intro within
    obtain ⟨_, _, _, again, adjustedAgain, each⟩ := within nonzero
    cases validated.symm.trans again
    cases adjusted.symm.trans adjustedAgain
    obtain ⟨package, member⟩ := List.exists_mem_of_ne_nil next.packages (by
      intro empty
      rw [empty] at length
      exact some (List.length_eq_zero_iff.mp length.symm))
    obtain ⟨cap, has, low, high⟩ := each package member
    cases (caps package member).symm.trans has
    exact ⟨low, high⟩
  · rintro ⟨low, high⟩ _
    exact ⟨valid, adjusts, next, validated, adjusted, fun package member =>
      ⟨_, caps package member, low, high⟩⟩

/-- A policy keeps the limits of the packages exactly if its total fits them. -/
theorem policy_limits_iff (ordered : settings.Ordered) (some : role.packages ≠ [])
    (takes : isSingleNode = false ∨ role.isFirstPolicy = true) :
    role.KeepsTotal settings policy ∧ role.CapsWithin settings isSingleNode numNode policy clock ↔
      settings.Fits role.packages.length policy.powerPackageLimitTotal := by
  cases given : policy.powerPackageLimitTotal with
  | nan =>
      have keeps : role.KeepsTotal settings policy := fun total same => by
        rw [given] at same
        cases same
      have filled : (policy.withDefaults settings).powerPackageLimitTotal = .value settings.powerTdp := by
        simp [Policy.withDefaults, given]
      rw [and_iff_right keeps]
      exact capsWithin_iff ordered some takes ordered.design.ne' (by simp [given]) filled
  | value total =>
      by_cases zero : total = 0
      · subst zero
        have length : 0 < (role.packages.length : ℚ) := by
          exact_mod_cast List.length_pos_iff.mpr some
        have keeps := (keepsTotal_iff ordered some given).mpr fun low _ => by
          have positive := mul_pos length ordered.positive
          linarith
        exact iff_of_true ⟨keeps, fun nonzero => absurd given nonzero⟩ (.inl rfl)
      · have filled : (policy.withDefaults settings).powerPackageLimitTotal = .value total := by
          simp [Policy.withDefaults, given]
        rw [keepsTotal_iff ordered some given,
          capsWithin_iff ordered some takes zero (by simpa [given] using zero) filled,
          PowerSettings.Fits, or_iff_right zero]
        constructor
        · rintro ⟨kept, one | ⟨few, low⟩⟩
          · exact .inl one
          · refine .inr ⟨few, low, ?_⟩
            by_cases high : total ≤ role.packages.length * settings.maxPkgPowerSetting
            · exact .inl (kept low high)
            · exact .inr (not_le.mp high)
        · rintro (one | ⟨few, low, within⟩)
          · exact ⟨fun _ high => by rwa [one, one_mul] at high, .inl one⟩
          · exact ⟨fun _ high => within.resolve_right (not_lt.mpr high), .inr ⟨few, low⟩⟩

/-- Two packages of 50 to 200 watts on a node, with a design power of 150 each. -/
def twoPackages : PowerSettings := ⟨50, 200, 300⟩

/-- A policy with a total power limit. -/
def totalOf (total : ℚ) : Policy := ⟨.value total, .value 0, .value 0, .value 0⟩

theorem policy_limits_two :
    let role : LeafRole := { packages := [{}, {}] }
    role.KeepsTotal twoPackages (totalOf 150) ∧ role.CapsWithin twoPackages false 1 (totalOf 150) (fun _ => 0) ↔
      twoPackages.Fits 2 (.value 150) :=
  policy_limits_iff ⟨by decide +kernel, by decide +kernel, by decide +kernel⟩ (by simp) (.inl rfl)

/-- A total of 300 for two packages of at most 200 is cut. -/
theorem not_policy_limits_cut :
    ¬ (let role : LeafRole := { packages := [{}, {}] }
      role.KeepsTotal twoPackages (totalOf 300) ∧
        role.CapsWithin twoPackages false 1 (totalOf 300) (fun _ => 0)) := by
  rintro ⟨keeps, _⟩
  obtain ⟨valid, validated, kept⟩ := keeps 300 rfl (by decide +kernel) (by decide +kernel)
  have cut : (totalOf 300).validate twoPackages = .ok (totalOf 200) := by decide +kernel
  cases validated.symm.trans cut
  revert kept
  decide +kernel

end LeafRole

end Geopm
