import Geopm.Balancer.Current

namespace Geopm

/-! The cap and the limit of a package, and what the steps of a leaf do to them. -/

namespace PowerBalancer

variable {balancer next : PowerBalancer} {now cap limit least : ℚ} {measuredRuntime : Number} {result : Bool}

/-- The limit is never lowered by as much as the least power of a package. -/
structure Tries (least : ℚ) (balancer : PowerBalancer) : Prop where
  trialDelta : 0 ≤ balancer.trialDelta
  minTrialDelta : 0 ≤ balancer.minTrialDelta
  small : balancer.trialDelta < least
  minSmall : balancer.minTrialDelta < least

/-- A measurement leaves the cap and the limit, and by how much that is changed. -/
structure SameLimits (balancer next : PowerBalancer) : Prop where
  powerCap : next.powerCap = balancer.powerCap
  powerLimit : next.powerLimit = balancer.powerLimit
  trialDelta : next.trialDelta = balancer.trialDelta
  minTrialDelta : next.minTrialDelta = balancer.minTrialDelta
  isTargetMet : next.isTargetMet = balancer.isTargetMet

theorem SameLimits.tries (same : balancer.SameLimits next) (tries : balancer.Tries least) : next.Tries least := by
  obtain ⟨trialDelta, minTrialDelta, small, minSmall⟩ := tries
  rw [← same.trialDelta] at trialDelta small
  rw [← same.minTrialDelta] at minTrialDelta minSmall
  exact ⟨trialDelta, minTrialDelta, small, minSmall⟩

theorem collectRuntime_sameLimits {runtime : ℚ} (done : balancer.collectRuntime runtime = .ok (result, next)) :
    balancer.SameLimits next := by
  rw [collectRuntime] at done
  dsimp only at done
  split at done
  · obtain ⟨runtimeBuffer, _, rest⟩ := Transition.ok_of_bind done
    cases rest
    exact ⟨rfl, rfl, rfl, rfl, rfl⟩
  · cases done
    exact ⟨rfl, rfl, rfl, rfl, rfl⟩

theorem isRuntimeStable_sameLimits (done : balancer.isRuntimeStable now measuredRuntime = .ok (result, next)) :
    balancer.SameLimits next := by
  unfold isRuntimeStable at done
  split at done
  · dsimp only at done
    split at done
    · obtain ⟨⟨stable, measured⟩, collected, rest⟩ := Transition.ok_of_bind done
      cases rest
      have same := collectRuntime_sameLimits collected
      exact ⟨same.powerCap, same.powerLimit, same.trialDelta, same.minTrialDelta, same.isTargetMet⟩
    · obtain ⟨runtimeBuffer, _, rest⟩ := Transition.ok_of_bind done
      cases rest
      exact ⟨rfl, rfl, rfl, rfl, rfl⟩
  · cases done
    exact ⟨rfl, rfl, rfl, rfl, rfl⟩

/-- A target that is met leaves the limit or raises it up to the cap. Else the limit may be lowered, but not down to
nothing if it was not too low. -/
theorem testTarget_limits (tries : balancer.Tries least) (powerCap : balancer.powerCap = .value cap)
    (powerLimit : balancer.powerLimit = .value limit) (limit_le : limit ≤ cap)
    (done : balancer.testTarget now measuredRuntime = .ok (result, next)) :
    next.Tries least ∧ next.powerCap = .value cap ∧ ∃ reached, next.powerLimit = .value reached ∧ reached ≤ cap ∧
      (result = true → limit ≤ reached) ∧ (least ≤ limit → 0 < reached) := by
  have positive : 0 < least := tries.trialDelta.trans_lt tries.small
  have stays (low : least ≤ limit) : 0 < limit := positive.trans_le low
  rw [testTarget] at done
  cases met : balancer.isTargetMet with
  | true =>
      rw [met] at done
      cases done
      exact ⟨tries, powerCap, limit, powerLimit, limit_le, fun _ => le_refl limit, stays⟩
  | false =>
      rw [met] at done
      obtain ⟨⟨stable, measured⟩, taken, rest⟩ := Transition.ok_of_bind done
      have same := isRuntimeStable_sameLimits taken
      have measuredTries := same.tries tries
      have measuredCap := same.powerCap.trans powerCap
      have measuredLimit := same.powerLimit.trans powerLimit
      cases stable with
      | false =>
          cases rest
          exact ⟨measuredTries, measuredCap, limit, measuredLimit, limit_le, fun _ => le_refl limit, stays⟩
      | true =>
          cases rest
          have more := measuredTries.trialDelta
          have small := measuredTries.small
          simp only [if_true, tryLimit]
          split
          · refine ⟨⟨more, measuredTries.minTrialDelta, small, measuredTries.minSmall⟩, measuredCap, ?_⟩
            simp only [measuredCap, measuredLimit, Number.value_add, Number.lt_value, decide_eq_true_eq]
            split
            · split
              · exact ⟨cap, rfl, le_refl cap, fun _ => limit_le, fun low => (stays low).trans_le limit_le⟩
              · next inside =>
                  refine ⟨_, rfl, not_lt.mp inside, fun _ => le_add_of_nonneg_right more, fun low => ?_⟩
                  exact (stays low).trans_le (le_add_of_nonneg_right more)
            · exact ⟨limit, rfl, limit_le, fun _ => le_refl limit, stays⟩
          · refine ⟨⟨more, measuredTries.minTrialDelta, small, measuredTries.minSmall⟩, measuredCap,
              limit - measured.trialDelta, ?_, by linarith, ?_, fun low => by linarith⟩
            · simp only [measuredLimit, Number.value_sub]
            · intro finished
              simp only [same.isTargetMet, met] at finished
              cases finished

theorem powerSlack_limits (tries : balancer.Tries least) :
    balancer.powerSlack.1 = balancer.powerCap - balancer.powerLimit ∧ balancer.powerSlack.2.Tries least ∧
      balancer.powerSlack.2.powerCap = balancer.powerCap ∧ balancer.powerSlack.2.powerLimit = balancer.powerLimit := by
  obtain ⟨trialDelta, minTrialDelta, small, minSmall⟩ := tries
  rw [PowerBalancer.powerSlack]
  split
  · refine ⟨rfl, ⟨minTrialDelta.trans (le_max_right _ _), minTrialDelta, max_lt ?_ minSmall, minSmall⟩, rfl, rfl⟩
    linarith
  · exact ⟨rfl, ⟨trialDelta, minTrialDelta, small, minSmall⟩, rfl, rfl⟩

end PowerBalancer

namespace Package

/-- `power_cap` of the balancer, once it has one. -/
def cap (package : Package) : ℚ := package.powerBalancer.powerCap.getD 0

/-- `power_limit` of the balancer, once it has one. -/
def limit (package : Package) : ℚ := package.powerBalancer.powerLimit.getD 0

variable (settings : PowerSettings)

/-- How far the limit is below the maximum. -/
def room (package : Package) : ℚ := settings.maxPkgPowerSetting - package.limit

/-- The limit is not above the cap, and the cap not above the maximum; the cap is below the minimum only as the
minimum is in force. -/
structure Sound (package : Package) : Prop where
  tries : package.powerBalancer.Tries settings.minPkgPowerSetting
  powerCap : package.powerBalancer.powerCap = .value package.cap
  powerLimit : package.powerBalancer.powerLimit = .value package.limit
  positive : 0 < package.limit
  limit_le : package.limit ≤ package.cap
  low : settings.minPkgPowerSetting ≤ package.cap ∨ package.actualLimit = .value settings.minPkgPowerSetting
  high : package.cap ≤ settings.maxPkgPowerSetting

/-- Another request leaves the limit: it is not too low, or the minimum is in force already. -/
def Settled (package : Package) : Prop :=
  settings.minPkgPowerSetting ≤ package.limit ∨ package.actualLimit = .value settings.minPkgPowerSetting

/-- The limit has been requested since it was changed last. -/
def Requested (package : Package) : Prop :=
  settings.minPkgPowerSetting ≤ package.limit ∨
    package.actualLimit = .value settings.minPkgPowerSetting ∧ package.isOutOfBounds = true

/-- A package that has completed a step in which its limit may be lowered says by how much that is below the cap. -/
structure Reports (package : Package) : Prop where
  powerSlack : package.powerSlack = .value (package.cap - package.limit)
  powerHeadroom : package.powerHeadroom = .value (package.room settings)

/-- What the request of a limit leaves. -/
structure Requests (package next : Package) : Prop where
  sound : next.Sound settings
  requested : next.Requested settings
  cap : next.cap = package.cap
  limit : package.Settled settings → next.limit = package.limit
  powerSlack : next.powerSlack = package.powerSlack
  powerHeadroom : next.powerHeadroom = package.powerHeadroom
  isStepComplete : next.isStepComplete = package.isStepComplete

/-- What a sample leaves: all of a package that is complete. -/
structure Samples (package next : Package) : Prop where
  sound : next.Sound settings
  cap : next.cap = package.cap
  complete : package.isStepComplete = true → next.isStepComplete = true ∧ next.limit = package.limit ∧
    next.powerSlack = package.powerSlack ∧ next.powerHeadroom = package.powerHeadroom
  settled : next.isStepComplete = true → next.Settled settings

variable {settings} {package next : Package} {now power : ℚ} {measured : Measured} {isComplete : Bool}

theorem Requested.settled (requested : package.Requested settings) : package.Settled settings :=
  requested.imp_right And.left

/-- A balancer that keeps the cap and the limit. -/
theorem Sound.balancer (sound : package.Sound settings)
    (tries : next.powerBalancer.Tries settings.minPkgPowerSetting)
    (powerCap : next.powerBalancer.powerCap = package.powerBalancer.powerCap)
    (powerLimit : next.powerBalancer.powerLimit = package.powerBalancer.powerLimit)
    (low : settings.minPkgPowerSetting ≤ package.cap ∨ next.actualLimit = .value settings.minPkgPowerSetting) :
    next.Sound settings ∧ next.cap = package.cap ∧ next.limit = package.limit := by
  have cap : next.cap = package.cap := congrArg (Number.getD · 0) powerCap
  have limit : next.limit = package.limit := congrArg (Number.getD · 0) powerLimit
  refine ⟨⟨tries, ?_, ?_, ?_, ?_, ?_, ?_⟩, cap, limit⟩
  · rw [cap, powerCap, sound.powerCap]
  · rw [limit, powerLimit, sound.powerLimit]
  · rw [limit]
    exact sound.positive
  · rw [cap, limit]
    exact sound.limit_le
  · rw [cap]
    exact low
  · rw [cap]
    exact sound.high

/-- A package that gets a cap within its limits. -/
theorem setCap_sound (tries : package.powerBalancer.Tries settings.minPkgPowerSetting) (positive : 0 < power)
    (low : settings.minPkgPowerSetting ≤ power ∨ package.actualLimit = .value settings.minPkgPowerSetting)
    (high : power ≤ settings.maxPkgPowerSetting) :
    ((package.setCap (.value power)).setComplete isComplete).Sound settings where
  tries := ⟨tries.trialDelta, tries.minTrialDelta, tries.small, tries.minSmall⟩
  powerCap := rfl
  powerLimit := rfl
  positive := positive
  limit_le := le_refl power
  low := low
  high := high

/-- A request that leaves the balancer's limit. -/
theorem Sound.requests (sound : package.Sound settings) (requested : next.Requested settings)
    (tries : next.powerBalancer.Tries settings.minPkgPowerSetting)
    (powerCap : next.powerBalancer.powerCap = package.powerBalancer.powerCap)
    (powerLimit : next.powerBalancer.powerLimit = package.powerBalancer.powerLimit)
    (low : settings.minPkgPowerSetting ≤ package.cap ∨ next.actualLimit = .value settings.minPkgPowerSetting)
    (slack : next.powerSlack = package.powerSlack) (headroom : next.powerHeadroom = package.powerHeadroom)
    (complete : next.isStepComplete = package.isStepComplete) : package.Requests settings next := by
  obtain ⟨kept, cap, limit⟩ := sound.balancer tries powerCap powerLimit low
  exact ⟨kept, requested, cap, fun _ => limit, slack, headroom, complete⟩

theorem requestLimit_requests (sound : package.Sound settings) :
    package.Requests settings (package.requestLimit settings now).2 := by
  have some_limit := sound.powerLimit
  have tries := sound.tries
  have other : ¬ package.limit = 0 := sound.positive.ne'
  by_cases low : settings.minPkgPowerSetting ≤ package.limit
  case pos =>
      have not_low : ¬ package.limit < settings.minPkgPowerSetting := not_lt.mpr low
      have capLow : settings.minPkgPowerSetting ≤ package.cap := low.trans sound.limit_le
      simp only [requestLimit, some_limit, Number.isNan_value, Number.eq_value, Number.lt_value, not_low, decide_false,
        Bool.or_false, other, Bool.false_eq_true, if_false]
      split
      · exact sound.requests (.inl low) tries rfl rfl (.inl capLow) rfl rfl rfl
      · rw [PowerBalancer.powerLimitAdjusted, some_limit]
        simp only [Number.eq_value, decide_true, if_true]
        exact sound.requests (.inl low) ⟨tries.trialDelta, tries.minTrialDelta, tries.small, tries.minSmall⟩ rfl
          some_limit.symm (.inl capLow) rfl rfl rfl
  case neg =>
      have below : package.limit < settings.minPkgPowerSetting := not_le.mp low
      simp only [requestLimit, some_limit, Number.isNan_value, Number.eq_value, Number.lt_value, below, decide_true,
        Bool.or_true, other, decide_false, Bool.or_self, Bool.false_eq_true, if_false, if_true]
      split
      · next inForce =>
          have actual := (Number.of_eq inForce).symm
          exact sound.requests (.inr ⟨actual, rfl⟩) tries rfl rfl (.inr actual) rfl rfl rfl
      · next notInForce =>
          have changed : ¬package.actualLimit = .value settings.minPkgPowerSetting := by
            intro same
            rw [same] at notInForce
            simp at notInForce
          have capLow := sound.low.resolve_right changed
          rw [PowerBalancer.powerLimitAdjusted, some_limit, if_neg (by simp [below.ne])]
          refine ⟨⟨⟨tries.trialDelta, tries.minTrialDelta, tries.small, tries.minSmall⟩, sound.powerCap, rfl, ?_, capLow,
            .inr rfl, sound.high⟩, .inr ⟨rfl, rfl⟩, rfl, fun settled => ?_, rfl, rfl, rfl⟩
          · exact tries.trialDelta.trans_lt tries.small
          · exact absurd settled (not_or.mpr ⟨low, changed⟩)

theorem not_hasNewEpoch (complete : package.isStepComplete = true) : package.hasNewEpoch measured = false := by
  simp [hasNewEpoch, complete]

/-- A sample that finds no new epoch. -/
theorem Sound.samples_old (sound : package.Sound settings) (settled : package.Settled settings) :
    package.Samples settings { package with lastEpochCount := measured.epochCount } where
  sound := ⟨sound.tries, sound.powerCap, sound.powerLimit, sound.positive, sound.limit_le, sound.low, sound.high⟩
  cap := rfl
  complete := fun complete => ⟨complete, rfl, rfl, rfl⟩
  settled := fun _ => settled

theorem measureRuntime_samples (sound : package.Sound settings) (settled : package.Settled settings)
    (done : package.measureRuntime measured = .ok next) : package.Samples settings next := by
  rw [measureRuntime] at done
  by_cases new : package.hasNewEpoch measured = true
  case neg =>
      rw [if_neg new] at done
      cases done
      exact sound.samples_old settled
  case pos =>
      rw [if_pos new] at done
      obtain ⟨⟨isStable, powerBalancer⟩, measures, rest⟩ := Transition.ok_of_bind done
      have same := PowerBalancer.isRuntimeStable_sameLimits measures
      cases rest
      obtain ⟨kept, cap, limit⟩ := @Sound.balancer settings package { package with
        powerBalancer
        isStepComplete := isStable
        runtime := if isStable then package.runtime else powerBalancer.runtimeSample
        lastEpochCount := measured.epochCount } sound (same.tries sound.tries) same.powerCap same.powerLimit sound.low
      refine ⟨kept, cap, fun complete => ?_, fun _ => ?_⟩
      · rw [not_hasNewEpoch complete] at new
        cases new
      · rw [Settled, limit]
        exact settled

/-- A target that is met, or not tested, leaves the limit or raises it. -/
theorem testTarget_limits {tested : PowerBalancer} {isMet : Bool} (sound : package.Sound settings)
    (requested : package.Requested settings) (done : package.testTarget measured = .ok (isMet, tested)) :
    tested.Tries settings.minPkgPowerSetting ∧ tested.powerCap = .value package.cap ∧
      ∃ reached, tested.powerLimit = .value reached ∧ reached ≤ package.cap ∧ 0 < reached ∧
        (isMet = true → settings.minPkgPowerSetting ≤ reached ∨
          package.actualLimit = .value settings.minPkgPowerSetting) := by
  rw [testTarget] at done
  split at done
  · cases done
    exact ⟨sound.tries, sound.powerCap, package.limit, sound.powerLimit, sound.limit_le, sound.positive,
      fun _ => requested.settled⟩
  · next inBounds =>
      have low := requested.resolve_right fun out => inBounds out.2
      obtain ⟨tries, powerCap, reached, powerLimit, inside, raised, positive⟩ :=
        PowerBalancer.testTarget_limits sound.tries sound.powerCap sound.powerLimit sound.limit_le done
      exact ⟨tries, powerCap, reached, powerLimit, inside, positive low, fun met => .inl (low.trans (raised met))⟩

theorem reduceLimit_samples (sound : package.Sound settings) (requested : package.Requested settings)
    (done : package.reduceLimit settings measured = .ok next) :
    package.Samples settings next ∧
      (package.isStepComplete = false → next.isStepComplete = true → next.Reports settings) := by
  rw [reduceLimit] at done
  by_cases new : package.hasNewEpoch measured = true
  case neg =>
      rw [if_neg new] at done
      cases done
      refine ⟨sound.samples_old requested.settled, fun incomplete complete => ?_⟩
      cases incomplete.symm.trans complete
  case pos =>
      rw [if_pos new] at done
      obtain ⟨⟨isMet, tested⟩, tests, rest⟩ := Transition.ok_of_bind done
      obtain ⟨tries, powerCap, reached, powerLimit, inside, positive, settled⟩ := testTarget_limits sound requested tests
      have reports := PowerBalancer.powerSlack_limits tries
      rw [powerCap, powerLimit] at reports
      dsimp only at rest
      generalize tested.powerSlack = report at reports rest
      obtain ⟨powerSlack, powerBalancer⟩ := report
      obtain ⟨slack, nextTries, sameCap, sameLimit⟩ := reports
      cases rest
      have cap : powerBalancer.powerCap.getD 0 = package.cap := by rw [sameCap, Number.getD]
      have limit : powerBalancer.powerLimit.getD 0 = reached := by rw [sameLimit, Number.getD]
      refine ⟨⟨⟨nextTries, ?_, ?_, ?_, ?_, ?_, ?_⟩, cap, fun complete => ?_, fun met => ?_⟩, fun _ met => ⟨?_, ?_⟩⟩
      · rw [Package.cap, cap, sameCap]
      · rw [Package.limit, limit, sameLimit]
      · rw [Package.limit, limit]
        exact positive
      · rw [Package.cap, Package.limit, cap, limit]
        exact inside
      · rw [Package.cap, cap]
        exact sound.low
      · rw [Package.cap, cap]
        exact sound.high
      · rw [not_hasNewEpoch complete] at new
        cases new
      · rw [Settled, Package.limit, limit]
        exact settled met
      · rw [Package.cap, Package.limit, cap, limit]
        exact slack
      · rw [room, Package.limit, limit]
        change _ - powerBalancer.powerLimit = _
        rw [sameLimit, Number.value_sub]

end Package

end Geopm
