import Geopm.FrequencyGovernor

namespace Geopm

/-! `FrequencyGovernor::validate_policy`: the bounds that it makes of a policy. -/

/-- "freq_min must not be greater than freq_max." -/
inductive FrequencyPolicyError where
  | minAboveMax
deriving Repr, DecidableEq

namespace FrequencyGovernor

/-- The bounds of a policy, where `CPUINFO::FREQ_MIN` and `CPUINFO::FREQ_STICKER` are the defaults. -/
def targetBounds (governor : FrequencyGovernor) (freqSticker : ℚ) (freqMin freqMax : Number) : ℚ × ℚ :=
  (freqMin.getD governor.platFreqMin, freqMax.getD freqSticker)

/-- `validate_policy`. -/
def validatePolicy (governor : FrequencyGovernor) (freqSticker : ℚ) (freqMin freqMax : Number) :
    Except FrequencyPolicyError (ℚ × ℚ) :=
  let target := governor.targetBounds freqSticker freqMin freqMax
  if target.2 < target.1 then .error .minAboveMax
  else .ok (if target.1 < governor.freqMin then governor.freqMin else target.1,
    if governor.freqMax < target.2 then governor.freqMax else target.2)

/-- A frequency within the limits of the platform. -/
def toPlatform (governor : FrequencyGovernor) (freq : ℚ) : ℚ :=
  max governor.platFreqMin (min freq governor.platFreqMax)

/-- A policy that is not refused becomes bounds that are accepted, which are its own within the limits of the
platform. -/
def Validates (governor : FrequencyGovernor) (freqSticker : ℚ) (freqMin freqMax : Number) : Prop :=
  ∀ bounds, governor.validatePolicy freqSticker freqMin freqMax = .ok bounds →
    (∃ result, governor.setFrequencyBounds bounds.1 bounds.2 = .ok result) ∧
      bounds = (governor.toPlatform (governor.targetBounds freqSticker freqMin freqMax).1,
        governor.toPlatform (governor.targetBounds freqSticker freqMin freqMax).2)

/-- Bounds that overlap those of the governor, and that only the limits of the platform cut. -/
structure Uncut (governor : FrequencyGovernor) (target : ℚ × ℚ) : Prop where
  belowMax : target.1 ≤ governor.freqMax
  aboveMin : governor.freqMin ≤ target.2
  lower : governor.freqMin = governor.platFreqMin ∨ governor.freqMin ≤ target.1
  upper : governor.freqMax = governor.platFreqMax ∨ target.2 ≤ governor.freqMax

/-- The bounds of a governor are within the limits of the platform. -/
structure Within (governor : FrequencyGovernor) : Prop where
  lower : governor.platFreqMin ≤ governor.freqMin
  upper : governor.freqMax ≤ governor.platFreqMax

variable {governor : FrequencyGovernor} {freqSticker : ℚ} {freqMin freqMax : Number} {call : Call} {calls : List Call}

theorem Within.step (within : governor.Within) : (governor.step call).Within := by
  cases call with
  | setFrequencyBounds freqMin freqMax =>
      simp only [FrequencyGovernor.step, setFrequencyBounds]
      split_ifs with invalid changed
      · exact within
      · obtain ⟨notBelow, notAbove⟩ := not_or.mp invalid
        exact ⟨not_lt.mp notBelow, not_lt.mp (not_or.mp notAbove).1⟩
      · exact within
  | adjustPlatform frequencyRequest =>
      rw [FrequencyGovernor.step, adjustPlatform]
      split
      · next failed => exact within
      · next next adjusted =>
          split at adjusted
          · cases adjusted
            rw [writeBatch]
            split <;> exact ⟨within.lower, within.upper⟩
          · cases adjusted

theorem Within.run (within : governor.Within) : (Transition.run FrequencyGovernor.step governor calls).Within := by
  induction calls generalizing governor with
  | nil => exact within
  | cons call rest ih => exact ih within.step

theorem within_new {platFreqMin platFreqMax : ℚ} {controls : List FrequencyControl}
    {ordered : platFreqMin ≤ platFreqMax} : (new platFreqMin platFreqMax controls ordered).Within :=
  ⟨le_refl _, le_refl _⟩

/-- Bounds are accepted exactly if they are in order within the limits of the platform. -/
theorem setFrequencyBounds_iff {low high : ℚ} : (∃ result, governor.setFrequencyBounds low high = .ok result) ↔
    governor.platFreqMin ≤ low ∧ high ≤ governor.platFreqMax ∧ low ≤ high := by
  rw [setFrequencyBounds]
  split_ifs with invalid changed
  · refine iff_of_false (fun accepted => ?_) fun valid => ?_
    · obtain ⟨result, accepted⟩ := accepted
      cases accepted
    · rcases invalid with below | above | crossed
      · exact absurd below (not_lt.mpr valid.1)
      · exact absurd above (not_lt.mpr valid.2.1)
      · exact absurd crossed (not_lt.mpr valid.2.2)
  · simp only [not_or, not_lt] at invalid
    exact iff_of_true ⟨_, rfl⟩ invalid
  · simp only [not_or, not_lt] at invalid
    exact iff_of_true ⟨_, rfl⟩ invalid

/-- What `validate_policy` makes of bounds in order. -/
theorem validatePolicy_ordered (ordered : (governor.targetBounds freqSticker freqMin freqMax).1 ≤
      (governor.targetBounds freqSticker freqMin freqMax).2) :
    governor.validatePolicy freqSticker freqMin freqMax =
      .ok (max governor.freqMin (governor.targetBounds freqSticker freqMin freqMax).1,
        min governor.freqMax (governor.targetBounds freqSticker freqMin freqMax).2) := by
  rw [validatePolicy]
  simp only [not_lt.mpr ordered, if_false, Except.ok.injEq, Prod.mk.injEq]
  constructor
  · split
    · next below => rw [max_eq_left below.le]
    · next above => rw [max_eq_right (not_lt.mp above)]
  · split
    · next above => rw [min_eq_left above.le]
    · next below => rw [min_eq_right (not_lt.mp below)]

/-- A narrower lower bound makes a difference to what is below it. -/
theorem max_narrow {wide narrow freq : ℚ} (within : wide ≤ narrow) :
    max narrow freq = max wide freq ↔ narrow = wide ∨ narrow ≤ freq := by
  constructor
  · intro same
    by_cases kept : narrow ≤ freq
    · exact .inr kept
    · have cut := not_le.mp kept
      rw [max_eq_left cut.le] at same
      refine .inl (within.antisymm' (same.le.trans (max_le (le_refl wide) ?_)))
      by_contra above
      rw [max_eq_right (not_le.mp above).le] at same
      exact absurd same (ne_of_gt cut)
  · intro kept
    rcases kept with rfl | kept
    · rfl
    · rw [max_eq_right kept, max_eq_right (within.trans kept)]

theorem min_narrow {wide narrow freq : ℚ} (within : narrow ≤ wide) :
    min narrow freq = min wide freq ↔ narrow = wide ∨ freq ≤ narrow := by
  constructor
  · intro same
    by_cases kept : freq ≤ narrow
    · exact .inr kept
    · have cut := not_le.mp kept
      rw [min_eq_left cut.le] at same
      refine .inl (within.antisymm (ge_trans same.ge (le_min (le_refl wide) ?_)))
      by_contra below
      rw [min_eq_right (not_le.mp below).le] at same
      exact absurd same (ne_of_lt cut)
  · intro kept
    rcases kept with rfl | kept
    · rfl
    · rw [min_eq_right kept, min_eq_right (kept.trans within)]

/-- Bounds in order are validated exactly if only the limits of the platform cut them. -/
theorem Within.cut_iff (within : governor.Within) {target : ℚ × ℚ} (ordered : target.1 ≤ target.2) :
    ((∃ result, governor.setFrequencyBounds (max governor.freqMin target.1) (min governor.freqMax target.2) = .ok result) ∧
      (max governor.freqMin target.1, min governor.freqMax target.2) =
        (governor.toPlatform target.1, governor.toPlatform target.2)) ↔ governor.Uncut target := by
  have lower := within.lower
  have upper := within.upper
  have between := governor.ordered
  have clamped (inside : target.1 ≤ governor.freqMax) (aboveMin : governor.freqMin ≤ target.2) :
      governor.toPlatform target.1 = max governor.platFreqMin target.1 ∧
        governor.toPlatform target.2 = min governor.platFreqMax target.2 := by
    rw [toPlatform, toPlatform, min_eq_left (inside.trans upper), min_comm,
      max_eq_right (le_min (lower.trans (between.trans upper)) (lower.trans aboveMin))]
    exact ⟨rfl, rfl⟩
  rw [setFrequencyBounds_iff, Prod.mk.injEq]
  constructor
  · intro both
    obtain ⟨⟨_, _, crossed⟩, minSame, maxSame⟩ := both
    have belowMax := (le_max_right _ _).trans (crossed.trans (min_le_left _ _))
    have aboveMin := (le_max_left _ _).trans (crossed.trans (min_le_right _ _))
    obtain ⟨minClamped, maxClamped⟩ := clamped belowMax aboveMin
    exact ⟨belowMax, aboveMin, (max_narrow lower).mp (minSame.trans minClamped),
      (min_narrow upper).mp (maxSame.trans maxClamped)⟩
  · intro uncut
    obtain ⟨minClamped, maxClamped⟩ := clamped uncut.belowMax uncut.aboveMin
    rw [minClamped, maxClamped, max_narrow lower, min_narrow upper]
    exact ⟨⟨lower.trans (le_max_left _ _), (min_le_left _ _).trans upper,
      max_le (le_min between uncut.aboveMin) (le_min uncut.belowMax ordered)⟩, uncut.lower, uncut.upper⟩

theorem Within.validates_iff (within : governor.Within) : governor.Validates freqSticker freqMin freqMax ↔
    (governor.targetBounds freqSticker freqMin freqMax).2 < (governor.targetBounds freqSticker freqMin freqMax).1 ∨
      governor.Uncut (governor.targetBounds freqSticker freqMin freqMax) := by
  by_cases ordered : (governor.targetBounds freqSticker freqMin freqMax).1 ≤
      (governor.targetBounds freqSticker freqMin freqMax).2
  case pos =>
      rw [Validates, validatePolicy_ordered ordered, or_iff_right (not_lt.mpr ordered), ← within.cut_iff ordered]
      constructor
      · intro each
        have both := each _ rfl
        exact both
      · intro both bounds same
        cases same
        exact both
  case neg =>
      refine iff_of_true (fun bounds accepted => ?_) (.inl (not_le.mp ordered))
      rw [validatePolicy] at accepted
      simp only [not_le.mp ordered, if_true] at accepted
      cases accepted

/-- The limits of the platform stay the same. -/
theorem platform_step : (governor.step call).platFreqMin = governor.platFreqMin ∧
    (governor.step call).platFreqMax = governor.platFreqMax := by
  cases call with
  | setFrequencyBounds freqMin freqMax =>
      simp only [FrequencyGovernor.step, setFrequencyBounds]
      split_ifs <;> exact ⟨rfl, rfl⟩
  | adjustPlatform frequencyRequest =>
      simp only [FrequencyGovernor.step, adjustPlatform]
      split_ifs
      · simp only [writeBatch]
        split_ifs <;> exact ⟨rfl, rfl⟩
      · exact ⟨rfl, rfl⟩

theorem platform_run : (Transition.run FrequencyGovernor.step governor calls).platFreqMin = governor.platFreqMin ∧
    (Transition.run FrequencyGovernor.step governor calls).platFreqMax = governor.platFreqMax := by
  induction calls generalizing governor with
  | nil => exact ⟨rfl, rfl⟩
  | cons call rest ih =>
      obtain ⟨min, max⟩ := @platform_step governor call
      rw [← min, ← max]
      exact ih

/-- After any calls a policy is validated exactly if it is refused or its bounds are cut by the limits of the
platform alone. -/
theorem validates_run_iff {platFreqMin platFreqMax : ℚ} {controls : List FrequencyControl}
    (ordered : platFreqMin ≤ platFreqMax) (calls : List Call) (freqSticker : ℚ) (freqMin freqMax : Number) :
    (Transition.run FrequencyGovernor.step (new platFreqMin platFreqMax controls ordered) calls).Validates
        freqSticker freqMin freqMax ↔
      (freqMax.getD freqSticker < freqMin.getD platFreqMin ∨
        (Transition.run FrequencyGovernor.step (new platFreqMin platFreqMax controls ordered) calls).Uncut
          (freqMin.getD platFreqMin, freqMax.getD freqSticker)) := by
  have within := @Within.run _ calls (@within_new platFreqMin platFreqMax controls ordered)
  have platform := (@platform_run (new platFreqMin platFreqMax controls ordered) calls).1
  have validates := @Within.validates_iff _ freqSticker freqMin freqMax within
  rw [targetBounds, platform] at validates
  exact validates

theorem one_le_three : (1 : ℚ) ≤ 3 := by decide +kernel

theorem validates_run_first : (Transition.run FrequencyGovernor.step (new 1 3 [] one_le_three) []).Validates
      2 .nan .nan ↔
    (Number.nan.getD 2 < Number.nan.getD 1 ∨
      (Transition.run FrequencyGovernor.step (new 1 3 [] one_le_three) []).Uncut
        (Number.nan.getD 1, Number.nan.getD 2)) :=
  validates_run_iff one_le_three [] 2 .nan .nan

/-- A maximum that was lowered is not raised again. -/
theorem not_validates_raised :
    ¬ ∀ (platFreqMin platFreqMax : ℚ) (ordered : platFreqMin ≤ platFreqMax) (calls : List Call) (freqSticker : ℚ)
      (freqMin freqMax : Number), (Transition.run FrequencyGovernor.step
        (new platFreqMin platFreqMax [] ordered) calls).Validates freqSticker freqMin freqMax := by
  intro all
  have lowered : (Transition.run FrequencyGovernor.step (new 1 3 [] one_le_three)
      [.setFrequencyBounds 1 2]).validatePolicy 2 (.value 1) (.value 3) = .ok (1, 2) := by
    decide +kernel
  have same := (all 1 3 one_le_three [.setFrequencyBounds 1 2] 2 (.value 1) (.value 3) _ lowered).2
  revert same
  decide +kernel

end FrequencyGovernor

end Geopm
