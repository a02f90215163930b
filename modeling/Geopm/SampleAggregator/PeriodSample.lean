import Geopm.SampleAggregator.LastVisit

namespace Geopm

/-! What `SampleAggregator` returns for the last period. -/

namespace SampleAggregator

section Signals

variable {Accum Running : Type} [Accumulator Accum] {running : Accum → Running}
  {last : Accum → Number} {zero : Running} {result : Running → Number}
  {amount : List Reading → Running} {credit : Reading → Number → Accum → Accum}
  {current : Reading → Number} {period : Reading → Int} {signal : AggregatedSignal Accum}
  {readings : List Reading} {reading prev : Reading} {periodLast : Int}

theorem credited_concat_valid {regionHashIdx : Nat} (latest : readings.getLast? = some prev)
    (valid : hashOf regionHashIdx reading ≠ regionHashInvalid) :
    credited regionHashIdx (readings ++ [reading]) = credited regionHashIdx readings ++ [reading] := by
  have some_read : readings ≠ [] := List.ne_nil_of_mem (List.mem_of_getLast? latest)
  rw [credited_concat some_read]
  exact congrArg _ (if_pos valid)

theorem credited_concat_invalid {regionHashIdx : Nat} (latest : readings.getLast? = some prev)
    (invalid : hashOf regionHashIdx reading = regionHashInvalid) :
    credited regionHashIdx (readings ++ [reading]) = credited regionHashIdx readings := by
  have some_read : readings ≠ [] := List.ne_nil_of_mem (List.mem_of_getLast? latest)
  rw [credited_concat some_read]
  exact (congrArg _ (if_neg (not_not.mpr invalid))).trans (List.append_nil _)

/-- What a signal holds of the periods. Its accumulator has what was credited of them. -/
structure Periods (running : Accum → Running) (last : Accum → Number) (result : Running → Number)
    (amount : List Reading → Running) (current : Reading → Number) (period : Reading → Int)
    (signal : AggregatedSignal Accum) (readings : List Reading) : Prop where
  current : ∃ prev, signal.last = current prev ∧ (credited signal.regionHashIdx
    (Stretch.along period (fun _ => True) readings).current).getLast? = some prev
  pointed : signal.regionAccumIt = signal.regionHashLast
  known : signal.regionHashLast ∈ signal.regionAccum.map Prod.fst
  period : Holds running last (fun run => amount (credited signal.regionHashIdx run)) result True
    signal.periodAccum (Stretch.along period (fun _ => True) readings)

theorem periods_first (interval : Interval running last zero result)
    (credits : Credits running last zero amount credit current) (regionHashIdx epochCountIdx : Nat)
    {number : Int} :
    Periods running last result amount current period
      (step false number periodLast credit current (.pushed regionHashIdx epochCountIdx) reading)
      [reading] where
  current := ⟨reading, rfl, rfl⟩
  pointed := rfl
  known := emplaceHash_pointed
  period := ⟨interval.freshLast, fun _ => interval.fresh.trans (credits.single reading).symm⟩

omit [Accumulator Accum] in
/-- An update without a valid hash goes unnoticed where no period has ended. -/
theorem Periods.skip (periods : Periods running last result amount current period signal readings)
    (latest : readings.getLast? = some prev) (same : period prev = period reading)
    (invalid : hashOf signal.regionHashIdx reading = regionHashInvalid) :
    Periods running last result amount current period signal (readings ++ [reading]) := by
  have before := (@Stretch.along_getLast? _ _ _ period (fun _ => True) _ readings).trans latest
  have longer : Stretch.along period (fun _ => True) (readings ++ [reading]) =
      { Stretch.along period (fun _ => True) readings with
        current := (Stretch.along period (fun _ => True) readings).current ++ [reading] } := by
    rw [Stretch.along_concat, Stretch.next_same before same]
  have unread := credited_concat_invalid before invalid
  constructor
  case current =>
      rw [longer, unread]
      exact periods.current
  case pointed => exact periods.pointed
  case known => exact periods.known
  case period =>
      rw [longer]
      refine ⟨periods.period.closed, fun active => ?_⟩
      rw [unread]
      exact periods.period.current active

/-- Any other update. -/
theorem Periods.step (interval : Interval running last zero result)
    (credits : Credits running last zero amount credit current)
    (periods : Periods running last result amount current period signal readings)
    (latest : readings.getLast? = some prev)
    (nonzero : period prev ≠ period reading → period reading ≠ 0)
    (valid : hashOf signal.regionHashIdx reading ≠ regionHashInvalid) :
    Periods running last result amount current period
      (SampleAggregator.step true (period reading) (period prev) credit current signal reading)
      (readings ++ [reading]) := by
  have before := (@Stretch.along_getLast? _ _ _ period (fun _ => True) _ readings).trans latest
  have read := credited_concat_valid before valid
  have advances := @AggregatedSignal.update_advances _ _ _ signal (period reading) (period prev)
    (toInt (reading signal.epochCountIdx)) (current reading) (credit reading) valid periods.pointed
    periods.known
  have sameIdx : (SampleAggregator.step true (period reading) (period prev) credit current signal
    reading).regionHashIdx = signal.regionHashIdx := advances.regionHashIdx
  obtain ⟨point, signalLast, credited_last⟩ := periods.current
  constructor
  case current =>
      refine ⟨reading, advances.last, ?_⟩
      rw [sameIdx, Stretch.along_concat]
      by_cases same : period prev = period reading
      · rw [Stretch.next_same before same, read, List.getLast?_concat]
      · rw [Stretch.next_other before same]
        rfl
  case pointed => exact advances.pointed.trans advances.regionHashLast.symm
  case known => exact advances.known _ (.inl advances.regionHashLast)
  case period =>
      rw [sameIdx, Stretch.along_concat, show (SampleAggregator.step true (period reading) (period prev)
        credit current signal reading).periodAccum = _ from advances.period]
      apply @Holds.step _ _ _ _ _ running last zero result
        (fun run => amount (credited signal.regionHashIdx run)) period (fun _ => True) _ _ _ prev reading _
        interval periods.period before (credits.single reading) (credits.last reading _ _)
      · intro same
        rw [read, signalLast]
        exact credits.running point reading _ _ credited_last same
      · exact Iff.rfl
      · rw [and_true]
        exact ⟨fun ended => Ne.symm ended.1, fun other => ⟨Ne.symm other, nonzero other⟩⟩
      · exact fun other _ => Ne.symm other
      · exact Ne.symm

end Signals

/-- Every update at which the period changes has a valid region hash. -/
def BoundariesValid (period : Reading → Int) (regionHashIdx : Nat) (readings : List Reading) : Prop :=
  readings.IsChain fun prev reading =>
    period prev ≠ period reading → hashOf regionHashIdx reading ≠ regionHashInvalid

/-- The time of the readings, which begins at zero and does not decrease. -/
structure Timed (timeIdx : Nat) (readings : List Reading) : Prop where
  times : ∀ reading ∈ readings, ∃ time : ℚ, 0 ≤ time ∧ reading timeIdx = .value time
  nondecreasing : readings.Pairwise fun earlier later => ¬ (later timeIdx).lt (earlier timeIdx)

section Runs

variable {Accum Running : Type} [Accumulator Accum] {running : Accum → Running}
  {last : Accum → Number} {zero : Running} {result : Running → Number}
  {amount : Nat → List Reading → Running} {credit : Nat → Reading → Number → Accum → Accum}
  {current : Nat → Reading → Number} {period : Reading → Int} {readings interval : List Reading}
  {prev reading : Reading} {aggregator : SampleAggregator} {idx timeIdx regionHashIdx : Nat}

/-- Signals that are updated with one reading after the other, and with the periods of them. -/
structure PeriodicallyUpdated (period : Reading → Int)
    (credit : Nat → Reading → Number → Accum → Accum) (current : Nat → Reading → Number)
    (after : List Reading → List (Nat × AggregatedSignal Accum)) : Prop where
  fresh : ∀ entry ∈ after [], ∃ regionHashIdx epochCountIdx,
    entry.2 = .pushed regionHashIdx epochCountIdx
  next : ∀ readings reading, ∀ entry ∈ after (readings ++ [reading]), ∃ signal periodLast,
    (entry.1, signal) ∈ after readings ∧
      (∀ prev, readings.getLast? = some prev → periodLast = period prev) ∧
      entry.2 = step (!readings.isEmpty) (period reading) periodLast (credit entry.1) (current entry.1)
        signal reading

theorem PeriodicallyUpdated.periods {after : List Reading → List (Nat × AggregatedSignal Accum)}
    (updated : PeriodicallyUpdated period credit current after)
    (interval : Interval running last zero result)
    (credits : ∀ idx, Credits running last zero (amount idx) (credit idx) (current idx))
    (forward : readings.IsChain fun prev reading => period prev ≠ period reading → period reading ≠ 0)
    (some_read : readings ≠ []) :
    ∀ entry ∈ after readings, BoundariesValid period entry.2.regionHashIdx readings →
      Periods running last result (amount entry.1) (current entry.1) period entry.2 readings := by
  induction readings using List.reverseRecOn with
  | nil => exact absurd rfl some_read
  | append_singleton readings reading ih =>
      intro entry member valid
      obtain ⟨signal, periodLast, old, before, entry_eq⟩ := updated.next readings reading entry member
      obtain ⟨sameHash, _⟩ := @step_indices _ _ _ (credit entry.1) (current entry.1) _ signal reading
        (period reading) periodLast (measures_zero _ _) (!readings.isEmpty)
      rw [← entry_eq] at sameHash
      rw [sameHash] at valid
      rw [entry_eq]
      cases latest : readings.getLast? with
      | none =>
          obtain rfl := List.getLast?_eq_none_iff.mp latest
          obtain ⟨regionHashIdx, epochCountIdx, signal_eq⟩ := updated.fresh _ old
          simp only at signal_eq
          rw [signal_eq]
          exact periods_first interval (credits entry.1) _ _
      | some prev =>
          have earlier : readings ≠ [] := List.ne_nil_of_mem (List.mem_of_getLast? latest)
          have later : (!readings.isEmpty) = true := by simp [earlier]
          rw [BoundariesValid, List.isChain_append] at valid
          rw [List.isChain_append] at forward
          have periods := ih forward.1 earlier _ old valid.1
          have nonzero := forward.2.2 prev latest reading rfl
          have crossed := valid.2.2 prev latest reading rfl
          rw [later, before prev latest]
          by_cases invalid : hashOf signal.regionHashIdx reading = regionHashInvalid
          · have same : period prev = period reading := by
              by_contra other
              exact crossed other invalid
            rw [step_invalid invalid]
            exact periods.skip latest same invalid
          · exact periods.step interval (credits entry.1) latest nonzero invalid

/-- The period of a time that goes on is none before the first. -/
theorem Timed.forward (timed : Timed aggregator.timeIdx readings) (positive : 0 < aggregator.periodDuration) :
    readings.IsChain fun prev reading =>
      aggregator.getPeriod prev ≠ aggregator.getPeriod reading → aggregator.getPeriod reading ≠ 0 := by
  have floor : ∀ reading : Reading, ∀ time : ℚ, 0 ≤ time → reading aggregator.timeIdx = .value time →
      aggregator.getPeriod reading = ⌊time / aggregator.periodDuration⌋ := by
    intro reading time nonnegative read
    rw [getPeriod, if_pos positive.ne', read, Number.value_div]
    exact truncate_eq_floor (div_nonneg nonnegative positive.le)
  have ordered := (List.Pairwise.and_mem.mp timed.nondecreasing).isChain
  refine ordered.imp fun prev reading step changed stopped => ?_
  obtain ⟨prevMember, readingMember, increases⟩ := step
  obtain ⟨left, leftNonnegative, left_eq⟩ := timed.times prev prevMember
  obtain ⟨right, rightNonnegative, right_eq⟩ := timed.times reading readingMember
  rw [floor prev left leftNonnegative left_eq] at changed
  rw [floor reading right rightNonnegative right_eq] at changed stopped
  rw [left_eq, right_eq, Number.lt_value, decide_eq_true_iff, not_lt] at increases
  have below : ⌊left / aggregator.periodDuration⌋ ≤ ⌊right / aggregator.periodDuration⌋ :=
    Int.floor_le_floor (div_le_div_of_nonneg_right increases positive.le)
  have above : 0 ≤ ⌊left / aggregator.periodDuration⌋ :=
    Int.floor_nonneg.mpr (div_nonneg leftNonnegative positive.le)
  omega

end Runs

end SampleAggregator

end Geopm
