import Geopm.SampleAggregator.Sample

namespace Geopm

/-! What `SampleAggregator` returns for the last visit of a region and for the last epoch. -/

namespace SampleAggregator

/-- The region hash of a reading. -/
def hashOf (regionHashIdx : Nat) (reading : Reading) : Nat := sampleToHash (reading regionHashIdx)

/-- The epoch count of a reading. -/
def countOf (epochCountIdx : Nat) (reading : Reading) : Int := toInt (reading epochCountIdx)

section Signals

variable {Accum Running : Type} [Accumulator Accum] {running : Accum → Running}
  {last : Accum → Number} {zero : Running} {result : Running → Number}
  {amount : List Reading → Running} {credit : Reading → Number → Accum → Accum}
  {current : Reading → Number} {signal : AggregatedSignal Accum} {points : List Reading}
  {reading prev : Reading} {period periodLast : Int}

/-- Credits of the intervals between readings add up to what was measured over the readings. -/
structure Credits (running : Accum → Running) (last : Accum → Number) (zero : Running)
    (amount : List Reading → Running) (credit : Reading → Number → Accum → Accum)
    (current : Reading → Number) : Prop where
  single : ∀ reading, amount [reading] = zero
  last : ∀ reading delta accum, last (credit reading delta accum) = last accum
  running : ∀ prev reading run accum, run.getLast? = some prev → running accum = amount run →
    running (credit reading (current reading - current prev) accum) = amount (run ++ [reading])

/-- What a signal holds of the visits of each region and of the epochs. -/
structure Visits (running : Accum → Running) (last : Accum → Number) (result : Running → Number)
    (amount : List Reading → Running) (current : Reading → Number) (signal : AggregatedSignal Accum)
    (points : List Reading) (prev : Reading) : Prop where
  latest : points.getLast? = some prev
  current : signal.last = current prev
  hash : signal.regionHashLast = hashOf signal.regionHashIdx prev
  count : signal.epochCountLast = countOf signal.epochCountIdx prev
  pointed : signal.regionAccumIt = signal.regionHashLast
  known : ∀ point ∈ points, hashOf signal.regionHashIdx point ∈ signal.regionAccum.map Prod.fst
  region : ∀ region ≠ unmarkedHash, Holds running last amount result
    (hashOf signal.regionHashIdx prev = region) (signal.accumOf region)
    (Stretch.along (hashOf signal.regionHashIdx) (· = region) points)
  epoch : Holds running last amount result (countOf signal.epochCountIdx prev ≠ 0) signal.epochAccum
    (Stretch.along (countOf signal.epochCountIdx) (· ≠ 0) points)

theorem holds_fresh {Label : Type} [DecidableEq Label] (interval : Interval running last zero result)
    (credits : Credits running last zero amount credit current) {label : Reading → Label}
    {wanted : Label → Prop} [DecidablePred wanted] {active : Prop} :
    Holds running last amount result active (Accumulator.makeUnique : Accum)
      (Stretch.along label wanted [reading]) :=
  ⟨interval.freshLast, fun _ => interval.fresh.trans (credits.single reading).symm⟩

/-- The first update. -/
theorem visits_first (interval : Interval running last zero result)
    (credits : Credits running last zero amount credit current) (regionHashIdx epochCountIdx : Nat) :
    Visits running last result amount current
      (step false period periodLast credit current (.pushed regionHashIdx epochCountIdx) reading)
      [reading] reading where
  latest := rfl
  current := rfl
  hash := rfl
  count := rfl
  pointed := rfl
  known point member := by
    rw [List.mem_singleton.mp member]
    exact emplaceHash_pointed
  region region _ := by
    have unknown : (step false period periodLast credit current
        (.pushed regionHashIdx epochCountIdx : AggregatedSignal Accum) reading).accumOf region =
          Accumulator.makeUnique := AggregatedSignal.accumOf_emplaceHash
    rw [unknown]
    exact holds_fresh interval credits
  epoch := holds_fresh interval credits

/-- Each later update with a valid hash. -/
theorem Visits.step (interval : Interval running last zero result)
    (credits : Credits running last zero amount credit current)
    (visits : Visits running last result amount current signal points prev)
    (valid : hashOf signal.regionHashIdx reading ≠ regionHashInvalid) :
    Visits running last result amount current
      (SampleAggregator.step true period periodLast credit current signal reading)
      (points ++ [reading]) reading := by
  have known : signal.regionHashLast ∈ signal.regionAccum.map Prod.fst := by
    rw [visits.hash]
    exact visits.known prev (List.mem_of_getLast? visits.latest)
  have advances := @AggregatedSignal.update_advances _ _ _ signal period periodLast
    (countOf signal.epochCountIdx reading) (current reading) (credit reading) valid visits.pointed known
  have creditRunning : ∀ (stretch : Stretch Reading) accum, stretch.current.getLast? = some prev →
      running accum = amount stretch.current →
        running (credit reading (current reading - signal.last) accum) =
          amount (stretch.current ++ [reading]) := by
    intro stretch accum latest same
    rw [visits.current]
    exact credits.running prev reading stretch.current accum latest same
  constructor
  case latest => exact List.getLast?_concat
  case current => exact advances.last
  case hash => exact advances.regionHashLast.trans (congrArg (hashOf · reading) advances.regionHashIdx.symm)
  case count => exact advances.epochCountLast.trans (congrArg (countOf · reading) advances.epochCountIdx.symm)
  case pointed => exact advances.pointed.trans advances.regionHashLast.symm
  case known =>
      intro point member
      apply advances.known
      rw [show (SampleAggregator.step true period periodLast credit current signal reading).regionHashIdx =
        signal.regionHashIdx from advances.regionHashIdx]
      rcases List.mem_append.mp member with old | new
      · exact .inr (visits.known point old)
      · exact .inl (by rw [List.mem_singleton.mp new])
  case region =>
      intro region marked
      have latest : (Stretch.along (hashOf signal.regionHashIdx) (· = region) points).current.getLast? =
        some prev := Stretch.along_getLast?.trans visits.latest
      have sameIdx : (SampleAggregator.step true period periodLast credit current signal
        reading).regionHashIdx = signal.regionHashIdx := advances.regionHashIdx
      have accum := advances.region region marked
      rw [sameIdx, Stretch.along_concat, show (SampleAggregator.step true period periodLast credit current
        signal reading).accumOf region = _ from accum]
      apply @Holds.step _ _ _ _ _ running last zero result amount (hashOf signal.regionHashIdx) (· = region)
        _ _ _ prev reading _ interval (visits.region region marked) latest (credits.single reading)
        (credits.last reading _ _) (creditRunning _ _ latest)
      · rw [visits.hash]
      · rw [visits.hash]
      · rw [visits.hash]
        exact fun other same => ⟨other, same⟩
      · rw [visits.hash]
        exact And.left
  case epoch =>
      have latest : (Stretch.along (countOf signal.epochCountIdx) (· ≠ 0) points).current.getLast? =
        some prev := Stretch.along_getLast?.trans visits.latest
      have sameIdx : (SampleAggregator.step true period periodLast credit current signal
        reading).epochCountIdx = signal.epochCountIdx := advances.epochCountIdx
      rw [sameIdx, Stretch.along_concat, show (SampleAggregator.step true period periodLast credit current
        signal reading).epochAccum = _ from advances.epoch]
      apply @Holds.step _ _ _ _ _ running last zero result amount (countOf signal.epochCountIdx) (· ≠ 0)
        _ _ _ prev reading _ interval visits.epoch latest (credits.single reading)
        (credits.last reading _ _) (creditRunning _ _ latest)
      · rw [visits.count]
      · rw [visits.count]
      · rw [visits.count]
        exact fun other _ => other
      · rw [visits.count]
        exact id

end Signals

/-- No hash of a region is invalid. -/
def HashesValid (regionHashIdx : Nat) (readings : List Reading) : Prop :=
  ∀ reading ∈ readings, hashOf regionHashIdx reading ≠ regionHashInvalid

/-- The signal is a number. -/
def Numeric (idx : Nat) (readings : List Reading) : Prop :=
  ∀ reading ∈ readings, ∃ rational, reading idx = .value rational

/-- The count of epochs does not go back to zero, as the signal increases monotonically. -/
def NeverCleared (epochCountIdx : Nat) (readings : List Reading) : Prop :=
  readings.Pairwise fun earlier later =>
    countOf epochCountIdx earlier ≠ 0 → countOf epochCountIdx later ≠ 0

/-- The signal weighted with the time before each reading. -/
def timeWeightedAverage (timeIdx idx : Nat) (run : List Reading) : Number :=
  increments (weighted timeIdx idx) run / change timeIdx run

section Runs

variable {Accum Running : Type} [Accumulator Accum] {running : Accum → Running}
  {last : Accum → Number} {zero : Running} {result : Running → Number}
  {amount : Nat → List Reading → Running} {credit : Nat → Reading → Number → Accum → Accum}
  {current : Nat → Reading → Number} {readings : List Reading} {prev reading : Reading}
  {idx timeIdx : Nat}

/-- A quantity that stays zero. -/
theorem measures_zero (credit : Reading → Number → Accum → Accum) (current : Reading → Number) :
    Measures (fun _ : Accum => 0) credit current fun _ _ => 0 :=
  ⟨rfl, fun _ => rfl, fun _ => rfl, fun _ _ _ => (add_zero 0).symm⟩

theorem Updated.visits {after : List Reading → List (Nat × AggregatedSignal Accum)}
    (updated : Updated credit current after) (interval : Interval running last zero result)
    (credits : ∀ idx, Credits running last zero (amount idx) (credit idx) (current idx))
    (latest : readings.getLast? = some prev) :
    ∀ entry ∈ after readings, HashesValid entry.2.regionHashIdx readings →
      Visits running last result (amount entry.1) (current entry.1) entry.2 readings prev := by
  induction readings using List.reverseRecOn generalizing prev with
  | nil => cases latest
  | append_singleton readings reading ih =>
      obtain rfl : reading = prev := by simpa using latest
      intro entry member valid
      obtain ⟨signal, period, periodLast, old, entry_eq⟩ := updated.next readings reading entry member
      obtain ⟨sameHash, _⟩ := @step_indices _ _ _ (credit entry.1) (current entry.1) _ signal reading
        period periodLast (measures_zero _ _) (!readings.isEmpty)
      rw [← entry_eq] at sameHash
      rw [sameHash] at valid
      rw [entry_eq]
      cases before : readings.getLast? with
      | none =>
          obtain rfl := List.getLast?_eq_none_iff.mp before
          obtain ⟨regionHashIdx, epochCountIdx, signal_eq⟩ := updated.fresh _ old
          simp only at signal_eq
          rw [signal_eq]
          exact visits_first interval (credits entry.1) _ _
      | some earlier =>
          have later : (!readings.isEmpty) = true := by
            cases readings with
            | nil => cases before
            | cons => rfl
          have visits := ih before _ old fun point known => valid point (List.mem_append_left _ known)
          rw [later]
          exact visits.step interval (credits entry.1) (valid reading (by simp))

theorem interval_current : Interval SumAccumulator.current SumAccumulator.last 0 id :=
  ⟨rfl, rfl, fun _ => rfl, fun _ => rfl, fun _ => rfl⟩

theorem credits_current (idx : Nat) :
    Credits SumAccumulator.current SumAccumulator.last 0
      (increments fun prev next => next idx - prev idx) (fun _ => SumAccumulator.update)
      (fun reading => reading idx) where
  single _ := rfl
  last _ _ _ := rfl
  running prev reading run accum latest same := by
    rw [increments_concat latest, ← same]
    rfl

/-- The integral and the time that an average is made of. -/
def currents (accum : AvgAccumulator) : Number × Number := (accum.currTotal, accum.currWeight)

def quotient (parts : Number × Number) : Number :=
  if parts.2.eq 0 then 0 else parts.1 / parts.2

theorem interval_currents : Interval currents AvgAccumulator.last (0, 0) quotient :=
  ⟨rfl, rfl, fun _ => rfl, fun _ => rfl, fun _ => rfl⟩

theorem credits_currents (timeIdx idx : Nat) :
    Credits currents AvgAccumulator.last (0, 0)
      (fun run => (increments (weighted timeIdx idx) run,
        increments (fun prev next => next timeIdx - prev timeIdx) run))
      (fun reading delta => AvgAccumulator.update delta (reading idx))
      (fun reading => reading timeIdx) where
  single _ := rfl
  last _ _ _ := rfl
  running prev reading run accum latest same := by
    obtain ⟨total, weight⟩ := Prod.mk.inj same
    rw [increments_concat latest, increments_concat latest, ← total, ← weight]
    rfl

theorem increments_weighted (times : Numeric timeIdx readings) (numbers : Numeric idx readings) :
    ∃ rational, increments (weighted timeIdx idx) readings = .value rational := by
  induction readings with
  | nil => exact ⟨0, rfl⟩
  | cons head rest ih =>
      cases rest with
      | nil => exact ⟨0, rfl⟩
      | cons second rest =>
          obtain ⟨first, first_eq⟩ := times head (by simp)
          obtain ⟨time, time_eq⟩ := times second (by simp)
          obtain ⟨number, number_eq⟩ := numbers second (by simp)
          obtain ⟨sum, sum_eq⟩ := ih (fun reading member => times reading (List.mem_cons_of_mem _ member))
            (fun reading member => numbers reading (List.mem_cons_of_mem _ member))
          rw [increments, sum_eq, weighted, first_eq, time_eq, number_eq]
          exact ⟨_, rfl⟩

/-- Where no time has passed, the quotient is zero as well. -/
theorem quotient_eq (times : Numeric timeIdx readings) (numbers : Numeric idx readings) :
    quotient (increments (weighted timeIdx idx) readings,
      increments (fun prev next => next timeIdx - prev timeIdx) readings) =
        timeWeightedAverage timeIdx idx readings := by
  rw [increments_change times, timeWeightedAverage, quotient]
  obtain ⟨total, total_eq⟩ := increments_weighted times numbers
  rw [total_eq]
  cases time : change timeIdx readings with
  | nan => rfl
  | value duration =>
      rw [Number.zero_eq, Number.eq_value]
      by_cases empty : duration = 0
      · simp [empty]
      · simp [empty]

end Runs

section Keys

variable {aggregator : SampleAggregator} {calls : List SetupCall} {readings : List Reading}
  {invalid : SampleError} {total : AggregatedSignal SumAccumulator → Number}
  {average : AggregatedSignal AvgAccumulator → Number}

/-- No index is pushed twice. -/
def Keyed (aggregator : SampleAggregator) : Prop :=
  (aggregator.sumSignal.map Prod.fst ++ aggregator.avgSignal.map Prod.fst).Nodup

theorem Keyed.setupCall {call : SetupCall} {next : SampleAggregator} (keyed : aggregator.Keyed)
    (done : aggregator.setupCall call = .ok next) : next.Keyed := by
  cases call with
  | periodDuration duration =>
      rw [SampleAggregator.setupCall, setPeriodDuration] at done
      split at done <;> cases done
      exact keyed
  | pushSignal behavior idx regionHashIdx epochCountIdx =>
      cases behavior with
      | constant => cases done
      | label => cases done
      | monotone =>
          rw [SampleAggregator.setupCall, pushSignal, pushSignalTotal] at done
          split_ifs at done with _ average total <;> cases done
          · exact keyed
          · rw [Keyed, List.map_append, List.append_assoc]
            refine (List.perm_middle.nodup_iff).mpr (List.nodup_cons.mpr ⟨?_, keyed⟩)
            rw [List.mem_append, not_or]
            exact ⟨total, average⟩
      | varying =>
          rw [SampleAggregator.setupCall, pushSignal, pushSignalAverage] at done
          split_ifs at done with _ total average <;> cases done
          · exact keyed
          · rw [Keyed, List.map_append, ← List.append_assoc]
            refine (List.perm_append_singleton _ _).nodup_iff.mpr (List.nodup_cons.mpr ⟨?_, keyed⟩)
            rw [List.mem_append, not_or]
            exact ⟨total, average⟩

theorem Keyed.afterSetup (keyed : aggregator.Keyed) : (aggregator.afterSetup calls).Keyed := by
  induction calls generalizing aggregator with
  | nil => exact keyed
  | cons call rest ih =>
      apply ih
      rw [afterCall]
      split
      case h_1 next done => exact keyed.setupCall done
      case h_2 => exact keyed

theorem Keyed.afterUpdates (keyed : aggregator.Keyed) : (aggregator.afterUpdates readings).Keyed := by
  induction readings generalizing aggregator with
  | nil => exact keyed
  | cons reading rest ih =>
      apply ih
      simpa [Keyed, update, updateTotal, updateAverage, Function.comp_def] using keyed

theorem Keyed.sampleSignal_sum (keyed : aggregator.Keyed) {entry : Nat × AggregatedSignal SumAccumulator}
    (member : entry ∈ aggregator.sumSignal) :
    aggregator.sampleSignal total average invalid entry.1 = .ok (total entry.2) := by
  rw [Keyed, List.nodup_append] at keyed
  rw [sampleSignal, Assoc.lookup_of_mem keyed.1 member]

theorem Keyed.sampleSignal_avg (keyed : aggregator.Keyed) {entry : Nat × AggregatedSignal AvgAccumulator}
    (member : entry ∈ aggregator.avgSignal) :
    aggregator.sampleSignal total average invalid entry.1 = .ok (average entry.2) := by
  rw [Keyed, List.nodup_append] at keyed
  have absent : entry.1 ∉ aggregator.sumSignal.map Prod.fst := fun known =>
    keyed.2.2 entry.1 known entry.1 (List.mem_map_of_mem member) rfl
  rw [sampleSignal, Assoc.lookup_eq_none absent, Assoc.lookup_of_mem keyed.2.1 member]

end Keys

section Samples

variable {Running Label : Type} {amount : List Reading → Running} {result : Running → Number}
  [DecidableEq Label] {label : Reading → Label} {wanted : Label → Prop} [DecidablePred wanted]
  {readings run : List Reading} {idx timeIdx region : Nat} {points : List Reading}

theorem measured_closed (closed : Stretch.LastClosed label wanted points run) :
    measured amount result (Stretch.along label wanted points) = result (amount run) := by
  rw [measured, Stretch.closed_along_iff.mpr closed]

theorem measured_never (never : ∀ run, ¬ Stretch.LastClosed label wanted points run) :
    measured amount result (Stretch.along label wanted points) = 0 := by
  rw [measured, Stretch.closed_along_eq_none never]

omit [DecidableEq Label] [DecidablePred wanted] in
theorem Numeric.closed (numbers : Numeric idx readings)
    (closed : Stretch.LastClosed label wanted readings run) : Numeric idx run :=
  fun reading member => numbers reading (closed.subset member)

theorem NeverCleared.betweenChanges_iff (cleared : NeverCleared idx readings) :
    Stretch.BetweenChanges (countOf idx) (· ≠ 0) readings run ↔
      Stretch.LastClosed (countOf idx) (· ≠ 0) readings run :=
  Stretch.betweenChanges_iff cleared fun left right zero other => by
    rw [not_not.mp zero, not_not.mp other]

theorem sampleRegionLast_sum {signal : AggregatedSignal SumAccumulator} :
    (match Assoc.lookup region signal.regionAccum with
      | none => 0
      | some accum => accum.last) = (signal.accumOf region).last := by
  rw [AggregatedSignal.accumOf]
  cases Assoc.lookup region signal.regionAccum <;> rfl

theorem sampleRegionLast_avg {signal : AggregatedSignal AvgAccumulator}
    (known : region ∈ signal.regionAccum.map Prod.fst) :
    (match Assoc.lookup region signal.regionAccum with
      | none => Number.nan
      | some accum => accum.last) = (signal.accumOf region).last := by
  obtain ⟨accum, found⟩ := Option.isSome_iff_exists.mp (AggregatedSignal.lookup_isSome_iff.mpr known)
  rw [AggregatedSignal.accumOf, found]
  rfl

end Samples

/-- What is returned for the last visit of a region and for the last epoch. -/
theorem sample_last (timeIdx : Nat) (calls : List SetupCall) (readings : List Reading)
    (some_read : readings ≠ []) :
    let aggregator := ((new timeIdx).afterSetup calls).afterUpdates readings
    (∀ entry ∈ aggregator.sumSignal, Numeric entry.1 readings →
      HashesValid entry.2.regionHashIdx readings →
      (∀ region, region ≠ unmarkedHash → region ≠ epochHash →
        (∀ visit, Stretch.LastClosed (hashOf entry.2.regionHashIdx) (· = region) readings visit →
          aggregator.sampleRegionLast entry.1 region = .ok (change entry.1 visit)) ∧
        ((∀ visit, ¬ Stretch.LastClosed (hashOf entry.2.regionHashIdx) (· = region) readings visit) →
          aggregator.sampleRegionLast entry.1 region = .ok 0)) ∧
      (NeverCleared entry.2.epochCountIdx readings →
        (∀ epoch, Stretch.BetweenChanges (countOf entry.2.epochCountIdx) (· ≠ 0) readings epoch →
          aggregator.sampleEpochLast entry.1 = .ok (change entry.1 epoch)) ∧
        ((∀ epoch, ¬ Stretch.BetweenChanges (countOf entry.2.epochCountIdx) (· ≠ 0) readings epoch) →
          aggregator.sampleEpochLast entry.1 = .ok 0))) ∧
    ∀ entry ∈ aggregator.avgSignal, Numeric timeIdx readings → Numeric entry.1 readings →
      HashesValid entry.2.regionHashIdx readings →
      (∀ region, region ≠ unmarkedHash → region ≠ epochHash →
        ∀ visit, Stretch.LastClosed (hashOf entry.2.regionHashIdx) (· = region) readings visit →
          aggregator.sampleRegionLast entry.1 region = .ok (timeWeightedAverage timeIdx entry.1 visit)) ∧
      (NeverCleared entry.2.epochCountIdx readings →
        ∀ epoch, Stretch.BetweenChanges (countOf entry.2.epochCountIdx) (· ≠ 0) readings epoch →
          aggregator.sampleEpochLast entry.1 = .ok (timeWeightedAverage timeIdx entry.1 epoch)) := by
  intro aggregator
  have fresh : ((new timeIdx).afterSetup calls).Fresh := new_fresh.afterSetup
  have keyed : aggregator.Keyed := Keyed.afterUpdates (Keyed.afterSetup (by simp [Keyed, new]))
  have sameTime : ((new timeIdx).afterSetup calls).timeIdx = timeIdx := timeIdx_afterSetup
  have updated : aggregator.isUpdated = true := by
    rw [fresh.isUpdated_afterUpdates]
    simpa using some_read
  obtain ⟨prev, latest⟩ : ∃ prev, readings.getLast? = some prev :=
    ⟨_, List.getLast?_eq_some_getLast some_read⟩
  constructor
  · intro entry member numbers valid
    have visits := fresh.updatedTotal.visits interval_current credits_current latest entry member valid
    constructor
    · intro region marked other
      have sampled : aggregator.sampleRegionLast entry.1 region = .ok (entry.2.accumOf region).last := by
        rw [sampleRegionLast, updated, if_neg (by simp), if_neg other, sampleRegionHelper,
          keyed.sampleSignal_sum member]
        exact congrArg Except.ok sampleRegionLast_sum
      rw [sampled, (visits.region region marked).closed]
      constructor
      · intro visit closed
        rw [measured_closed closed, id_eq, increments_change (numbers.closed closed)]
      · intro never
        rw [measured_never never]
    · intro cleared
      have sampled : aggregator.sampleEpochLast entry.1 = .ok entry.2.epochAccum.last := by
        rw [sampleEpochLast, updated, if_neg (by simp), sampleEpochHelper, keyed.sampleSignal_sum member]
        rfl
      rw [sampled, visits.epoch.closed]
      constructor
      · intro epoch between
        have closed := cleared.betweenChanges_iff.mp between
        rw [measured_closed closed, id_eq, increments_change (numbers.closed closed)]
      · intro never
        rw [measured_never fun epoch closed => never epoch (cleared.betweenChanges_iff.mpr closed)]
  · intro entry member times numbers valid
    have average := fresh.updatedAverage
    rw [sameTime] at average
    have visits := average.visits interval_currents (credits_currents timeIdx) latest entry member valid
    constructor
    · intro region marked other visit closed
      obtain ⟨point, seen, same⟩ := closed.exists_wanted
      have sampled : aggregator.sampleRegionLast entry.1 region = .ok (entry.2.accumOf region).last := by
        rw [sampleRegionLast, updated, if_neg (by simp), if_neg other, sampleRegionHelper,
          keyed.sampleSignal_avg member]
        exact congrArg Except.ok (sampleRegionLast_avg (same ▸ visits.known point seen))
      rw [sampled, (visits.region region marked).closed, measured_closed closed,
        quotient_eq (times.closed closed) (numbers.closed closed)]
    · intro cleared epoch between
      have closed := cleared.betweenChanges_iff.mp between
      have sampled : aggregator.sampleEpochLast entry.1 = .ok entry.2.epochAccum.last := by
        rw [sampleEpochLast, updated, if_neg (by simp), sampleEpochHelper, keyed.sampleSignal_avg member]
        rfl
      rw [sampled, visits.epoch.closed, measured_closed closed,
        quotient_eq (times.closed closed) (numbers.closed closed)]

/-- A region that is entered again, and two epochs. -/
def returning : List Reading :=
  [readingOf (.value 1) (.value 10) (.value 7) (.value 0),
    readingOf (.value 2) (.value 14) (.value 7) (.value 1),
    readingOf (.value 3) (.value 19) (.value 9) (.value 2),
    readingOf (.value 4) (.value 30) (.value 7) (.value 2)]

theorem sample_last_returning :
    (∀ entry ∈ (((new 0).afterSetup [.pushSignal .monotone 1 2 3]).afterUpdates returning).sumSignal,
      (((new 0).afterSetup [.pushSignal .monotone 1 2 3]).afterUpdates returning).sampleRegionLast entry.1 7 =
        .ok (.value 9) ∧
      (((new 0).afterSetup [.pushSignal .monotone 1 2 3]).afterUpdates returning).sampleEpochLast entry.1 =
        .ok (.value 5)) ∧
    ∀ entry ∈ (((new 0).afterSetup [.pushSignal .varying 1 2 3]).afterUpdates returning).avgSignal,
      (((new 0).afterSetup [.pushSignal .varying 1 2 3]).afterUpdates returning).sampleRegionLast entry.1 7 =
        .ok (.value (33 / 2)) ∧
      (((new 0).afterSetup [.pushSignal .varying 1 2 3]).afterUpdates returning).sampleEpochLast entry.1 =
        .ok (.value 19) := by
  have numbers : ∀ idx < 2, Numeric idx returning := by
    intro idx less reading member
    have place : idx = 0 ∨ idx = 1 := by omega
    simp only [returning, List.mem_cons, List.not_mem_nil, or_false] at member
    rcases member with rfl | rfl | rfl | rfl <;> rcases place with rfl | rfl <;> exact ⟨_, rfl⟩
  have valid : HashesValid 2 returning := by unfold HashesValid; decide +kernel
  have cleared : NeverCleared 3 returning := by unfold NeverCleared; decide +kernel
  have visit : Stretch.LastClosed (hashOf 2) (· = 7) returning (returning.take 3) :=
    .intro [] (returning.take 2) _ _ 7 (by simp [returning]) rfl (by decide +kernel) (by simp)
      (by decide +kernel) (by decide +kernel)
  have epoch : Stretch.BetweenChanges (countOf 3) (· ≠ 0) returning ((returning.drop 1).take 2) :=
    .intro (returning.take 1) _ [] _ _ (by simp [returning]) (by decide +kernel) (by simp)
      (by decide +kernel) (by decide +kernel)
  constructor
  · intro entry member
    obtain rfl := List.mem_singleton.mp (show entry ∈ [_] from member)
    obtain ⟨regions, epochs⟩ := (sample_last 0 [.pushSignal .monotone 1 2 3] returning
      (by simp [returning])).1 _ member (numbers 1 (by decide)) valid
    have region := (regions 7 (by decide) (by decide)).1 _ visit
    have interval := (epochs cleared).1 _ epoch
    exact ⟨region.trans (by decide +kernel), interval.trans (by decide +kernel)⟩
  · intro entry member
    obtain rfl := List.mem_singleton.mp (show entry ∈ [_] from member)
    obtain ⟨regions, epochs⟩ := (sample_last 0 [.pushSignal .varying 1 2 3] returning
      (by simp [returning])).2 _ member (numbers 0 (by decide)) (numbers 1 (by decide)) valid
    have region := regions 7 (by decide) (by decide) _ visit
    have interval := epochs cleared _ epoch
    exact ⟨region.trans (by decide +kernel), interval.trans (by decide +kernel)⟩

end SampleAggregator

end Geopm
