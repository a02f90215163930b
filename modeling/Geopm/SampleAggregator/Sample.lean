import Geopm.Library.Assoc
import Geopm.Library.Stretch
import Geopm.SampleAggregator

namespace Geopm

/-! What `SampleAggregator` returns of its signals, and what an update does to the accumulators that
close an interval. -/

/-- `GEOPM_REGION_HASH_EPOCH`. -/
def epochHash : Nat := 0x66c91423

/-- `GEOPM_REGION_HASH_APP`. -/
def appHash : Nat := 0x9d540c53

/-- "Invalid signal index: signal index not pushed with push_signal_total() or
push_signal_average()", with the name of a function before it. -/
inductive SampleError where
  /-- "SampleAggregator::sample_application(): " -/
  | sampleApplication
  /-- "SampleAggregator::sample_epoch(): " -/
  | sampleEpoch
  /-- "SampleAggregator::sample_region(): " -/
  | sampleRegion
  /-- "SampleAggregator::sample_period(): " -/
  | samplePeriod
deriving Repr, DecidableEq

namespace SampleAggregator

/-- A quantity of the signal of an index, which was pushed for a total or for an average. -/
def sampleSignal (total : AggregatedSignal SumAccumulator → Number)
    (average : AggregatedSignal AvgAccumulator → Number) (invalid : SampleError) (idx : Nat)
    (aggregator : SampleAggregator) : Except SampleError Number :=
  match Assoc.lookup idx aggregator.sumSignal with
  | some signal => .ok (total signal)
  | none =>
      match Assoc.lookup idx aggregator.avgSignal with
      | some signal => .ok (average signal)
      | none => .error invalid

/-- `sample_application`. -/
def sampleApplication (idx : Nat) (aggregator : SampleAggregator) : Except SampleError Number :=
  if !aggregator.isUpdated then .ok .nan
  else aggregator.sampleSignal (·.appAccum.total) (·.appAccum.average) .sampleApplication idx

/-- `sample_epoch_helper`. -/
def sampleEpochHelper (idx : Nat) (isLast : Bool) (aggregator : SampleAggregator) :
    Except SampleError Number :=
  aggregator.sampleSignal
    (fun signal => if isLast then signal.epochAccum.last else signal.epochAccum.total)
    (fun signal => if isLast then signal.epochAccum.last else signal.epochAccum.average)
    .sampleEpoch idx

/-- `sample_epoch`. -/
def sampleEpoch (idx : Nat) (aggregator : SampleAggregator) : Except SampleError Number :=
  if !aggregator.isUpdated then .ok .nan else aggregator.sampleEpochHelper idx false

/-- `sample_epoch_last`. -/
def sampleEpochLast (idx : Nat) (aggregator : SampleAggregator) : Except SampleError Number :=
  if !aggregator.isUpdated then .ok .nan else aggregator.sampleEpochHelper idx true

/-- `sample_region_helper`. -/
def sampleRegionHelper (idx regionHash : Nat) (isLast : Bool) (aggregator : SampleAggregator) :
    Except SampleError Number :=
  aggregator.sampleSignal
    (fun signal =>
      match Assoc.lookup regionHash signal.regionAccum with
      | none => 0
      | some accum => if isLast then accum.last else accum.total)
    (fun signal =>
      match Assoc.lookup regionHash signal.regionAccum with
      | none => .nan
      | some accum => if isLast then accum.last else accum.average)
    .sampleRegion idx

/-- `sample_region`. -/
def sampleRegion (idx regionHash : Nat) (aggregator : SampleAggregator) :
    Except SampleError Number :=
  if !aggregator.isUpdated then .ok .nan
  else if regionHash = epochHash then aggregator.sampleEpoch idx
  else if regionHash = appHash then aggregator.sampleApplication idx
  else aggregator.sampleRegionHelper idx regionHash false

/-- `sample_region_last`. -/
def sampleRegionLast (idx regionHash : Nat) (aggregator : SampleAggregator) :
    Except SampleError Number :=
  if !aggregator.isUpdated then .ok .nan
  else if regionHash = epochHash then aggregator.sampleEpochLast idx
  else aggregator.sampleRegionHelper idx regionHash true

end SampleAggregator

namespace AggregatedSignal

variable {Accum : Type} {hash other : Nat} {update : Accum → Accum}
  {regionAccum : List (Nat × Accum)}

theorem lookup_modifyAt : Assoc.lookup other (modifyAt hash update regionAccum) =
    if other = hash then (Assoc.lookup other regionAccum).map update
    else Assoc.lookup other regionAccum := by
  induction regionAccum with
  | nil => simp [modifyAt, Assoc.lookup]
  | cons entry rest ih =>
      rw [modifyAt]
      by_cases found : entry.1 = hash
      · rw [if_pos found]
        by_cases same : other = hash
        · simp [Assoc.lookup, found, same]
        · have different : ¬ entry.1 = other := fun equal => same (equal.symm.trans found)
          simp [Assoc.lookup, different, same]
      · rw [if_neg found]
        by_cases same : entry.1 = other
        · have different : ¬ other = hash := fun equal => found (same.trans equal)
          simp [Assoc.lookup, same, different]
        · rw [Assoc.lookup, List.find?_cons_of_neg (by simpa using same), ← Assoc.lookup, ih,
            Assoc.lookup, Assoc.lookup, List.find?_cons_of_neg (by simpa using same)]

variable [Accumulator Accum] {signal : AggregatedSignal Accum}

/-- The accumulator of a region, a new one if the region was not entered. -/
def accumOf (hash : Nat) (signal : AggregatedSignal Accum) : Accum :=
  (Assoc.lookup hash signal.regionAccum).getD Accumulator.makeUnique

/-- An update of an accumulator: a credit if it is running, an exit and an enter. -/
def through (runs ends begins : Prop) [Decidable runs] [Decidable ends] [Decidable begins]
    (credit : Accum → Accum) (accum : Accum) : Accum :=
  let credited := if runs then credit accum else accum
  let exited := if ends then Accumulator.exit credited else credited
  if begins then Accumulator.enter exited else exited

omit [Accumulator Accum] in
theorem lookup_isSome_iff : (Assoc.lookup hash regionAccum).isSome ↔
    hash ∈ regionAccum.map Prod.fst := by
  simp [Assoc.lookup]

/-- A call on the accumulator at which `region_accum_it` points is one on that of its hash. -/
theorem accumOf_modifyRegion (known : signal.regionAccumIt ∈ signal.regionAccum.map Prod.fst) :
    (signal.modifyRegion update).accumOf hash =
      if hash = signal.regionAccumIt then update (signal.accumOf hash) else signal.accumOf hash := by
  rw [accumOf, modifyRegion, lookup_modifyAt]
  split
  case isTrue same =>
      obtain ⟨accum, found⟩ := Option.isSome_iff_exists.mp (lookup_isSome_iff.mpr known)
      rw [accumOf, same, found]
      rfl
  case isFalse => rfl

theorem accumOf_emplaceHash : (signal.emplaceHash other).accumOf hash = signal.accumOf hash := by
  simp only [accumOf, emplaceHash]
  split
  case isTrue => rfl
  case isFalse unknown =>
      rw [Assoc.lookup, List.find?_append]
      by_cases same : other = hash
      · have missing : Assoc.lookup hash signal.regionAccum = none := by
          rw [← Option.not_isSome_iff_eq_none, lookup_isSome_iff, ← same]
          exact unknown
        rw [missing]
        rw [Assoc.lookup, Option.map_eq_none_iff] at missing
        simp [missing, same]
      · simp [Assoc.lookup, same]

/-- What an update with a valid hash does, of a signal whose iterator points at the accumulator of the
last hash. -/
structure Advances (period periodLast : Int) (current : Number) (credit : Number → Accum → Accum)
    (hash : Nat) (epochCount : Int) (before after : AggregatedSignal Accum) : Prop where
  regionHashIdx : after.regionHashIdx = before.regionHashIdx
  epochCountIdx : after.epochCountIdx = before.epochCountIdx
  last : after.last = current
  regionHashLast : after.regionHashLast = hash
  epochCountLast : after.epochCountLast = epochCount
  pointed : after.regionAccumIt = hash
  known : ∀ other, other = hash ∨ other ∈ before.regionAccum.map Prod.fst →
    other ∈ after.regionAccum.map Prod.fst
  region : ∀ other ≠ unmarkedHash, after.accumOf other =
    through (before.regionHashLast = other)
      (before.regionHashLast ≠ hash ∧ before.regionHashLast = other)
      (before.regionHashLast ≠ hash ∧ hash = other) (credit (current - before.last))
      (before.accumOf other)
  epoch : after.epochAccum =
    through (before.epochCountLast ≠ 0)
      (before.epochCountLast ≠ epochCount ∧ before.epochCountLast ≠ 0)
      (before.epochCountLast ≠ epochCount) (credit (current - before.last)) before.epochAccum
  period : after.periodAccum =
    through True (period ≠ periodLast ∧ period ≠ 0) (period ≠ periodLast)
      (credit (current - before.last)) before.periodAccum

variable {period periodLast epochCount : Int} {current : Number} {credit : Number → Accum → Accum}

omit [Accumulator Accum] in
theorem keys_modifyRegion :
    (signal.modifyRegion update).regionAccum.map Prod.fst = signal.regionAccum.map Prod.fst :=
  SampleAggregator.keys_modifyAt

/-- The last hash is left, and another one is entered. -/
def changeRegion (hash : Nat) (signal : AggregatedSignal Accum) : AggregatedSignal Accum :=
  let signal := signal.updateHashExit hash
  let signal := if signal.regionHashLast ≠ hash then signal.emplaceHash hash else signal
  signal.updateHashEnter hash

theorem changeRegion_same (same : signal.regionHashLast = hash) : signal.changeRegion hash = signal := by
  simp [changeRegion, updateHashExit, updateHashEnter, same]

theorem changeRegion_other (other : signal.regionHashLast ≠ hash) :
    signal.changeRegion hash =
      let exited :=
        if signal.regionHashLast ≠ unmarkedHash then signal.modifyRegion Accumulator.exit else signal
      let emplaced := exited.emplaceHash hash
      if hash ≠ unmarkedHash then emplaced.modifyRegion Accumulator.enter else emplaced := by
  have kept : (signal.updateHashExit hash).regionHashLast = signal.regionHashLast := by
    rw [updateHashExit]
    split <;> rfl
  rw [changeRegion]
  simp only [kept, if_pos other]
  have exited : ((signal.updateHashExit hash).emplaceHash hash).regionHashLast =
    signal.regionHashLast := kept
  simp only [updateHashEnter, exited, and_iff_right other]
  simp only [updateHashExit, and_iff_right other]

/-- What does not concern the regions is left as it is. -/
theorem changeRegion_kept :
    (signal.changeRegion hash).regionHashIdx = signal.regionHashIdx ∧
      (signal.changeRegion hash).epochCountIdx = signal.epochCountIdx ∧
      (signal.changeRegion hash).epochCountLast = signal.epochCountLast ∧
      (signal.changeRegion hash).epochAccum = signal.epochAccum ∧
      (signal.changeRegion hash).periodAccum = signal.periodAccum := by
  by_cases same : signal.regionHashLast = hash
  · rw [changeRegion_same same]
    exact ⟨rfl, rfl, rfl, rfl, rfl⟩
  · rw [changeRegion_other same]
    simp only
    split <;> split <;> exact ⟨rfl, rfl, rfl, rfl, rfl⟩

theorem changeRegion_pointed (pointed : signal.regionAccumIt = signal.regionHashLast) :
    (signal.changeRegion hash).regionAccumIt = hash := by
  by_cases same : signal.regionHashLast = hash
  · rw [changeRegion_same same, pointed, same]
  · rw [changeRegion_other same]
    simp only
    split <;> rfl

theorem changeRegion_known (known : signal.regionHashLast ∈ signal.regionAccum.map Prod.fst)
    {other : Nat} (member : other = hash ∨ other ∈ signal.regionAccum.map Prod.fst) :
    other ∈ (signal.changeRegion hash).regionAccum.map Prod.fst := by
  have emplaced : ∀ signal : AggregatedSignal Accum,
      (other = hash ∨ other ∈ signal.regionAccum.map Prod.fst) →
        other ∈ (signal.emplaceHash hash).regionAccum.map Prod.fst := by
    intro signal member
    simp only [emplaceHash]
    split
    case isTrue present => exact member.elim (fun same => same ▸ present) id
    case isFalse => simpa [or_comm] using member
  by_cases same : signal.regionHashLast = hash
  · rw [changeRegion_same same]
    exact member.elim (fun equal => equal ▸ same ▸ known) id
  · rw [changeRegion_other same]
    simp only
    have exited : other = hash ∨ other ∈ (if signal.regionHashLast ≠ unmarkedHash then
        signal.modifyRegion Accumulator.exit else signal).regionAccum.map Prod.fst := by
      refine member.imp_right fun present => ?_
      split
      · rw [keys_modifyRegion]
        exact present
      · exact present
    split
    · rw [keys_modifyRegion]
      exact emplaced _ exited
    · exact emplaced _ exited

theorem changeRegion_accumOf (pointed : signal.regionAccumIt = signal.regionHashLast)
    (known : signal.regionHashLast ∈ signal.regionAccum.map Prod.fst) {other : Nat}
    (marked : other ≠ unmarkedHash) :
    (signal.changeRegion hash).accumOf other =
      through False (signal.regionHashLast ≠ hash ∧ signal.regionHashLast = other)
        (signal.regionHashLast ≠ hash ∧ hash = other) id (signal.accumOf other) := by
  by_cases same : signal.regionHashLast = hash
  · rw [changeRegion_same same]
    simp [through, same]
  · have exited : (if signal.regionHashLast ≠ unmarkedHash then signal.modifyRegion Accumulator.exit
        else signal).accumOf other =
          if signal.regionHashLast = other then Accumulator.exit (signal.accumOf other)
          else signal.accumOf other := by
      split
      case isTrue =>
          rw [accumOf_modifyRegion (pointed ▸ known), pointed]
          simp only [eq_comm]
      case isFalse unmarked =>
          rw [if_neg fun equal => marked (equal.symm.trans (not_not.mp unmarked))]
    have emplaced : ((if signal.regionHashLast ≠ unmarkedHash then
        signal.modifyRegion Accumulator.exit else signal).emplaceHash hash).accumOf other =
          if signal.regionHashLast = other then Accumulator.exit (signal.accumOf other)
          else signal.accumOf other := accumOf_emplaceHash.trans exited
    rw [changeRegion_other same]
    simp only [through, if_false, id_eq, ne_eq, same, not_false_eq_true, true_and]
    by_cases unmarked : hash = unmarkedHash
    · have elsewhere : ¬ hash = other := fun equal => marked (equal.symm.trans unmarked)
      rw [if_neg (not_not.mpr unmarked), emplaced]
      simp only [elsewhere, if_false]
    · rw [if_pos unmarked, accumOf_modifyRegion SampleAggregator.emplaceHash_pointed, emplaced]
      exact if_congr eq_comm rfl rfl

/-- An epoch ends and begins where the count changes. -/
theorem updateEpoch_through : let after := signal.updateEpoch epochCount
    after.regionAccum = signal.regionAccum ∧ after.regionHashLast = signal.regionHashLast ∧
      after.regionAccumIt = signal.regionAccumIt ∧ after.regionHashIdx = signal.regionHashIdx ∧
      after.epochCountIdx = signal.epochCountIdx ∧ after.periodAccum = signal.periodAccum ∧
      after.epochCountLast = epochCount ∧
      after.epochAccum = through False (signal.epochCountLast ≠ epochCount ∧ signal.epochCountLast ≠ 0)
        (signal.epochCountLast ≠ epochCount) id signal.epochAccum := by
  rw [updateEpoch]
  by_cases same : epochCount = signal.epochCountLast
  · rw [if_neg (not_not.mpr same)]
    refine ⟨rfl, rfl, rfl, rfl, rfl, rfl, same.symm, ?_⟩
    simp [through, same]
  · rw [if_pos same]
    refine ⟨rfl, rfl, rfl, rfl, rfl, rfl, rfl, ?_⟩
    simp [through, Ne.symm same]

/-- A period ends and begins where its number changes. -/
theorem updatePeriod_through : let after := if period ≠ periodLast then signal.updatePeriod period else signal
    after.regionAccum = signal.regionAccum ∧ after.regionAccumIt = signal.regionAccumIt ∧
      after.regionHashIdx = signal.regionHashIdx ∧ after.epochCountIdx = signal.epochCountIdx ∧
      after.epochCountLast = signal.epochCountLast ∧ after.epochAccum = signal.epochAccum ∧
      after.periodAccum =
        through False (period ≠ periodLast ∧ period ≠ 0) (period ≠ periodLast) id signal.periodAccum := by
  by_cases same : period = periodLast
  · rw [if_neg (not_not.mpr same)]
    refine ⟨rfl, rfl, rfl, rfl, rfl, rfl, ?_⟩
    simp [through, same]
  · rw [if_pos same]
    refine ⟨rfl, rfl, rfl, rfl, rfl, rfl, ?_⟩
    simp [through, updatePeriod, same]

theorem update_advances (valid : hash ≠ regionHashInvalid)
    (pointed : signal.regionAccumIt = signal.regionHashLast)
    (known : signal.regionHashLast ∈ signal.regionAccum.map Prod.fst) :
    Advances period periodLast current credit hash epochCount signal
      (signal.update true period periodLast current credit hash epochCount) := by
  -- the update is a credit, an epoch, a change of the region and a period, one after the other
  let credited := signal.creditInterval (credit (current - signal.last))
  let epoch := credited.updateEpoch epochCount
  let changed := epoch.changeRegion hash
  let ended := if period ≠ periodLast then changed.updatePeriod period else changed
  have unfolded : signal.update true period periodLast current credit hash epochCount =
      { ended with regionHashLast := hash, last := current } := by
    rw [update, if_neg (by simp), if_pos valid]
    rfl
  have creditedKnown : credited.regionAccum.map Prod.fst = signal.regionAccum.map Prod.fst :=
    SampleAggregator.keys_modifyAt
  have creditedRegion : ∀ other, credited.accumOf other =
      if signal.regionHashLast = other then credit (current - signal.last) (signal.accumOf other)
      else signal.accumOf other := by
    intro other
    refine (accumOf_modifyRegion (pointed ▸ known)).trans ?_
    rw [pointed]
    exact if_congr eq_comm rfl rfl
  obtain ⟨epochRegions, epochLast, epochIt, epochHashIdx, epochCountIdx, epochPeriod, counted, epochs⟩ :=
    @updateEpoch_through _ _ credited epochCount
  obtain ⟨changedHashIdx, changedCountIdx, changedCount, changedEpoch, changedPeriod⟩ :=
    @changeRegion_kept _ hash _ epoch
  have epochPointed : epoch.regionAccumIt = epoch.regionHashLast :=
    epochIt.trans (pointed.trans epochLast.symm)
  have epochKnown : epoch.regionHashLast ∈ epoch.regionAccum.map Prod.fst := by
    rw [epochLast, epochRegions, creditedKnown]
    exact known
  obtain ⟨endedRegions, endedIt, endedHashIdx, endedCountIdx, endedCount, endedEpoch, endedPeriod⟩ :=
    @updatePeriod_through _ _ changed period periodLast
  rw [unfolded]
  constructor
  case regionHashIdx => exact endedHashIdx.trans (changedHashIdx.trans epochHashIdx)
  case epochCountIdx => exact endedCountIdx.trans (changedCountIdx.trans epochCountIdx)
  case last => rfl
  case regionHashLast => rfl
  case epochCountLast => exact endedCount.trans (changedCount.trans counted)
  case pointed => exact endedIt.trans (changeRegion_pointed epochPointed)
  case known =>
      intro other member
      rw [← creditedKnown, ← epochRegions] at member
      exact (congrArg (fun regions => other ∈ regions.map Prod.fst) endedRegions).mpr
        (changeRegion_known epochKnown member)
  case region =>
      intro other marked
      have left := @changeRegion_accumOf _ hash _ epoch epochPointed epochKnown other marked
      have entered : epoch.accumOf other = credited.accumOf other := by rw [accumOf, epochRegions, accumOf]
      rw [entered, creditedRegion, epochLast] at left
      refine Eq.trans ?_ left
      rw [accumOf, accumOf, endedRegions]
  case epoch => exact endedEpoch.trans (changedEpoch.trans epochs)
  case period =>
      rw [changedPeriod, epochPeriod] at endedPeriod
      exact endedPeriod

end AggregatedSignal

namespace SampleAggregator

section Stretches

variable {Accum Running Label : Type} [Accumulator Accum] [DecidableEq Label]
  {running : Accum → Running} {last : Accum → Number} {zero : Running} {result : Running → Number}
  {amount : List Reading → Running} {label : Reading → Label} {wanted : Label → Prop}
  [DecidablePred wanted] {accum : Accum} {stretch : Stretch Reading} {prev reading : Reading}
  {credit : Accum → Accum}

/-- What an enter clears, and what an exit makes the last result of. -/
structure Interval (running : Accum → Running) (last : Accum → Number) (zero : Running)
    (result : Running → Number) : Prop where
  fresh : running Accumulator.makeUnique = zero
  freshLast : last Accumulator.makeUnique = 0
  enter : ∀ accum, running (Accumulator.enter accum) = zero
  enterLast : ∀ accum, last (Accumulator.enter accum) = last accum
  exitLast : ∀ accum, last (Accumulator.exit accum) = result (running accum)

/-- What was measured over the stretch that was closed last, zero if there is none. -/
def measured (amount : List Reading → Running) (result : Running → Number)
    (stretch : Stretch Reading) : Number :=
  match stretch.closed with
  | none => 0
  | some run => result (amount run)

/-- An accumulator has the result of the closed stretch, and is on its way through the current one. -/
structure Holds (running : Accum → Running) (last : Accum → Number) (amount : List Reading → Running)
    (result : Running → Number) (active : Prop) (accum : Accum) (stretch : Stretch Reading) : Prop where
  closed : last accum = measured amount result stretch
  current : active → running accum = amount stretch.current

/-- An update that credits a wanted stretch, exits at its end and enters at its beginning. -/
theorem Holds.step (interval : Interval running last zero result)
    (holds : Holds running last amount result (wanted (label prev)) accum stretch)
    (latest : stretch.current.getLast? = some prev) (single : amount [reading] = zero)
    (creditLast : last (credit accum) = last accum)
    (creditRunning : running accum = amount stretch.current →
      running (credit accum) = amount (stretch.current ++ [reading]))
    {runs ends begins : Prop} [Decidable runs] [Decidable ends] [Decidable begins]
    (runs_iff : runs ↔ wanted (label prev))
    (ends_iff : ends ↔ label prev ≠ label reading ∧ wanted (label prev))
    (begins_of : label prev ≠ label reading → wanted (label reading) → begins)
    (changes : begins → label prev ≠ label reading) :
    Holds running last amount result (wanted (label reading))
      (AggregatedSignal.through runs ends begins credit accum)
      (stretch.next label wanted reading) := by
  by_cases same : label prev = label reading
  · have stays : ¬ ends := fun ended => (ends_iff.mp ended).1 same
    have goesOn : ¬ begins := fun begun => changes begun same
    rw [Stretch.next_same latest same]
    simp only [AggregatedSignal.through, stays, goesOn, if_false]
    constructor
    · refine Eq.trans ?_ holds.closed
      split
      · exact creditLast
      · rfl
    · intro active
      have was : wanted (label prev) := same ▸ active
      rw [if_pos (runs_iff.mpr was)]
      exact creditRunning (holds.current was)
  · rw [Stretch.next_other latest same]
    constructor
    · by_cases was : wanted (label prev)
      · have ended := ends_iff.mpr ⟨same, was⟩
        simp only [AggregatedSignal.through, runs_iff.mpr was, ended, if_true, measured, was]
        rw [← creditRunning (holds.current was), ← interval.exitLast]
        split
        · exact interval.enterLast _
        · rfl
      · have stays : ¬ ends := fun ended => was (ends_iff.mp ended).2
        simp only [AggregatedSignal.through, mt runs_iff.mp was, stays, if_false, measured, was]
        refine Eq.trans ?_ holds.closed
        split
        · exact interval.enterLast _
        · rfl
    · intro active
      have begun := begins_of same active
      simp only [AggregatedSignal.through, begun, if_true, single]
      exact interval.enter _

end Stretches

end SampleAggregator

end Geopm
