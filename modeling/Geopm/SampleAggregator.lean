import Geopm.Library.Number
import Geopm.Record
import Mathlib.Algebra.BigOperators.Group.List.Basic
import Mathlib.Data.List.Induction
import Mathlib.Data.List.TakeWhile

namespace Geopm

/-! `SampleAggregator`: totals and averages of signals over the application, its regions,
epochs and periods. -/

/-- `GEOPM_REGION_HASH_UNMARKED`, as it is read from a signal. -/
def unmarkedHash : Nat := 0x725e8066

/-- `SumAccumulatorImp`. -/
structure SumAccumulator where
  total : Number
  current : Number
  last : Number
deriving Repr, DecidableEq

/-- `AvgAccumulatorImp`. -/
structure AvgAccumulator where
  total : Number
  weight : Number
  currTotal : Number
  currWeight : Number
  last : Number
deriving Repr, DecidableEq

/-- What the templates use of an accumulator. -/
class Accumulator (Accum : Type) where
  makeUnique : Accum
  enter : Accum → Accum
  exit : Accum → Accum

namespace SumAccumulator

def update (deltaSignal : Number) (accum : SumAccumulator) : SumAccumulator :=
  { accum with total := accum.total + deltaSignal, current := accum.current + deltaSignal }

instance : Accumulator SumAccumulator where
  makeUnique := ⟨0, 0, 0⟩
  enter accum := { accum with current := 0 }
  exit accum := { accum with last := accum.current }

end SumAccumulator

namespace AvgAccumulator

def update (deltaTime signal : Number) (accum : AvgAccumulator) : AvgAccumulator :=
  { accum with
    total := accum.total + deltaTime * signal
    weight := accum.weight + deltaTime
    currTotal := accum.currTotal + deltaTime * signal
    currWeight := accum.currWeight + deltaTime }

instance : Accumulator AvgAccumulator where
  makeUnique := ⟨0, 0, 0, 0, 0⟩
  enter accum := { accum with currTotal := 0, currWeight := 0 }
  exit accum := { accum with
    last := if accum.currWeight.eq 0 then 0 else accum.currTotal / accum.currWeight }

/-- `average`. -/
def average (accum : AvgAccumulator) : Number :=
  if accum.weight.eq 0 then 0 else accum.total / accum.weight

end AvgAccumulator

/-- `m_sum_signal_s` and `m_avg_signal_s`, where `last` is `sample_last` or `time_last`. The iterator
`region_accum_it` is the hash at which it points. -/
structure AggregatedSignal (Accum : Type) where
  last : Number
  regionHashIdx : Nat
  regionHashLast : Nat
  epochCountIdx : Nat
  epochCountLast : Int
  appAccum : Accum
  epochAccum : Accum
  periodAccum : Accum
  regionAccum : List (Nat × Accum)
  regionAccumIt : Nat

namespace AggregatedSignal

variable {Accum : Type}

/-- A call on the accumulator of a hash. -/
def modifyAt (hash : Nat) (change : Accum → Accum) : List (Nat × Accum) → List (Nat × Accum)
  | [] => []
  | entry :: rest =>
      if entry.1 = hash then (entry.1, change entry.2) :: rest
      else entry :: modifyAt hash change rest

/-- A call on the accumulator at which `region_accum_it` points. -/
def modifyRegion (change : Accum → Accum) (signal : AggregatedSignal Accum) :
    AggregatedSignal Accum :=
  { signal with regionAccum := modifyAt signal.regionAccumIt change signal.regionAccum }

variable [Accumulator Accum]

/-- `sample_aggregator_emplace_hash`, with the assignment to `region_accum_it`. -/
def emplaceHash (hash : Nat) (signal : AggregatedSignal Accum) : AggregatedSignal Accum :=
  { signal with
    regionAccumIt := hash
    regionAccum :=
      if hash ∈ signal.regionAccum.map Prod.fst then signal.regionAccum
      else signal.regionAccum ++ [(hash, Accumulator.makeUnique)] }

/-- `sample_aggregator_update_epoch`. -/
def updateEpoch (epochCount : Int) (signal : AggregatedSignal Accum) : AggregatedSignal Accum :=
  if epochCount ≠ signal.epochCountLast then
    let exited :=
      if signal.epochCountLast ≠ 0 then Accumulator.exit signal.epochAccum else signal.epochAccum
    { signal with epochAccum := Accumulator.enter exited, epochCountLast := epochCount }
  else signal

/-- `sample_aggregator_update_hash_exit`. -/
def updateHashExit (hash : Nat) (signal : AggregatedSignal Accum) : AggregatedSignal Accum :=
  if signal.regionHashLast ≠ hash ∧ signal.regionHashLast ≠ unmarkedHash then
    signal.modifyRegion Accumulator.exit
  else signal

/-- `sample_aggregator_update_hash_enter`. -/
def updateHashEnter (hash : Nat) (signal : AggregatedSignal Accum) : AggregatedSignal Accum :=
  if signal.regionHashLast ≠ hash ∧ hash ≠ unmarkedHash then signal.modifyRegion Accumulator.enter
  else signal

/-- `sample_aggregator_update_period`. -/
def updatePeriod (period : Int) (signal : AggregatedSignal Accum) : AggregatedSignal Accum :=
  let exited := if period ≠ 0 then Accumulator.exit signal.periodAccum else signal.periodAccum
  { signal with periodAccum := Accumulator.enter exited }

/-- The credit of an interval to the accumulators that are running. -/
def creditInterval (credit : Accum → Accum) (signal : AggregatedSignal Accum) :
    AggregatedSignal Accum :=
  { signal with
    appAccum := credit signal.appAccum
    epochAccum := if signal.epochCountLast ≠ 0 then credit signal.epochAccum else signal.epochAccum
    periodAccum := credit signal.periodAccum
    regionAccum := modifyAt signal.regionAccumIt credit signal.regionAccum }

/-- The body of the loops of `update_total` and `update_average`. What is measured since the last
update is `current`. -/
def update (isUpdated : Bool) (period periodLast : Int) (current : Number)
    (credit : Number → Accum → Accum) (hash : Nat) (epochCount : Int)
    (signal : AggregatedSignal Accum) : AggregatedSignal Accum :=
  if !isUpdated then
    emplaceHash hash
      { signal with last := current, regionHashLast := hash, epochCountLast := epochCount }
  else if hash ≠ regionHashInvalid then
    let signal := signal.creditInterval (credit (current - signal.last))
    let signal := (signal.updateEpoch epochCount).updateHashExit hash
    let signal := if signal.regionHashLast ≠ hash then signal.emplaceHash hash else signal
    let signal := signal.updateHashEnter hash
    let signal := if period ≠ periodLast then signal.updatePeriod period else signal
    { signal with regionHashLast := hash, last := current }
  else signal

/-- A signal as it is pushed. -/
def pushed (regionHashIdx epochCountIdx : Nat) : AggregatedSignal Accum where
  last := .nan
  regionHashIdx
  regionHashLast := regionHashInvalid
  epochCountIdx
  epochCountLast := 0
  appAccum := Accumulator.makeUnique
  epochAccum := Accumulator.makeUnique
  periodAccum := Accumulator.makeUnique
  regionAccum := []
  regionAccumIt := regionHashInvalid

end AggregatedSignal

/-- What `m_platform_io.sample` returns for the index of a signal. -/
abbrev Reading := Nat → Number

/-- `IOGroup::m_signal_behavior_e`. -/
inductive SignalBehavior where
  | constant
  | monotone
  /-- `M_SIGNAL_BEHAVIOR_VARIABLE`. -/
  | varying
  | label
deriving Repr, DecidableEq

inductive SampleAggregatorError where
  /-- "is constant and cannot be summarized over time." -/
  | constant
  /-- "is label and cannot be summarized over time." -/
  | label
  /-- "called after update()". -/
  | calledAfterUpdate
  /-- "signal already pushed for average". -/
  | pushedForAverage
  /-- "signal already pushed for total". -/
  | pushedForTotal
deriving Repr, DecidableEq

/-- `SampleAggregatorImp`. -/
structure SampleAggregator where
  timeIdx : Nat
  isUpdated : Bool
  periodDuration : Rat
  periodLast : Int
  sumSignal : List (Nat × AggregatedSignal SumAccumulator)
  avgSignal : List (Nat × AggregatedSignal AvgAccumulator)

namespace SampleAggregator

/-- The conversion of a signal to `int`. Of what is not a number it is undefined. -/
def toInt : Number → Int
  | .nan => 0
  | .value rational => truncate rational

/-- The constructor. -/
def new (timeIdx : Nat) : SampleAggregator := ⟨timeIdx, false, 0, 0, [], []⟩

/-- `sample_to_hash`. -/
def sampleToHash : Number → Nat
  | .nan => regionHashInvalid
  | .value rational => (truncate rational).toNat

/-- `push_signal_total`, with the indices that the platform gives to the signal, the region hash and the
epoch count. -/
def pushSignalTotal (idx regionHashIdx epochCountIdx : Nat) (aggregator : SampleAggregator) :
    Except SampleAggregatorError SampleAggregator :=
  if aggregator.isUpdated then .error .calledAfterUpdate
  else if idx ∈ aggregator.avgSignal.map Prod.fst then .error .pushedForAverage
  else if idx ∈ aggregator.sumSignal.map Prod.fst then .ok aggregator
  else .ok { aggregator with
    sumSignal := aggregator.sumSignal ++ [(idx, AggregatedSignal.pushed regionHashIdx epochCountIdx)] }

/-- `push_signal_average`. -/
def pushSignalAverage (idx regionHashIdx epochCountIdx : Nat) (aggregator : SampleAggregator) :
    Except SampleAggregatorError SampleAggregator :=
  if aggregator.isUpdated then .error .calledAfterUpdate
  else if idx ∈ aggregator.sumSignal.map Prod.fst then .error .pushedForTotal
  else if idx ∈ aggregator.avgSignal.map Prod.fst then .ok aggregator
  else .ok { aggregator with
    avgSignal := aggregator.avgSignal ++ [(idx, AggregatedSignal.pushed regionHashIdx epochCountIdx)] }

/-- `push_signal`. -/
def pushSignal (behavior : SignalBehavior) (idx regionHashIdx epochCountIdx : Nat)
    (aggregator : SampleAggregator) : Except SampleAggregatorError SampleAggregator :=
  match behavior with
  | .constant => .error .constant
  | .label => .error .label
  | .monotone => aggregator.pushSignalTotal idx regionHashIdx epochCountIdx
  | .varying => aggregator.pushSignalAverage idx regionHashIdx epochCountIdx

/-- `period_duration`. -/
def setPeriodDuration (duration : Rat) (aggregator : SampleAggregator) :
    Except SampleAggregatorError SampleAggregator :=
  if aggregator.isUpdated then .error .calledAfterUpdate
  else .ok { aggregator with periodDuration := duration }

/-- `get_period`. -/
def getPeriod (reading : Reading) (aggregator : SampleAggregator) : Int :=
  if aggregator.periodDuration ≠ 0 then
    toInt (reading aggregator.timeIdx / .value aggregator.periodDuration)
  else 0

/-- `update_total`. -/
def updateTotal (reading : Reading) (aggregator : SampleAggregator) : SampleAggregator :=
  { aggregator with sumSignal := aggregator.sumSignal.map fun entry =>
      (entry.1, entry.2.update aggregator.isUpdated (aggregator.getPeriod reading)
        aggregator.periodLast (reading entry.1) SumAccumulator.update
        (sampleToHash (reading entry.2.regionHashIdx)) (toInt (reading entry.2.epochCountIdx))) }

/-- `update_average`. -/
def updateAverage (reading : Reading) (aggregator : SampleAggregator) : SampleAggregator :=
  { aggregator with avgSignal := aggregator.avgSignal.map fun entry =>
      (entry.1, entry.2.update aggregator.isUpdated (aggregator.getPeriod reading)
        aggregator.periodLast (reading aggregator.timeIdx)
        (fun delta => AvgAccumulator.update delta (reading entry.1))
        (sampleToHash (reading entry.2.regionHashIdx)) (toInt (reading entry.2.epochCountIdx))) }

/-- `update`. -/
def update (aggregator : SampleAggregator) (reading : Reading) : SampleAggregator :=
  let aggregator := (aggregator.updateTotal reading).updateAverage reading
  { aggregator with periodLast := aggregator.getPeriod reading, isUpdated := true }

/-- A call before the first update. -/
inductive SetupCall where
  | pushSignal (behavior : SignalBehavior) (idx regionHashIdx epochCountIdx : Nat)
  | periodDuration (duration : Rat)

def setupCall (aggregator : SampleAggregator) : SetupCall → Except SampleAggregatorError SampleAggregator
  | .pushSignal behavior idx regionHashIdx epochCountIdx =>
      aggregator.pushSignal behavior idx regionHashIdx epochCountIdx
  | .periodDuration duration => aggregator.setPeriodDuration duration

/-- The aggregator after a call, which may have thrown. -/
def afterCall (aggregator : SampleAggregator) (call : SetupCall) : SampleAggregator :=
  match aggregator.setupCall call with
  | .ok next => next
  | .error _ => aggregator

def afterSetup (aggregator : SampleAggregator) (calls : List SetupCall) : SampleAggregator :=
  calls.foldl afterCall aggregator

/-- The aggregator after some updates. -/
def afterUpdates (aggregator : SampleAggregator) (readings : List Reading) : SampleAggregator :=
  readings.foldl update aggregator

/-- The readings that end an interval: the first, and those with a valid region hash. -/
def credited (regionHashIdx : Nat) : List Reading → List Reading
  | [] => []
  | first :: rest =>
      first :: rest.filter fun reading => sampleToHash (reading regionHashIdx) ≠ regionHashInvalid

/-- The credited readings from the first one on whose epoch count is not zero. -/
def fromEpoch (epochCountIdx : Nat) (points : List Reading) : List Reading :=
  points.dropWhile fun reading => toInt (reading epochCountIdx) = 0

/-- The sum over the intervals between readings. -/
def increments (increment : Reading → Reading → Number) : List Reading → Number
  | [] => 0
  | [_] => 0
  | prev :: next :: rest => increment prev next + increments increment (next :: rest)

/-- The last value of a signal less its first. -/
def change (idx : Nat) (points : List Reading) : Number :=
  match points.head?, points.getLast? with
  | some first, some last => last idx - first idx
  | _, _ => 0

/-- The time between two readings, weighted with a signal. -/
def weighted (timeIdx idx : Nat) (prev next : Reading) : Number :=
  (next timeIdx - prev timeIdx) * next idx

/-- The sum over the accumulators of all regions. -/
def regionSum {Accum : Type} (measure : Accum → Number) (signal : AggregatedSignal Accum) : Number :=
  (signal.regionAccum.map fun entry => measure entry.2).sum

section Lists

variable {increment : Reading → Reading → Number} {points : List Reading} {prev next : Reading}
  {idx epochCountIdx : Nat}

theorem increments_concat (last : points.getLast? = some prev) :
    increments increment (points ++ [next]) = increments increment points + increment prev next := by
  induction points with
  | nil => cases last
  | cons head rest ih =>
      cases rest with
      | nil =>
          rw [List.getLast?_singleton, Option.some.injEq] at last
          rw [last, List.singleton_append, increments, increments, increments, zero_add, add_zero]
      | cons second rest =>
          rw [List.cons_append, List.cons_append, increments, ← List.cons_append, ih last, increments,
            add_assoc]

/-- The change between numbers is the sum of the changes. -/
theorem increments_change (numbers : ∀ point ∈ points, ∃ rational, point idx = .value rational) :
    increments (fun prev next => next idx - prev idx) points = change idx points := by
  induction points with
  | nil => rfl
  | cons head rest ih =>
      obtain ⟨first, first_eq⟩ := numbers head (by simp)
      cases rest with
      | nil => simp [increments, change, first_eq, Number.zero_eq]
      | cons second rest =>
          obtain ⟨middle, middle_eq⟩ := numbers second (by simp)
          obtain ⟨final, final_eq⟩ : ∃ final, (second :: rest).getLast? = some final :=
            ⟨_, List.getLast?_eq_some_getLast (List.cons_ne_nil _ _)⟩
          obtain ⟨last, last_eq⟩ := numbers final (List.mem_cons_of_mem _ (List.mem_of_getLast? final_eq))
          rw [increments, ih fun point member => numbers point (List.mem_cons_of_mem _ member)]
          simp only [change, List.head?_cons, List.getLast?_cons_cons, final_eq, first_eq, middle_eq, last_eq,
            Number.value_sub, Number.value_add]
          congr 1
          ring

/-- No epoch has begun. -/
theorem fromEpoch_none (zero : ∀ point ∈ points, toInt (point epochCountIdx) = 0) :
    fromEpoch epochCountIdx points = [] := by
  rw [fromEpoch, List.dropWhile_eq_nil_iff]
  simpa using zero

/-- An epoch has begun. -/
theorem fromEpoch_last (last : points.getLast? = some prev) (begun : toInt (prev epochCountIdx) ≠ 0) :
    (fromEpoch epochCountIdx points).getLast? = some prev := by
  have member := List.mem_of_getLast? last
  have left : fromEpoch epochCountIdx points ≠ [] := by
    rw [fromEpoch, ne_eq, List.dropWhile_eq_nil_iff]
    intro all
    exact begun (by simpa using all prev member)
  have parts := List.takeWhile_append_dropWhile (l := points)
    (p := fun reading => decide (toInt (reading epochCountIdx) = 0))
  rw [← parts, ← fromEpoch, List.getLast?_append_of_ne_nil _ left] at last
  exact last

theorem fromEpoch_concat (last : points.getLast? = some prev) (begun : toInt (prev epochCountIdx) ≠ 0) :
    fromEpoch epochCountIdx (points ++ [next]) = fromEpoch epochCountIdx points ++ [next] := by
  have left := fromEpoch_last last begun
  rw [fromEpoch, List.dropWhile_append, ← fromEpoch, if_neg]
  intro empty
  rw [List.isEmpty_iff.mp empty] at left
  cases left

end Lists

section Regions

variable {Accum : Type} {measure : Accum → Number} {update : Accum → Accum} {hash : Nat}
  {regionAccum : List (Nat × Accum)}

theorem keys_modifyAt :
    (AggregatedSignal.modifyAt hash update regionAccum).map Prod.fst = regionAccum.map Prod.fst := by
  induction regionAccum with
  | nil => rfl
  | cons entry rest ih =>
      rw [AggregatedSignal.modifyAt]
      split
      case isTrue => rfl
      case isFalse => rw [List.map_cons, ih, List.map_cons]

theorem sum_modifyAt_same (same : ∀ accum, measure (update accum) = measure accum) :
    ((AggregatedSignal.modifyAt hash update regionAccum).map fun entry => measure entry.2).sum =
      (regionAccum.map fun entry => measure entry.2).sum := by
  induction regionAccum with
  | nil => rfl
  | cons entry rest ih =>
      rw [AggregatedSignal.modifyAt]
      split
      case isTrue => simp [same]
      case isFalse => simp [ih]

/-- A credit to one region is a credit to the sum over the regions. -/
theorem sum_modifyAt_credit {amount : Number}
    (credited : ∀ accum, measure (update accum) = measure accum + amount)
    (known : hash ∈ regionAccum.map Prod.fst) :
    ((AggregatedSignal.modifyAt hash update regionAccum).map fun entry => measure entry.2).sum =
      (regionAccum.map fun entry => measure entry.2).sum + amount := by
  induction regionAccum with
  | nil => cases known
  | cons entry rest ih =>
      rw [AggregatedSignal.modifyAt]
      split
      case isTrue =>
          simp only [List.map_cons, List.sum_cons, credited]
          rw [add_assoc, add_comm amount, add_assoc]
      case isFalse other =>
          have later : hash ∈ rest.map Prod.fst := by
            rw [List.map_cons, List.mem_cons] at known
            exact known.resolve_left (Ne.symm other)
          simp only [List.map_cons, List.sum_cons, ih later, add_assoc]

variable {signal : AggregatedSignal Accum}

/-- No credit is made between the two. -/
structure Uncredited (measure : Accum → Number) (before after : AggregatedSignal Accum) : Prop where
  regionHashIdx : after.regionHashIdx = before.regionHashIdx
  epochCountIdx : after.epochCountIdx = before.epochCountIdx
  pointed : before.regionAccumIt ∈ before.regionAccum.map Prod.fst →
    after.regionAccumIt ∈ after.regionAccum.map Prod.fst
  app : measure after.appAccum = measure before.appAccum
  regions : regionSum measure after = regionSum measure before
  epoch : measure after.epochAccum = measure before.epochAccum

theorem Uncredited.refl : Uncredited measure signal signal := ⟨rfl, rfl, id, rfl, rfl, rfl⟩

theorem Uncredited.trans {before middle after : AggregatedSignal Accum}
    (first : Uncredited measure before middle) (second : Uncredited measure middle after) :
    Uncredited measure before after where
  regionHashIdx := second.regionHashIdx.trans first.regionHashIdx
  epochCountIdx := second.epochCountIdx.trans first.epochCountIdx
  pointed known := second.pointed (first.pointed known)
  app := second.app.trans first.app
  regions := second.regions.trans first.regions
  epoch := second.epoch.trans first.epoch

theorem uncredited_modifyRegion {update : Accum → Accum}
    (same : ∀ accum, measure (update accum) = measure accum) :
    Uncredited measure signal (signal.modifyRegion update) where
  regionHashIdx := rfl
  epochCountIdx := rfl
  pointed known := by
    rw [AggregatedSignal.modifyRegion, keys_modifyAt]
    exact known
  app := rfl
  regions := sum_modifyAt_same same
  epoch := rfl

end Regions

section Signals

variable {Accum : Type} [Accumulator Accum] {measure : Accum → Number}
  {credit : Reading → Number → Accum → Accum} {current : Reading → Number}
  {increment : Reading → Reading → Number} {signal : AggregatedSignal Accum}
  {points : List Reading} {reading prev : Reading} {period periodLast : Int}

/-- A quantity of an accumulator that grows with each credit by the increment of the interval. -/
structure Measures (measure : Accum → Number) (credit : Reading → Number → Accum → Accum)
    (current : Reading → Number) (increment : Reading → Reading → Number) : Prop where
  fresh : measure Accumulator.makeUnique = 0
  enter : ∀ accum, measure (Accumulator.enter accum) = measure accum
  exit : ∀ accum, measure (Accumulator.exit accum) = measure accum
  credit : ∀ prev next accum,
    measure (credit next (current next - current prev) accum) = measure accum + increment prev next

/-- What a signal holds after an update, of the readings that have been credited. -/
structure Tracks (measure : Accum → Number) (current : Reading → Number)
    (increment : Reading → Reading → Number) (signal : AggregatedSignal Accum)
    (points : List Reading) : Prop where
  last : ∃ prev, points.getLast? = some prev ∧ signal.last = current prev ∧
    signal.epochCountLast = toInt (prev signal.epochCountIdx)
  pointed : signal.regionAccumIt ∈ signal.regionAccum.map Prod.fst
  app : measure signal.appAccum = increments increment points
  regions : regionSum measure signal = increments increment points
  epoch : measure signal.epochAccum =
    increments increment (fromEpoch signal.epochCountIdx points)

/-- One update with a reading. -/
def step (isUpdated : Bool) (period periodLast : Int) (credit : Reading → Number → Accum → Accum)
    (current : Reading → Number) (signal : AggregatedSignal Accum) (reading : Reading) :
    AggregatedSignal Accum :=
  signal.update isUpdated period periodLast (current reading) (credit reading)
    (sampleToHash (reading signal.regionHashIdx)) (toInt (reading signal.epochCountIdx))

theorem regionSum_emplaceHash (fresh : measure Accumulator.makeUnique = 0) {hash : Nat} :
    regionSum measure (signal.emplaceHash hash) = regionSum measure signal := by
  simp only [regionSum, AggregatedSignal.emplaceHash]
  split <;> simp [fresh]

theorem emplaceHash_pointed {hash : Nat} : (signal.emplaceHash hash).regionAccumIt ∈
    (signal.emplaceHash hash).regionAccum.map Prod.fst := by
  simp only [AggregatedSignal.emplaceHash]
  split
  · assumption
  · simp

theorem uncredited_updateEpoch (measures : Measures measure credit current increment) {epochCount : Int} :
    Uncredited measure signal (signal.updateEpoch epochCount) ∧
      (signal.updateEpoch epochCount).epochCountLast = epochCount := by
  rw [AggregatedSignal.updateEpoch]
  split
  case isTrue =>
      refine ⟨⟨rfl, rfl, id, rfl, rfl, ?_⟩, rfl⟩
      simp only [measures.enter]
      split
      · exact measures.exit _
      · rfl
  case isFalse same => exact ⟨.refl, (not_not.mp same).symm⟩

theorem uncredited_updateHashExit (measures : Measures measure credit current increment) {hash : Nat} :
    Uncredited measure signal (signal.updateHashExit hash) ∧
      (signal.updateHashExit hash).epochCountLast = signal.epochCountLast := by
  rw [AggregatedSignal.updateHashExit]
  split
  · exact ⟨uncredited_modifyRegion measures.exit, rfl⟩
  · exact ⟨.refl, rfl⟩

theorem uncredited_emplaceHash (measures : Measures measure credit current increment) {hash : Nat}
    {moves : Prop} [Decidable moves] :
    Uncredited measure signal (if moves then signal.emplaceHash hash else signal) ∧
      (if moves then signal.emplaceHash hash else signal).epochCountLast = signal.epochCountLast := by
  split
  · exact ⟨⟨rfl, rfl, fun _ => emplaceHash_pointed, rfl, regionSum_emplaceHash measures.fresh, rfl⟩, rfl⟩
  · exact ⟨.refl, rfl⟩

theorem uncredited_updateHashEnter (measures : Measures measure credit current increment) {hash : Nat} :
    Uncredited measure signal (signal.updateHashEnter hash) ∧
      (signal.updateHashEnter hash).epochCountLast = signal.epochCountLast := by
  rw [AggregatedSignal.updateHashEnter]
  split
  · exact ⟨uncredited_modifyRegion measures.enter, rfl⟩
  · exact ⟨.refl, rfl⟩

theorem uncredited_updatePeriod :
    Uncredited measure signal (if period ≠ periodLast then signal.updatePeriod period else signal) ∧
      (if period ≠ periodLast then signal.updatePeriod period else signal).epochCountLast =
        signal.epochCountLast := by
  split
  · exact ⟨⟨rfl, rfl, id, rfl, rfl, rfl⟩, rfl⟩
  · exact ⟨.refl, rfl⟩

/-- What follows the credits of an update: entering and exiting. -/
theorem update_valid (measures : Measures measure credit current increment) {now : Number}
    {grant : Number → Accum → Accum} {hash : Nat} {epochCount : Int} (valid : hash ≠ regionHashInvalid) :
    ∃ ended, signal.update true period periodLast now grant hash epochCount =
        { ended with regionHashLast := hash, last := now } ∧
      Uncredited measure (signal.creditInterval (grant (now - signal.last))) ended ∧
      ended.epochCountLast = epochCount := by
  let epoch := (signal.creditInterval (grant (now - signal.last))).updateEpoch epochCount
  let exited := epoch.updateHashExit hash
  let emplaced := if exited.regionHashLast ≠ hash then exited.emplaceHash hash else exited
  let entered := emplaced.updateHashEnter hash
  obtain ⟨epochStep, counted⟩ := @uncredited_updateEpoch _ _ _ _ _ _
    (signal.creditInterval (grant (now - signal.last))) measures epochCount
  obtain ⟨exitStep, exitCount⟩ := @uncredited_updateHashExit _ _ _ _ _ _ epoch measures hash
  obtain ⟨emplaceStep, emplaceCount⟩ := @uncredited_emplaceHash _ _ _ _ _ _ exited measures hash
    (exited.regionHashLast ≠ hash) _
  obtain ⟨enterStep, enterCount⟩ := @uncredited_updateHashEnter _ _ _ _ _ _ emplaced measures hash
  obtain ⟨periodStep, periodCount⟩ := @uncredited_updatePeriod _ _ measure entered period periodLast
  refine ⟨_, ?_, epochStep.trans (exitStep.trans (emplaceStep.trans (enterStep.trans periodStep))),
    periodCount.trans (enterCount.trans (emplaceCount.trans (exitCount.trans counted)))⟩
  rw [AggregatedSignal.update, if_neg (by simp), if_pos valid]

/-- The first update credits nothing. -/
theorem tracks_first (measures : Measures measure credit current increment)
    (regionHashIdx epochCountIdx : Nat) :
    Tracks measure current increment
      (step false period periodLast credit current (.pushed regionHashIdx epochCountIdx) reading)
      [reading] where
  last := ⟨reading, rfl, rfl, rfl⟩
  pointed := emplaceHash_pointed
  app := measures.fresh
  regions := regionSum_emplaceHash measures.fresh
  epoch := by
    have none_left : increments increment (fromEpoch epochCountIdx [reading]) = 0 := by
      rw [fromEpoch, List.dropWhile_cons]
      split <;> rfl
    exact measures.fresh.trans none_left.symm

/-- Each later update credits the interval since the last one to the application, to one region,
and to the epochs once one has begun. -/
theorem Tracks.step (measures : Measures measure credit current increment)
    (tracks : Tracks measure current increment signal points)
    (valid : sampleToHash (reading signal.regionHashIdx) ≠ regionHashInvalid)
    (counts : ∀ prev, points.getLast? = some prev → toInt (prev signal.epochCountIdx) = 0 →
      ∀ point ∈ points, toInt (point signal.epochCountIdx) = 0) :
    Tracks measure current increment
      (SampleAggregator.step true period periodLast credit current signal reading)
      (points ++ [reading]) := by
  obtain ⟨⟨prev, last, signalLast, countLast⟩, pointed, app, regions, epoch⟩ := tracks
  have credited : ∀ accum, measure (credit reading (current reading - signal.last) accum) =
      measure accum + increment prev reading := by
    intro accum
    rw [signalLast]
    exact measures.credit prev reading accum
  have grown : increments increment (points ++ [reading]) =
      increments increment points + increment prev reading := increments_concat last
  obtain ⟨ended, unfolded, uncredited, counted⟩ := @update_valid _ _ measure credit current increment
    signal period periodLast measures (current reading) (credit reading) _
    (toInt (reading signal.epochCountIdx)) valid
  have sameIdx : ended.epochCountIdx = signal.epochCountIdx := uncredited.epochCountIdx
  rw [SampleAggregator.step, unfolded]
  constructor
  case last =>
      refine ⟨reading, List.getLast?_concat, rfl, ?_⟩
      rw [sameIdx, counted]
  case pointed =>
      apply uncredited.pointed
      rw [AggregatedSignal.creditInterval, keys_modifyAt]
      exact pointed
  case app => exact uncredited.app.trans ((credited _).trans (by rw [app, grown]))
  case regions =>
      apply uncredited.regions.trans
      rw [grown, ← regions]
      exact sum_modifyAt_credit credited pointed
  case epoch =>
      rw [sameIdx]
      apply uncredited.epoch.trans
      simp only [AggregatedSignal.creditInterval]
      by_cases begun : toInt (prev signal.epochCountIdx) = 0
      · have zero := counts prev last begun
        have later : increments increment (fromEpoch signal.epochCountIdx (points ++ [reading])) = 0 := by
          rw [fromEpoch, List.dropWhile_append_of_pos (by simpa using zero), List.dropWhile_cons]
          split <;> rfl
        rw [if_neg (by rw [countLast, begun]; simp), later, epoch, fromEpoch_none zero]
        rfl
      · rw [if_pos (by rw [countLast]; exact begun), credited, epoch, fromEpoch_concat last begun,
          increments_concat (fromEpoch_last last begun)]

theorem step_indices (measures : Measures measure credit current increment) {isUpdated : Bool} :
    (SampleAggregator.step isUpdated period periodLast credit current signal reading).regionHashIdx =
        signal.regionHashIdx ∧
      (SampleAggregator.step isUpdated period periodLast credit current signal reading).epochCountIdx =
        signal.epochCountIdx := by
  cases isUpdated with
  | false => exact ⟨rfl, rfl⟩
  | true =>
      by_cases valid : sampleToHash (reading signal.regionHashIdx) = regionHashInvalid
      · rw [SampleAggregator.step, AggregatedSignal.update, if_neg (by simp), if_neg (not_not.mpr valid)]
        exact ⟨rfl, rfl⟩
      · obtain ⟨ended, unfolded, uncredited, _⟩ := @update_valid _ _ measure credit current increment
          signal period periodLast measures (current reading) (credit reading) _
          (toInt (reading signal.epochCountIdx)) valid
        rw [SampleAggregator.step, unfolded]
        exact ⟨uncredited.regionHashIdx, uncredited.epochCountIdx⟩

theorem step_invalid (invalid : sampleToHash (reading signal.regionHashIdx) = regionHashInvalid) :
    SampleAggregator.step true period periodLast credit current signal reading = signal := by
  rw [SampleAggregator.step, AggregatedSignal.update, if_neg (by simp), if_neg (not_not.mpr invalid)]

end Signals

/-- The epoch counts of the readings are counts that do not decrease. -/
structure Counting (epochCountIdx : Nat) (readings : List Reading) : Prop where
  counts : ∀ reading ∈ readings, 0 ≤ toInt (reading epochCountIdx)
  nondecreasing : readings.Pairwise fun earlier later =>
    toInt (earlier epochCountIdx) ≤ toInt (later epochCountIdx)

section Runs

variable {epochCountIdx regionHashIdx : Nat} {readings : List Reading} {reading prev : Reading}

theorem credited_sublist : (credited regionHashIdx readings).Sublist readings := by
  cases readings with
  | nil => exact .slnil
  | cons first rest => exact List.filter_sublist.cons_cons first

theorem credited_concat (some_read : readings ≠ []) :
    credited regionHashIdx (readings ++ [reading]) = credited regionHashIdx readings ++
      if sampleToHash (reading regionHashIdx) ≠ regionHashInvalid then [reading] else [] := by
  cases readings with
  | nil => exact absurd rfl some_read
  | cons first rest =>
      rw [List.cons_append, credited, List.filter_append, credited, List.cons_append, List.filter_cons]
      simp

theorem Counting.sublist {points : List Reading} (counting : Counting epochCountIdx readings)
    (sublist : points.Sublist readings) : Counting epochCountIdx points where
  counts point member := counting.counts point (sublist.subset member)
  nondecreasing := counting.nondecreasing.sublist sublist

/-- While the last epoch count is zero, no epoch has begun. -/
theorem Counting.zero (counting : Counting epochCountIdx readings)
    (last : readings.getLast? = some prev) (zero : toInt (prev epochCountIdx) = 0) :
    ∀ point ∈ readings, toInt (point epochCountIdx) = 0 := by
  intro point member
  obtain ⟨init, parts⟩ := List.getLast?_eq_some_iff.mp last
  have nonneg := counting.counts point member
  have sorted := counting.nondecreasing
  rw [parts, List.pairwise_append] at sorted
  rw [parts, List.mem_append, List.mem_singleton] at member
  rcases member with earlier | rfl
  · have := sorted.2.2 point earlier prev (List.mem_singleton_self _)
    omega
  · exact zero

variable {Accum : Type} [Accumulator Accum] {measure : Accum → Number}
  {credit : Nat → Reading → Number → Accum → Accum} {current : Nat → Reading → Number}
  {increment : Nat → Reading → Reading → Number}

/-- Signals that are updated with one reading after the other. -/
structure Updated (credit : Nat → Reading → Number → Accum → Accum) (current : Nat → Reading → Number)
    (after : List Reading → List (Nat × AggregatedSignal Accum)) : Prop where
  fresh : ∀ entry ∈ after [], ∃ regionHashIdx epochCountIdx,
    entry.2 = .pushed regionHashIdx epochCountIdx
  next : ∀ readings reading, ∀ entry ∈ after (readings ++ [reading]), ∃ signal period periodLast,
    (entry.1, signal) ∈ after readings ∧
      entry.2 = step (!readings.isEmpty) period periodLast (credit entry.1) (current entry.1) signal reading

theorem Updated.tracks {after : List Reading → List (Nat × AggregatedSignal Accum)}
    (updated : Updated credit current after)
    (measures : ∀ idx, Measures measure (credit idx) (current idx) (increment idx))
    (some_read : readings ≠ []) : ∀ entry ∈ after readings, Counting entry.2.epochCountIdx readings →
      Tracks measure (current entry.1) (increment entry.1) entry.2
        (credited entry.2.regionHashIdx readings) := by
  induction readings using List.reverseRecOn with
  | nil => exact absurd rfl some_read
  | append_singleton readings reading ih =>
      intro entry member counting
      obtain ⟨signal, period, periodLast, old, entry_eq⟩ := updated.next readings reading entry member
      obtain ⟨sameHash, sameEpoch⟩ := @step_indices _ _ measure (credit entry.1) (current entry.1)
        (increment entry.1) signal reading period periodLast (measures entry.1) (!readings.isEmpty)
      rw [← entry_eq] at sameHash sameEpoch
      rw [sameEpoch] at counting
      rw [sameHash, entry_eq]
      by_cases first : readings = []
      · subst first
        obtain ⟨regionHashIdx, epochCountIdx, signal_eq⟩ := updated.fresh _ old
        simp only at signal_eq
        rw [signal_eq]
        exact tracks_first (measures entry.1) _ _
      · have later : (!readings.isEmpty) = true := by simp [first]
        have tracks := ih first _ old (counting.sublist (List.sublist_append_left _ _))
        rw [later, credited_concat first]
        by_cases valid : sampleToHash (reading signal.regionHashIdx) = regionHashInvalid
        · rw [if_neg (not_not.mpr valid), List.append_nil, step_invalid valid]
          exact tracks
        · rw [if_pos valid]
          apply tracks.step (measures entry.1) valid
          intro prev last zero
          have points : (credited signal.regionHashIdx readings).Sublist (readings ++ [reading]) :=
            credited_sublist.trans (List.sublist_append_left readings [reading])
          exact (counting.sublist points).zero last zero

end Runs

section Aggregators

variable {timeIdx : Nat} {calls : List SetupCall} {readings : List Reading} {reading : Reading}
  {aggregator : SampleAggregator}

/-- Nothing has been updated. -/
structure Fresh (aggregator : SampleAggregator) : Prop where
  isUpdated : aggregator.isUpdated = false
  sumSignal : ∀ entry ∈ aggregator.sumSignal, ∃ regionHashIdx epochCountIdx,
    entry.2 = .pushed regionHashIdx epochCountIdx
  avgSignal : ∀ entry ∈ aggregator.avgSignal, ∃ regionHashIdx epochCountIdx,
    entry.2 = .pushed regionHashIdx epochCountIdx

/-- One more signal that has just been pushed. -/
theorem pushed_append {Accum : Type} [Accumulator Accum] {signals : List (Nat × AggregatedSignal Accum)}
    {idx regionHashIdx epochCountIdx : Nat}
    (fresh : ∀ entry ∈ signals, ∃ regionHashIdx epochCountIdx,
      entry.2 = .pushed regionHashIdx epochCountIdx) :
    ∀ entry ∈ signals ++ [(idx, AggregatedSignal.pushed regionHashIdx epochCountIdx)],
      ∃ regionHashIdx epochCountIdx, entry.2 = .pushed regionHashIdx epochCountIdx := by
  intro entry member
  rcases List.mem_append.mp member with old | new
  · exact fresh entry old
  · rw [List.mem_singleton.mp new]
    exact ⟨_, _, rfl⟩

theorem Fresh.setupCall {call : SetupCall} {next : SampleAggregator} (fresh : aggregator.Fresh)
    (done : aggregator.setupCall call = .ok next) : next.Fresh := by
  have early : ¬ aggregator.isUpdated = true := by simp [fresh.isUpdated]
  cases call with
  | periodDuration duration =>
      rw [SampleAggregator.setupCall, setPeriodDuration, if_neg early] at done
      cases done
      exact ⟨fresh.isUpdated, fresh.sumSignal, fresh.avgSignal⟩
  | pushSignal behavior idx regionHashIdx epochCountIdx =>
      cases behavior with
      | constant => cases done
      | label => cases done
      | monotone =>
          rw [SampleAggregator.setupCall, pushSignal, pushSignalTotal, if_neg early] at done
          split at done
          case isTrue => cases done
          case isFalse =>
              split at done <;> cases done
              case isTrue => exact fresh
              case isFalse => exact ⟨fresh.isUpdated, pushed_append fresh.sumSignal, fresh.avgSignal⟩
      | varying =>
          rw [SampleAggregator.setupCall, pushSignal, pushSignalAverage, if_neg early] at done
          split at done
          case isTrue => cases done
          case isFalse =>
              split at done <;> cases done
              case isTrue => exact fresh
              case isFalse => exact ⟨fresh.isUpdated, fresh.sumSignal, pushed_append fresh.avgSignal⟩

theorem new_fresh : (new timeIdx).Fresh := ⟨rfl, by simp [new], by simp [new]⟩

theorem Fresh.afterSetup (fresh : aggregator.Fresh) : (aggregator.afterSetup calls).Fresh := by
  induction calls generalizing aggregator with
  | nil => exact fresh
  | cons call rest ih =>
      apply ih
      rw [afterCall]
      split
      case h_1 next done => exact fresh.setupCall done
      case h_2 => exact fresh

theorem timeIdx_setupCall {call : SetupCall} {next : SampleAggregator}
    (done : aggregator.setupCall call = .ok next) : next.timeIdx = aggregator.timeIdx := by
  cases call with
  | periodDuration duration =>
      rw [SampleAggregator.setupCall, setPeriodDuration] at done
      split at done <;> cases done
      rfl
  | pushSignal behavior idx regionHashIdx epochCountIdx =>
      cases behavior with
      | constant => cases done
      | label => cases done
      | monotone =>
          rw [SampleAggregator.setupCall, pushSignal, pushSignalTotal] at done
          split_ifs at done <;> cases done <;> rfl
      | varying =>
          rw [SampleAggregator.setupCall, pushSignal, pushSignalAverage] at done
          split_ifs at done <;> cases done <;> rfl

theorem timeIdx_afterSetup : (aggregator.afterSetup calls).timeIdx = aggregator.timeIdx := by
  induction calls generalizing aggregator with
  | nil => rfl
  | cons call rest ih =>
      apply ih.trans
      rw [afterCall]
      split
      case h_1 next done => exact timeIdx_setupCall done
      case h_2 => rfl

theorem afterUpdates_concat : aggregator.afterUpdates (readings ++ [reading]) =
    (aggregator.afterUpdates readings).update reading := by
  rw [afterUpdates, List.foldl_append]
  rfl

theorem Fresh.isUpdated_afterUpdates (fresh : aggregator.Fresh) :
    (aggregator.afterUpdates readings).isUpdated = !readings.isEmpty := by
  induction readings using List.reverseRecOn with
  | nil => exact fresh.isUpdated
  | append_singleton readings reading ih =>
      rw [afterUpdates_concat]
      simp [update]

theorem timeIdx_afterUpdates : (aggregator.afterUpdates readings).timeIdx = aggregator.timeIdx := by
  induction readings generalizing aggregator with
  | nil => rfl
  | cons reading rest ih => exact ih

theorem Fresh.updatedTotal (fresh : aggregator.Fresh) :
    Updated (fun _ _ => SumAccumulator.update) (fun idx reading => reading idx)
      (fun readings => (aggregator.afterUpdates readings).sumSignal) where
  fresh := fresh.sumSignal
  next readings reading entry member := by
    rw [afterUpdates_concat] at member
    obtain ⟨old, known, rfl⟩ := List.mem_map.mp member
    refine ⟨old.2, (aggregator.afterUpdates readings).getPeriod reading,
      (aggregator.afterUpdates readings).periodLast, known, ?_⟩
    rw [← fresh.isUpdated_afterUpdates]
    rfl

theorem Fresh.updatedAverage (fresh : aggregator.Fresh) :
    Updated (fun idx reading delta => AvgAccumulator.update delta (reading idx))
      (fun _ reading => reading aggregator.timeIdx)
      (fun readings => (aggregator.afterUpdates readings).avgSignal) where
  fresh := fresh.avgSignal
  next readings reading entry member := by
    rw [afterUpdates_concat] at member
    obtain ⟨old, known, rfl⟩ := List.mem_map.mp member
    refine ⟨old.2, (aggregator.afterUpdates readings).getPeriod reading,
      (aggregator.afterUpdates readings).periodLast, known, ?_⟩
    have sameTime : (aggregator.afterUpdates readings).timeIdx = aggregator.timeIdx := timeIdx_afterUpdates
    rw [← fresh.isUpdated_afterUpdates, ← sameTime]
    rfl

theorem measures_total (idx : Nat) :
    Measures SumAccumulator.total (fun _ => SumAccumulator.update) (fun reading => reading idx)
      (fun prev next => next idx - prev idx) where
  fresh := rfl
  enter _ := rfl
  exit _ := rfl
  credit _ _ _ := rfl

theorem measures_integral (idx : Nat) :
    Measures AvgAccumulator.total (fun reading delta => AvgAccumulator.update delta (reading idx))
      (fun reading => reading timeIdx) (weighted timeIdx idx) where
  fresh := rfl
  enter _ := rfl
  exit _ := rfl
  credit _ _ _ := rfl

theorem measures_weight (idx : Nat) :
    Measures AvgAccumulator.weight (fun reading delta => AvgAccumulator.update delta (reading idx))
      (fun reading => reading timeIdx) (fun prev next => next timeIdx - prev timeIdx) where
  fresh := rfl
  enter _ := rfl
  exit _ := rfl
  credit _ _ _ := rfl

end Aggregators

/-- Totals and integrals of every pushed signal: of the application, as a sum over its regions, and of the
epochs. -/
theorem decomposition (timeIdx : Nat) (calls : List SetupCall) (readings : List Reading)
    (some_read : readings ≠ []) :
    (∀ entry ∈ (((new timeIdx).afterSetup calls).afterUpdates readings).sumSignal,
      (∀ reading ∈ readings, ∃ rational, reading entry.1 = .value rational) →
      Counting entry.2.epochCountIdx readings →
      let points := credited entry.2.regionHashIdx readings
      entry.2.appAccum.total = change entry.1 points ∧
      entry.2.appAccum.total = regionSum SumAccumulator.total entry.2 ∧
      entry.2.epochAccum.total = change entry.1 (fromEpoch entry.2.epochCountIdx points)) ∧
    ∀ entry ∈ (((new timeIdx).afterSetup calls).afterUpdates readings).avgSignal,
      (∀ reading ∈ readings, ∃ rational, reading timeIdx = .value rational) →
      Counting entry.2.epochCountIdx readings →
      let points := credited entry.2.regionHashIdx readings
      let epochs := fromEpoch entry.2.epochCountIdx points
      entry.2.appAccum.total = increments (weighted timeIdx entry.1) points ∧
      entry.2.appAccum.total = regionSum AvgAccumulator.total entry.2 ∧
      entry.2.epochAccum.total = increments (weighted timeIdx entry.1) epochs ∧
      entry.2.appAccum.weight = change timeIdx points ∧
      entry.2.appAccum.weight = regionSum AvgAccumulator.weight entry.2 ∧
      entry.2.epochAccum.weight = change timeIdx epochs := by
  have fresh : ((new timeIdx).afterSetup calls).Fresh := new_fresh.afterSetup
  have sameTime : ((new timeIdx).afterSetup calls).timeIdx = timeIdx := timeIdx_afterSetup
  constructor
  · intro entry member numbers counting points
    have tracks := fresh.updatedTotal.tracks measures_total some_read entry member counting
    have numbered : ∀ point ∈ points, ∃ rational, point entry.1 = .value rational :=
      fun point pointMember => numbers point (credited_sublist.subset pointMember)
    have epochs : ∀ point ∈ fromEpoch entry.2.epochCountIdx points, ∃ rational,
        point entry.1 = .value rational :=
      fun point pointMember => numbered point ((List.dropWhile_sublist _).subset pointMember)
    rw [← increments_change numbered, ← increments_change epochs]
    exact ⟨tracks.app, tracks.app.trans tracks.regions.symm, tracks.epoch⟩
  · intro entry member numbers counting points epochs
    have updated := fresh.updatedAverage
    rw [sameTime] at updated
    have integral := updated.tracks measures_integral some_read entry member counting
    have weight := updated.tracks measures_weight some_read entry member counting
    have numbered : ∀ point ∈ points, ∃ rational, point timeIdx = .value rational :=
      fun point pointMember => numbers point (credited_sublist.subset pointMember)
    have epochNumbered : ∀ point ∈ epochs, ∃ rational, point timeIdx = .value rational :=
      fun point pointMember => numbered point ((List.dropWhile_sublist _).subset pointMember)
    rw [← increments_change numbered, ← increments_change epochNumbered]
    exact ⟨integral.app, integral.app.trans integral.regions.symm, integral.epoch, weight.app,
      weight.app.trans weight.regions.symm, weight.epoch⟩

/-- The readings of a time, a signal, a region hash and an epoch count. -/
def readingOf (time sample hash epochCount : Number) : Reading
  | 0 => time
  | 1 => sample
  | 2 => hash
  | _ => epochCount

/-- A region, no valid hash and another region, with the first epoch at the end of the first. -/
def fourReadings : List Reading :=
  [readingOf (.value 1) (.value 10) (.value 7) (.value 0),
    readingOf (.value 2) (.value 14) (.value 7) (.value 1),
    readingOf (.value 3) (.value 15) .nan (.value 1),
    readingOf (.value 4) (.value 19) (.value 9) (.value 1)]

theorem decomposition_fourReadings :
    (∀ entry ∈ (((new 0).afterSetup [.pushSignal .monotone 1 2 3]).afterUpdates fourReadings).sumSignal,
      entry.2.appAccum.total = .value 9 ∧ entry.2.epochAccum.total = .value 5) ∧
    ∀ entry ∈ (((new 0).afterSetup [.pushSignal .varying 1 2 3]).afterUpdates fourReadings).avgSignal,
      entry.2.appAccum.total = .value 52 ∧ entry.2.appAccum.weight = .value 3 := by
  have counting : Counting 3 fourReadings := ⟨by decide +kernel, by decide +kernel⟩
  have numbers : ∀ idx < 2, ∀ reading ∈ fourReadings, ∃ rational, reading idx = .value rational := by
    intro idx less reading member
    have place : idx = 0 ∨ idx = 1 := by omega
    simp only [fourReadings, List.mem_cons, List.not_mem_nil, or_false] at member
    rcases member with rfl | rfl | rfl | rfl <;> rcases place with rfl | rfl <;> exact ⟨_, rfl⟩
  constructor
  · intro entry member
    obtain rfl := List.mem_singleton.mp (show entry ∈ [_] from member)
    obtain ⟨app, _, epoch⟩ := (decomposition 0 [.pushSignal .monotone 1 2 3] fourReadings (by simp [fourReadings])).1
      _ member (numbers 1 (by decide)) counting
    rw [app, epoch]
    decide +kernel
  · intro entry member
    obtain rfl := List.mem_singleton.mp (show entry ∈ [_] from member)
    obtain ⟨app, _, _, weight, _⟩ := (decomposition 0 [.pushSignal .varying 1 2 3] fourReadings (by simp [fourReadings])).2
      _ member (numbers 0 (by decide)) counting
    rw [app, weight]
    decide +kernel

end SampleAggregator

end Geopm
