import Geopm.ValidateRecord
import Geopm.EpochFilter.PeriodicityDetector

namespace Geopm

/-! The two record filters that replace the epochs of the application by epochs of
their own. -/

/-- `ProxyEpochRecordFilter`. -/
structure ProxyEpochRecordFilter where
  proxyHash : Nat
  numPerEpoch : Int
  count : Int
deriving Repr, DecidableEq

namespace ProxyEpochRecordFilter

/-- The constructor. -/
def new (regionHash : Nat) (callsPerEpoch startupCount : Int) :
    Except FilterError ProxyEpochRecordFilter :=
  -- the hash is a CRC32
  if regionHash > uint32Max then .error .regionHashOutOfRange
  else if callsPerEpoch ≤ 0 then .error .callsPerEpochNotPositive
  else if startupCount < 0 then .error .startupCountNegative
  else .ok ⟨regionHash, callsPerEpoch, -startupCount⟩

/-- `filter`. -/
def filter (proxy : ProxyEpochRecordFilter) (record : Record) :
    List Record × ProxyEpochRecordFilter :=
  if record.event ≠ .epochCount then
    if record.event = .regionEntry ∧ record.signal = proxy.proxyHash then
      let epochEvent := { record with
        event := .epochCount
        signal := (1 + proxy.count / proxy.numPerEpoch).toNat }
      (if proxy.count ≥ 0 ∧ proxy.count % proxy.numPerEpoch = 0 then [record, epochEvent]
        else [record], { proxy with count := proxy.count + 1 })
    else ([record], proxy)
  else ([], proxy)

end ProxyEpochRecordFilter

/-- `EditDistEpochRecordFilter`. -/
structure EditDistEpochRecordFilter where
  edpd : PeriodicityDetector
  minHysteresisBasePeriod : Int
  minDetectablePeriod : Int
  stablePeriodHysteresis : Rat
  unstablePeriodHysteresis : Rat
  lastPeriod : Int
  periodStable : Int
  periodUnstable : Int
  isPeriodDetected : Bool
  lastEpoch : Int
  epochCount : Nat

namespace EditDistEpochRecordFilter

/-- The constructor. -/
def new (historyBufferSize minHysteresisBasePeriod minDetectablePeriod : Int)
    (stablePeriodHysteresis unstablePeriodHysteresis : Rat) :
    Except FilterError EditDistEpochRecordFilter :=
  (PeriodicityDetector.new historyBufferSize).map fun edpd =>
    { edpd, minHysteresisBasePeriod, minDetectablePeriod, stablePeriodHysteresis,
      unstablePeriodHysteresis
      lastPeriod := -1
      periodStable := 0
      periodUnstable := 0
      isPeriodDetected := false
      lastEpoch := -1
      epochCount := 0 }

/-- Compare the period with the last one, while no period is detected. -/
def trackPeriod (filter : EditDistEpochRecordFilter) : EditDistEpochRecordFilter :=
  if filter.edpd.score ≥ filter.edpd.period ∨ filter.edpd.period < filter.minDetectablePeriod then
    { filter with lastPeriod := -1, periodStable := 0 }
  else if filter.edpd.period = filter.lastPeriod then
    { filter with periodStable := filter.periodStable + 1 }
  else { filter with lastPeriod := filter.edpd.period, periodStable := 0 }

/-- The period has been the same for long enough. -/
def IsStable (filter : EditDistEpochRecordFilter) : Prop :=
  (filter.edpd.period ≤ filter.minHysteresisBasePeriod ∧
    (filter.periodStable : Rat) = filter.stablePeriodHysteresis * filter.minHysteresisBasePeriod) ∨
  (filter.edpd.period > filter.minHysteresisBasePeriod ∧
    filter.periodStable ≥ truncate (filter.stablePeriodHysteresis * filter.edpd.period))

instance (filter : EditDistEpochRecordFilter) : Decidable filter.IsStable :=
  inferInstanceAs (Decidable (_ ∨ _))

/-- `epoch_detected`, while no period is detected. -/
def epochUndetected (filter : EditDistEpochRecordFilter) : Bool × EditDistEpochRecordFilter :=
  let filter := filter.trackPeriod
  if filter.IsStable then
    (true, { filter with
      isPeriodDetected := true
      lastEpoch := filter.edpd.recordCount
      periodStable := 0 })
  else (false, filter)

/-- `epoch_detected`, after a period was detected. -/
def epochExpected (filter : EditDistEpochRecordFilter) : Bool × EditDistEpochRecordFilter :=
  let filter := { filter with periodUnstable :=
    if filter.edpd.period = filter.lastPeriod then 0 else filter.periodUnstable + 1 }
  if filter.periodUnstable ≥ truncate (filter.unstablePeriodHysteresis * filter.lastPeriod) then
    (false, { filter with isPeriodDetected := false, periodUnstable := 0 })
  else if filter.edpd.period ≥ filter.lastPeriod ∧
      (filter.edpd.recordCount : Int) - filter.lastEpoch ≥ filter.edpd.period then
    (true, { filter with lastEpoch := filter.edpd.recordCount })
  else (false, filter)

/-- `epoch_detected`. -/
def epochDetected (filter : EditDistEpochRecordFilter) : Bool × EditDistEpochRecordFilter :=
  if !filter.isPeriodDetected then filter.epochUndetected else filter.epochExpected

/-- `filter`. -/
def filter (self : EditDistEpochRecordFilter) (record : Record) :
    Except BufferError (List Record × EditDistEpochRecordFilter) :=
  if record.event ≠ .epochCount then
    if record.event = .regionEntry then do
      let edpd ← self.edpd.update record
      let (isEpoch, self) := { self with edpd }.epochDetected
      if isEpoch then
        let self := { self with epochCount := self.epochCount + 1 }
        pure ([record, { record with event := .epochCount, signal := self.epochCount }], self)
      else pure ([record], self)
    else .ok ([record], self)
  else .ok ([], self)

theorem trackPeriod_kept (self : EditDistEpochRecordFilter) :
    self.trackPeriod.edpd = self.edpd ∧ self.trackPeriod.epochCount = self.epochCount := by
  unfold trackPeriod
  split
  · exact ⟨rfl, rfl⟩
  · split <;> exact ⟨rfl, rfl⟩

theorem epochUndetected_kept (self : EditDistEpochRecordFilter) :
    self.epochUndetected.2.edpd = self.edpd ∧
      self.epochUndetected.2.epochCount = self.epochCount := by
  unfold epochUndetected
  simp only
  split <;> exact self.trackPeriod_kept

theorem epochExpected_kept (self : EditDistEpochRecordFilter) :
    self.epochExpected.2.edpd = self.edpd ∧ self.epochExpected.2.epochCount = self.epochCount := by
  unfold epochExpected
  simp only
  generalize (if self.edpd.period = self.lastPeriod then 0 else self.periodUnstable + 1) = unstable
  split
  · exact ⟨rfl, rfl⟩
  · split <;> exact ⟨rfl, rfl⟩

/-- The state machine changes neither the detector nor the count of epochs. -/
theorem epochDetected_kept (self : EditDistEpochRecordFilter) :
    self.epochDetected.2.edpd = self.edpd ∧ self.epochDetected.2.epochCount = self.epochCount := by
  unfold epochDetected
  split
  · exact self.epochUndetected_kept
  · exact self.epochExpected_kept

end EditDistEpochRecordFilter

/-- What a filter is made with. -/
inductive FilterParams where
  | proxyEpoch (regionHash : Nat) (callsPerEpoch startupCount : Int)
  | editDistance (historyBufferSize minHysteresisBasePeriod minDetectablePeriod : Int)
      (stablePeriodHysteresis unstablePeriodHysteresis : Rat)

inductive EpochFilter where
  | proxyEpoch (proxy : ProxyEpochRecordFilter)
  | editDistance (editDist : EditDistEpochRecordFilter)

namespace EpochFilter

/-- The constructors. -/
def new : FilterParams → Except FilterError EpochFilter
  | .proxyEpoch regionHash callsPerEpoch startupCount =>
      (ProxyEpochRecordFilter.new regionHash callsPerEpoch startupCount).map .proxyEpoch
  | .editDistance size base detectable stable unstable =>
      (EditDistEpochRecordFilter.new size base detectable stable unstable).map .editDistance

/-- `RecordFilter::filter`. -/
def filter : EpochFilter → Record → Except ValidateError (List Record × EpochFilter)
  | .proxyEpoch proxy, record => .ok ((proxy.filter record).map id .proxyEpoch)
  | .editDistance editDist, record =>
      match editDist.filter record with
      | .error reason => .error (.buffer reason)
      | .ok (result, editDist) => .ok (result, .editDistance editDist)

/-- What a filter returns for one record, where it has made the given number of
epochs before and makes the other up to then. -/
inductive Passes (count : Nat) (record : Record) : List Record → Nat → Prop where
  | dropped (epoch : record.event = .epochCount) : Passes count record [] count
  | kept (other : record.event ≠ .epochCount) : Passes count record [record] count
  | marked (entry : record.event = .regionEntry) : Passes count record
      [record, { record with event := .epochCount, signal := count + 1 }] (count + 1)

/-- The filter has made the given number of epochs. -/
def Numbered : EpochFilter → Nat → Prop
  | .proxyEpoch proxy, count => 0 < proxy.numPerEpoch ∧
      (count : Int) = if proxy.count ≤ 0 then 0 else (proxy.count - 1) / proxy.numPerEpoch + 1
  | .editDistance editDist, count => editDist.epochCount = count

/-- The filter can take any record. -/
def Supplied : EpochFilter → Prop
  | .proxyEpoch _ => True
  | .editDistance editDist => editDist.edpd.Sound

/-- An edit distance filter without a history. -/
def Historyless : EpochFilter → Prop
  | .proxyEpoch _ => False
  | .editDistance editDist => editDist.edpd.historyBuffer.maxSize = 0

end EpochFilter

section

variable {record : Record} {count : Nat}

/-- The predecessor of a multiple is in the interval before. -/
theorem ediv_pred_of_emod_eq_zero {value divisor : Int} (positive : 0 < divisor)
    (divides : value % divisor = 0) : (value - 1) / divisor + 1 = value / divisor := by
  have whole := Int.mul_ediv_add_emod value divisor
  have unique := (@Int.ediv_emod_unique (value - 1) divisor (divisor - 1) (value / divisor - 1)
    positive).mpr ⟨by rw [Int.mul_sub]; omega, by omega, by omega⟩
  omega

theorem ediv_pred_of_emod_ne_zero {value divisor : Int} (positive : 0 < divisor)
    (between : value % divisor ≠ 0) : (value - 1) / divisor = value / divisor := by
  have whole := Int.mul_ediv_add_emod value divisor
  have nonnegative := Int.emod_nonneg value positive.ne'
  have bounded := Int.emod_lt_of_pos value positive
  exact ((@Int.ediv_emod_unique (value - 1) divisor (value % divisor - 1) (value / divisor)
    positive).mpr ⟨by omega, by omega, by omega⟩).1

/-- The quotient of the source is the number of epochs so far. -/
theorem ProxyEpochRecordFilter.filter_passes {proxy : ProxyEpochRecordFilter}
    (numbered : (EpochFilter.proxyEpoch proxy).Numbered count) :
    ∃ after, EpochFilter.Passes count record (proxy.filter record).1 after ∧
      (EpochFilter.proxyEpoch (proxy.filter record).2).Numbered after := by
  obtain ⟨positive, same⟩ := numbered
  unfold ProxyEpochRecordFilter.filter
  by_cases epoch : record.event = .epochCount
  · rw [if_neg (not_not.mpr epoch)]
    exact ⟨count, .dropped epoch, positive, same⟩
  · rw [if_pos epoch]
    by_cases matching : record.event = .regionEntry ∧ record.signal = proxy.proxyHash
    · rw [if_pos matching]
      by_cases due : proxy.count ≥ 0 ∧ proxy.count % proxy.numPerEpoch = 0
      · simp only [if_pos due]
        obtain ⟨started, divides⟩ := due
        have quotient : proxy.count / proxy.numPerEpoch = count := by
          rw [same]
          split
          · have first : proxy.count = 0 := by omega
            simp [first]
          · exact (ediv_pred_of_emod_eq_zero positive divides).symm
        rw [quotient, show (1 + (count : Int)).toNat = count + 1 by omega]
        refine ⟨count + 1, .marked matching.1, positive, ?_⟩
        simp only
        rw [if_neg (by omega), Int.add_sub_cancel, quotient]
        rfl
      · simp only [if_neg due]
        refine ⟨count, .kept epoch, positive, ?_⟩
        simp only
        rw [same, Int.add_sub_cancel]
        by_cases started : proxy.count < 0
        · rw [if_pos (by omega), if_pos (by omega)]
        · have between : proxy.count % proxy.numPerEpoch ≠ 0 := fun divides =>
            due ⟨by omega, divides⟩
          have nonzero : proxy.count ≠ 0 := fun zero => between (by simp [zero])
          rw [if_neg (by omega), if_neg (by omega), ediv_pred_of_emod_ne_zero positive between]
    · rw [if_neg matching]
      exact ⟨count, .kept epoch, positive, same⟩

theorem EditDistEpochRecordFilter.filter_passes {editDist : EditDistEpochRecordFilter}
    (able : editDist.edpd.Sound ∨ record.event ≠ .regionEntry) :
    ∃ out next, editDist.filter record = .ok (out, next) ∧
      EpochFilter.Passes editDist.epochCount record out next.epochCount ∧
      (editDist.edpd.Sound → next.edpd.Sound) ∧
      (record.event ≠ .regionEntry → next = editDist) := by
  unfold EditDistEpochRecordFilter.filter
  by_cases epoch : record.event = .epochCount
  · rw [if_neg (not_not.mpr epoch)]
    exact ⟨[], editDist, rfl, .dropped epoch, id, fun _ => rfl⟩
  · rw [if_pos epoch]
    by_cases entry : record.event = .regionEntry
    · obtain ⟨edpd, updated, sound⟩ :=
        PeriodicityDetector.update_ok (able.resolve_right (not_not.mpr entry)) record
      obtain ⟨detector, counted⟩ := epochDetected_kept { editDist with edpd }
      rw [if_pos entry, updated]
      simp only [bind, Except.bind, pure, Except.pure]
      split
      · refine ⟨_, _, rfl, ?_, fun _ => ?_, fun other => absurd entry other⟩
        · simp only [counted]
          exact .marked entry
        · simpa only [detector] using sound
      · refine ⟨_, _, rfl, ?_, fun _ => ?_, fun other => absurd entry other⟩
        · simp only [counted]
          exact .kept epoch
        · simpa only [detector] using sound
    · rw [if_neg entry]
      exact ⟨[record], editDist, rfl, .kept epoch, id, fun _ => rfl⟩

namespace EpochFilter

variable {params : FilterParams} {filter : EpochFilter}

/-- A filter that can take the record passes it, and makes the next epoch if any. -/
theorem filter_passes (numbered : filter.Numbered count)
    (able : filter.Supplied ∨ record.event ≠ .regionEntry) :
    ∃ out next after, filter.filter record = .ok (out, next) ∧ Passes count record out after ∧
      next.Numbered after ∧ (filter.Supplied → next.Supplied) := by
  cases filter with
  | proxyEpoch proxy =>
      obtain ⟨after, passes, counted⟩ := ProxyEpochRecordFilter.filter_passes numbered
      exact ⟨_, _, after, rfl, passes, counted, id⟩
  | editDistance editDist =>
      obtain ⟨out, next, done, passes, supplied, _⟩ :=
        EditDistEpochRecordFilter.filter_passes able
      rw [show editDist.epochCount = count from numbered] at passes
      refine ⟨out, .editDistance next, next.epochCount, ?_, passes, rfl, supplied⟩
      simp only [EpochFilter.filter, done]

/-- Without a history an entry record is not taken, and others leave it so. -/
theorem filter_historyless (empty : filter.Historyless) :
    (record.event = .regionEntry → filter.filter record = .error (.buffer .zeroSize)) ∧
      (record.event ≠ .regionEntry →
        ∃ out next, filter.filter record = .ok (out, next) ∧ next.Historyless) := by
  cases filter with
  | proxyEpoch proxy => exact absurd empty id
  | editDistance editDist =>
      have refused : editDist.edpd.historyBuffer.maxSize < 1 := by
        rw [show editDist.edpd.historyBuffer.maxSize = 0 from empty]
        exact Nat.one_pos
      constructor
      · intro entry
        simp [EpochFilter.filter, EditDistEpochRecordFilter.filter, entry,
          PeriodicityDetector.update, CircularBuffer.insert, refused, bind, Except.bind]
      · intro other
        obtain ⟨out, next, done, _, _, same⟩ :=
          @EditDistEpochRecordFilter.filter_passes record editDist (.inr other)
        refine ⟨out, .editDistance next, ?_, ?_⟩
        · simp only [EpochFilter.filter, done]
        · rw [same other]
          exact empty

theorem new_editDistance {size base detectable : Int} {stable unstable : Rat}
    (created : new (.editDistance size base detectable stable unstable) = .ok filter) :
    ∃ edpd, PeriodicityDetector.new size = .ok edpd ∧
      filter = .editDistance ⟨edpd, base, detectable, stable, unstable, -1, 0, 0, false, -1, 0⟩ := by
  simp only [new, EditDistEpochRecordFilter.new] at created
  cases detector : PeriodicityDetector.new size with
  | error reason => simp [detector, Except.map] at created
  | ok edpd =>
      simp only [detector, Except.map] at created
      exact ⟨edpd, rfl, (Except.ok.inj created).symm⟩

/-- A filter starts without epochs. -/
theorem new_numbered (created : new params = .ok filter) : filter.Numbered 0 := by
  cases params with
  | proxyEpoch regionHash callsPerEpoch startupCount =>
      simp only [new, ProxyEpochRecordFilter.new] at created
      split at created
      · simp [Except.map] at created
      · split at created
        · simp [Except.map] at created
        · split at created
          · simp [Except.map] at created
          · obtain rfl := Except.ok.inj created
            refine ⟨by simp only; omega, ?_⟩
            rw [if_pos (by simp only; omega)]
            rfl
  | editDistance size base detectable stable unstable =>
      obtain ⟨edpd, _, rfl⟩ := new_editDistance created
      rfl

end EpochFilter

end

end Geopm
