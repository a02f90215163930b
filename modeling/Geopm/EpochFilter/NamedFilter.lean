import Geopm.EpochFilter.ParseName

namespace Geopm

/-! The filter that is made of a name, beside the one that is made of the values in it. -/

namespace PeriodicityDetector

/-- The periods that a detector with a history of the given size can report. -/
def Reportable (size : Nat) (period : Int) : Prop := period = -1 ∨ (1 ≤ period ∧ period ≤ size)

variable {detector next : PeriodicityDetector} {record : Record} {period : Nat}

/-- A pattern is as long as a slice of the history at most. -/
theorem findSmallestRepeatingPattern_bound {sliceStart : Int}
    (found : detector.findSmallestRepeatingPattern sliceStart = .ok period)
    (filled : 1 ≤ detector.historyBuffer.size) :
    1 ≤ period ∧ period ≤ detector.historyBuffer.size := by
  rw [findSmallestRepeatingPattern] at found
  split at found
  · obtain rfl := Except.ok.inj found
    exact ⟨le_refl 1, filled⟩
  · split at found
    · simp at found
    · cases made : detector.historyBuffer.makeVector sliceStart.toNat detector.historyBuffer.size with
      | error reason => simp [made, Except.map] at found
      | ok recs =>
          have long : 1 ≤ recs.length ∧ recs.length ≤ detector.historyBuffer.size := by
            rw [CircularBuffer.makeVector] at made
            split_ifs at made with outside
            obtain rfl := Except.ok.inj made
            rw [CircularBuffer.size] at outside ⊢
            simp only [List.length_take, List.length_drop]
            omega
          simp only [made, Except.map] at found
          obtain rfl := Except.ok.inj found
          cases search : (between 1 (recs.length / 2 + 1)).find? fun div => Repeats recs div with
          | none => exact long
          | some div =>
              have member := mem_between.mp (List.mem_of_find?_eq_some search)
              rw [Option.getD_some]
              omega

theorem calcPeriod_reportable (sound : detector.Sound)
    (reportable : Reportable detector.historyBufferSize detector.period)
    (done : detector.calcPeriod = .ok next) :
    Reportable detector.historyBufferSize next.period := by
  rw [calcPeriod] at done
  split at done
  · obtain rfl := Except.ok.inj done
    exact reportable
  · rename_i several
    obtain ⟨lastRec, _, done⟩ := Transition.ok_of_bind done
    obtain ⟨filled, fill, done⟩ := Transition.ok_of_bind done
    obtain ⟨period, found, done⟩ := Transition.ok_of_bind done
    obtain rfl := Except.ok.inj done
    obtain ⟨same, again, alike⟩ := fill_ok detector.setBorders lastRec
    obtain rfl := Except.ok.inj (again.symm.trans fill)
    have kept := alike.historyBuffer.trans (Alike.setBorders detector).historyBuffer
    have size := sound.size
    have positive := sound.positive
    have bound := findSmallestRepeatingPattern_bound found (by rw [kept]; omega)
    rw [kept] at bound
    right
    simp only
    omega

/-- The detector keeps its size, and what it reports is within that. -/
theorem update_reportable (sound : detector.Sound)
    (reportable : Reportable detector.historyBufferSize detector.period)
    (updated : detector.update record = .ok next) :
    next.historyBufferSize = detector.historyBufferSize ∧
      Reportable detector.historyBufferSize next.period := by
  rw [update] at updated
  split at updated
  · obtain ⟨historyBuffer, inserted, updated⟩ := Transition.ok_of_bind updated
    obtain ⟨buffer, again, maxSize, size⟩ := CircularBuffer.insert_ok
      (sound.maxSize ▸ sound.positive) record.signal
    obtain rfl := Except.ok.inj (again.symm.trans inserted)
    have recorded : Sound { detector with
        historyBuffer := buffer, recordCount := detector.recordCount + 1 } := by
      refine ⟨sound.positive, maxSize.trans sound.maxSize, ?_⟩
      rw [size, sound.size, sound.maxSize]
      simp only
      omega
    obtain ⟨same, done, alike⟩ := calcPeriod_ok recorded
    obtain rfl := Except.ok.inj (done.symm.trans updated)
    have within := calcPeriod_reportable recorded reportable done
    exact ⟨alike.historyBufferSize, within⟩
  · obtain rfl := Except.ok.inj updated
    exact ⟨rfl, reportable⟩

end PeriodicityDetector

namespace EditDistEpochRecordFilter

/-- The constructor of a name, which takes both hysteresis values from functions that return
an `int`. -/
def fromName (toInt : ReadDouble → Int) (name : List Char) :
    Except NameError EditDistEpochRecordFilter := do
  let values ← parseName name
  (new values.historyBufferSize values.minHysteresisBasePeriod values.minDetectablePeriod
    (toInt values.stablePeriodHysteresis) (toInt values.unstablePeriodHysteresis)).mapError .filter

/-- The conversion of a `double` to an `int` is defined for what the `int` can hold. -/
def ToInt (toInt : ReadDouble → Int) : Prop :=
  ∀ value, -2 ^ 31 ≤ truncate value → truncate value < 2 ^ 31 →
    toInt (.finite value) = truncate value

/-- What a filter returns for each record of a stream. -/
def emitted (filter : EditDistEpochRecordFilter) (records : List Record) :
    Except ValidateError (List (List Record)) :=
  ((EpochFilter.editDistance filter).passAll records).map Prod.fst

/-- Two ways to make a filter fail alike, or the filters emit the same on every stream. -/
def EmitAlike (left right : Except NameError EditDistEpochRecordFilter) : Prop :=
  ∀ records, left.map (emitted · records) = right.map (emitted · records)

/-- The condition of the source for a stable period that was reported again and again. -/
def StableAfter (base : Int) (hysteresis : ℚ) (period count : Int) : Prop :=
  (period ≤ base ∧ (count : ℚ) = hysteresis * base) ∨
    (period > base ∧ count ≥ truncate (hysteresis * period))

instance (base : Int) (hysteresis : ℚ) (period count : Int) :
    Decidable (StableAfter base hysteresis period count) := inferInstanceAs (Decidable (_ ∨ _))

/-- The condition of the source for a period that is no longer reported. -/
def UnstableAfter (hysteresis : ℚ) (last count : Int) : Prop := count ≥ truncate (hysteresis * last)

open PeriodicityDetector (Reportable)

/-- The state machine decides alike with either pair of hysteresis values: at each period that can
be reported, which is counted if it is detectable, and at each one that can be the last. -/
structure Interchangeable (size : Nat) (base detectable : Int) (stable unstable : ℚ)
    (stable' unstable' : ℚ) : Prop where
  stable : ∀ period count, Reportable size period → 0 ≤ count →
    (count = 0 ∨ detectable ≤ period) →
    (StableAfter base stable period count ↔ StableAfter base stable' period count)
  unstable : ∀ last count, Reportable size last → (last = -1 ∨ detectable ≤ last) → 0 ≤ count →
    (UnstableAfter unstable last count ↔ UnstableAfter unstable' last count)

theorem interchangeable_refl {size : Nat} {base detectable : Int} {stable unstable : ℚ} :
    Interchangeable size base detectable stable unstable stable unstable :=
  ⟨fun _ _ _ _ _ => Iff.rfl, fun _ _ _ _ _ => Iff.rfl⟩

/-- The filter with other hysteresis values. -/
def withHysteresis (stable unstable : ℚ) (filter : EditDistEpochRecordFilter) :
    EditDistEpochRecordFilter :=
  { filter with stablePeriodHysteresis := stable, unstablePeriodHysteresis := unstable }

/-- What holds of a filter in every state, if the other values can take the place of its own. -/
structure Regular (stable unstable : ℚ) (filter : EditDistEpochRecordFilter) : Prop where
  sound : filter.edpd.Sound
  reported : Reportable filter.edpd.historyBufferSize filter.edpd.period
  last : Reportable filter.edpd.historyBufferSize filter.lastPeriod
  detectable : filter.lastPeriod = -1 ∨ filter.minDetectablePeriod ≤ filter.lastPeriod
  periodStable : 0 ≤ filter.periodStable
  periodUnstable : 0 ≤ filter.periodUnstable
  interchangeable : Interchangeable filter.edpd.historyBufferSize filter.minHysteresisBasePeriod
    filter.minDetectablePeriod filter.stablePeriodHysteresis filter.unstablePeriodHysteresis
    stable unstable

section

variable {filter next : EditDistEpochRecordFilter} {stable unstable : ℚ} {record : Record}
  {records : List Record} {isEpoch : Bool}

theorem withHysteresis_trackPeriod :
    (filter.withHysteresis stable unstable).trackPeriod =
      filter.trackPeriod.withHysteresis stable unstable := by
  unfold trackPeriod withHysteresis
  split_ifs <;> rfl

/-- A period is counted only if it is detectable. -/
theorem Regular.trackPeriod (regular : Regular stable unstable filter) :
    Regular stable unstable filter.trackPeriod ∧
      (filter.trackPeriod.periodStable = 0 ∨
        filter.minDetectablePeriod ≤ filter.edpd.period) := by
  unfold EditDistEpochRecordFilter.trackPeriod
  split
  · exact ⟨{ regular with last := .inl rfl, detectable := .inl rfl, periodStable := le_refl 0 },
      .inl rfl⟩
  · rename_i acceptable
    have counted : filter.minDetectablePeriod ≤ filter.edpd.period := by
      by_contra small
      exact acceptable (.inr (by omega))
    split
    · have more := regular.periodStable
      exact ⟨{ regular with periodStable := by simp only; omega }, .inr counted⟩
    · exact ⟨{ regular with
        last := regular.reported, detectable := .inr counted, periodStable := le_refl 0 }, .inl rfl⟩

theorem Regular.epochUndetected (regular : Regular stable unstable filter) :
    Regular stable unstable filter.epochUndetected.2 ∧
      (filter.withHysteresis stable unstable).epochUndetected =
        (filter.epochUndetected.1, filter.epochUndetected.2.withHysteresis stable unstable) := by
  obtain ⟨tracked, counted⟩ := regular.trackPeriod
  obtain ⟨detector, _⟩ := filter.trackPeriod_kept
  have same : (filter.trackPeriod.withHysteresis stable unstable).IsStable ↔
      filter.trackPeriod.IsStable := by
    refine (tracked.interchangeable.stable _ _ tracked.reported tracked.periodStable ?_).symm
    rw [detector]
    have base : filter.trackPeriod.minDetectablePeriod = filter.minDetectablePeriod := by
      unfold EditDistEpochRecordFilter.trackPeriod
      split_ifs <;> rfl
    rw [base]
    exact counted
  unfold EditDistEpochRecordFilter.epochUndetected
  simp only [withHysteresis_trackPeriod]
  by_cases stably : filter.trackPeriod.IsStable
  · rw [if_pos stably, if_pos (same.mpr stably)]
    exact ⟨{ tracked with periodStable := le_refl 0 }, rfl⟩
  · rw [if_neg stably, if_neg (same.not.mpr stably)]
    exact ⟨tracked, rfl⟩

theorem Regular.epochExpected (regular : Regular stable unstable filter) :
    Regular stable unstable filter.epochExpected.2 ∧
      (filter.withHysteresis stable unstable).epochExpected =
        (filter.epochExpected.1, filter.epochExpected.2.withHysteresis stable unstable) := by
  have positive : 0 ≤ if filter.edpd.period = filter.lastPeriod then 0
      else filter.periodUnstable + 1 := by
    have before := regular.periodUnstable
    split <;> omega
  unfold EditDistEpochRecordFilter.epochExpected withHysteresis
  simp only
  generalize (if filter.edpd.period = filter.lastPeriod then 0
    else filter.periodUnstable + 1) = count at positive ⊢
  have same : count ≥ truncate (unstable * filter.lastPeriod) ↔
      count ≥ truncate (filter.unstablePeriodHysteresis * filter.lastPeriod) :=
    (regular.interchangeable.unstable _ count regular.last regular.detectable positive).symm
  by_cases left : count ≥ truncate (filter.unstablePeriodHysteresis * filter.lastPeriod)
  · rw [if_pos left, if_pos (same.mpr left)]
    exact ⟨{ regular with periodUnstable := le_refl 0 }, rfl⟩
  · rw [if_neg left, if_neg (same.not.mpr left)]
    by_cases due : filter.edpd.period ≥ filter.lastPeriod ∧
        (filter.edpd.recordCount : Int) - filter.lastEpoch ≥ filter.edpd.period
    · rw [if_pos due, if_pos due]
      exact ⟨{ regular with periodUnstable := positive }, rfl⟩
    · rw [if_neg due, if_neg due]
      exact ⟨{ regular with periodUnstable := positive }, rfl⟩

theorem Regular.epochDetected (regular : Regular stable unstable filter) :
    Regular stable unstable filter.epochDetected.2 ∧
      (filter.withHysteresis stable unstable).epochDetected =
        (filter.epochDetected.1, filter.epochDetected.2.withHysteresis stable unstable) := by
  unfold EditDistEpochRecordFilter.epochDetected
  rw [show (filter.withHysteresis stable unstable).isPeriodDetected = filter.isPeriodDetected from rfl]
  cases filter.isPeriodDetected with
  | false => exact regular.epochUndetected
  | true => exact regular.epochExpected

/-- A record that is taken keeps the filter regular, and leaves both filters with the same output. -/
theorem Regular.filterRecord (regular : Regular stable unstable filter) (record : Record) :
    ∃ out next, filter.filter record = .ok (out, next) ∧ Regular stable unstable next ∧
      (filter.withHysteresis stable unstable).filter record =
        .ok (out, next.withHysteresis stable unstable) := by
  unfold EditDistEpochRecordFilter.filter
  by_cases epoch : record.event = .epochCount
  · rw [if_neg (not_not.mpr epoch), if_neg (not_not.mpr epoch)]
    exact ⟨[], filter, rfl, regular, rfl⟩
  · rw [if_pos epoch, if_pos epoch]
    by_cases entry : record.event = .regionEntry
    · obtain ⟨edpd, updated, sound⟩ := PeriodicityDetector.update_ok regular.sound record
      obtain ⟨size, reported⟩ :=
        PeriodicityDetector.update_reportable regular.sound regular.reported updated
      have fed : Regular stable unstable { filter with edpd } :=
        { sound
          reported := size ▸ reported
          last := size ▸ regular.last
          detectable := regular.detectable
          periodStable := regular.periodStable
          periodUnstable := regular.periodUnstable
          interchangeable := size ▸ regular.interchangeable }
      obtain ⟨kept, alike⟩ := fed.epochDetected
      have other : { filter.withHysteresis stable unstable with edpd }.epochDetected =
          (({ filter with edpd }).epochDetected.1,
            ({ filter with edpd }).epochDetected.2.withHysteresis stable unstable) := alike
      rw [if_pos entry, if_pos entry, show (filter.withHysteresis stable unstable).edpd =
        filter.edpd from rfl, updated]
      simp only [bind, Except.bind, pure, Except.pure, other]
      split
      · exact ⟨_, _, rfl, { kept with }, rfl⟩
      · exact ⟨_, _, rfl, kept, rfl⟩
    · rw [if_neg entry, if_neg entry]
      exact ⟨[record], filter, rfl, regular, rfl⟩

/-- What two filters do with one record. -/
def StepAlike (related : EditDistEpochRecordFilter → EditDistEpochRecordFilter → Prop)
    (left right : EditDistEpochRecordFilter) (record : Record) : Prop :=
  (∃ reason, left.filter record = .error reason ∧ right.filter record = .error reason) ∨
    ∃ out left' right', left.filter record = .ok (out, left') ∧
      right.filter record = .ok (out, right') ∧ related left' right'

/-- Filters that do the same with each record, and stay related, emit the same. -/
theorem emitted_of_stepAlike
    {related : EditDistEpochRecordFilter → EditDistEpochRecordFilter → Prop}
    (step : ∀ left right record, related left right → StepAlike related left right record)
    {left right : EditDistEpochRecordFilter} (start : related left right) (records : List Record) :
    left.emitted records = right.emitted records := by
  unfold emitted
  induction records generalizing left right with
  | nil => rfl
  | cons record rest ih =>
      simp only [EpochFilter.passAll, EpochFilter.filter]
      obtain ⟨reason, failed, again⟩ | ⟨out, left', right', passed, again, still⟩ :=
        step left right record start
      · rw [failed, again]
      · have others := ih still
        rw [passed, again]
        simp only [bind, Except.bind]
        cases first : (EpochFilter.editDistance left').passAll rest <;>
          cases second : (EpochFilter.editDistance right').passAll rest <;>
          simp_all [Except.map, pure, Except.pure]

theorem Regular.emitted (regular : Regular stable unstable filter) (records : List Record) :
    filter.emitted records = (filter.withHysteresis stable unstable).emitted records := by
  refine @emitted_of_stepAlike (fun left right =>
    Regular stable unstable left ∧ right = left.withHysteresis stable unstable) ?_ _ _
    ⟨regular, rfl⟩ records
  rintro left right record ⟨holds, rfl⟩
  obtain ⟨out, next, passed, kept, again⟩ := holds.filterRecord record
  exact .inr ⟨out, next, _, passed, again, kept, rfl⟩

/-- Without a history nothing depends on the hysteresis, as no region can be entered. -/
theorem emitted_historyless (empty : filter.edpd.historyBuffer.maxSize = 0)
    (records : List Record) :
    filter.emitted records = (filter.withHysteresis stable unstable).emitted records := by
  refine @emitted_of_stepAlike (fun left right => left.edpd.historyBuffer.maxSize = 0 ∧
    right = left.withHysteresis stable unstable) ?_ _ _ ⟨empty, rfl⟩ records
  rintro left right record ⟨empty, rfl⟩
  by_cases entry : record.event = .regionEntry
  · have refused : left.edpd.update record = .error .zeroSize := by
      simp [PeriodicityDetector.update, entry, CircularBuffer.insert, empty, bind, Except.bind]
    refine .inl ⟨.zeroSize, ?_, ?_⟩ <;>
      simp [EditDistEpochRecordFilter.filter, withHysteresis, entry, refused, bind, Except.bind]
  · by_cases epoch : record.event = .epochCount
    · exact .inr ⟨[], left, _, by simp [EditDistEpochRecordFilter.filter, epoch],
        by simp [EditDistEpochRecordFilter.filter, epoch], empty, rfl⟩
    · exact .inr ⟨[record], left, _, by simp [EditDistEpochRecordFilter.filter, epoch, entry],
        by simp [EditDistEpochRecordFilter.filter, epoch, entry], empty, rfl⟩

end

section

variable {name : List Char} {values : NamedValues} {stable unstable stable' unstable' : ℚ}
  {toInt : ReadDouble → Int} {size base detectable : Int} {filter : EditDistEpochRecordFilter}

/-- What is written for the hysteresis are numbers that an `int` can hold without their fraction. -/
structure Legal (values : NamedValues) (stable unstable : ℚ) : Prop where
  stableWritten : values.stablePeriodHysteresis = .finite stable
  unstableWritten : values.unstablePeriodHysteresis = .finite unstable
  stableRange : -2 ^ 31 ≤ truncate stable ∧ truncate stable < 2 ^ 31
  unstableRange : -2 ^ 31 ≤ truncate unstable ∧ truncate unstable < 2 ^ 31

/-- The hysteresis can do without its fraction. -/
def Unharmed (values : NamedValues) (stable unstable : ℚ) : Prop :=
  Interchangeable values.historyBufferSize.toNat values.minHysteresisBasePeriod
    values.minDetectablePeriod stable unstable (truncate stable) (truncate unstable)

/-- Only the hysteresis of a filter depends on how it was given. -/
theorem new_withHysteresis :
    new size base detectable stable' unstable' =
      (new size base detectable stable unstable).map (withHysteresis stable' unstable') := by
  unfold new
  cases PeriodicityDetector.new size <;> rfl

theorem new_regular (created : new size base detectable stable unstable = .ok filter)
    (interchangeable : Interchangeable size.toNat base detectable stable unstable stable' unstable') :
    filter.edpd.historyBuffer.maxSize = 0 ∨ Regular stable' unstable' filter := by
  rw [new] at created
  cases made : PeriodicityDetector.new size with
  | error reason => simp [made, Except.map] at created
  | ok edpd =>
      simp only [made, Except.map] at created
      obtain rfl := Except.ok.inj created
      by_cases positive : 0 < size
      · right
        have sound := PeriodicityDetector.new_sound made positive
        obtain ⟨unreported, sized⟩ : edpd.period = -1 ∧ edpd.historyBufferSize = size.toNat := by
          rw [PeriodicityDetector.new] at made
          split_ifs at made
          obtain rfl := Except.ok.inj made
          exact ⟨rfl, rfl⟩
        exact { sound, reported := .inl unreported, last := .inl rfl, detectable := .inl rfl
                periodStable := le_refl 0, periodUnstable := le_refl 0
                interchangeable := sized ▸ interchangeable }
      · left
        exact (PeriodicityDetector.new_maxSize made).trans (Int.toNat_of_nonpos (by omega))

/-- Filters with values that are interchangeable emit the same. -/
theorem new_emitAlike
    (interchangeable : Interchangeable size.toNat base detectable stable unstable stable' unstable') :
    EmitAlike ((new size base detectable stable' unstable').mapError .filter)
      ((new size base detectable stable unstable).mapError .filter) := by
  intro records
  rw [@new_withHysteresis stable unstable]
  cases created : new size base detectable stable unstable with
  | error reason => rfl
  | ok filter =>
      obtain empty | regular := new_regular created interchangeable
      · exact congrArg Except.ok (emitted_historyless empty records).symm
      · exact congrArg Except.ok (regular.emitted records).symm

theorem fromName_eq (converts : ToInt toInt) (writes : Writes name values)
    (legal : Legal values stable unstable) :
    fromName toInt name = (new values.historyBufferSize values.minHysteresisBasePeriod
      values.minDetectablePeriod (truncate stable) (truncate unstable)).mapError .filter := by
  rw [fromName, parseName_ok_iff.mpr writes]
  simp only [bind, Except.bind, legal.stableWritten, legal.unstableWritten,
    converts stable legal.stableRange.1 legal.stableRange.2,
    converts unstable legal.unstableRange.1 legal.unstableRange.2]

/-- The filter of a name emits what the filter of the values in it emits, where the hysteresis can
do without its fraction. -/
theorem fromName_emitAlike (converts : ToInt toInt) (writes : Writes name values)
    (legal : Legal values stable unstable) (unharmed : Unharmed values stable unstable) :
    EmitAlike (fromName toInt name) ((new values.historyBufferSize values.minHysteresisBasePeriod
      values.minDetectablePeriod stable unstable).mapError .filter) := by
  rw [fromName_eq converts writes legal]
  exact new_emitAlike unharmed

theorem epochUndetected_fst : filter.epochUndetected.1 = decide filter.trackPeriod.IsStable := by
  unfold epochUndetected
  simp only
  split
  · exact (decide_eq_true ‹_›).symm
  · exact (decide_eq_false ‹_›).symm

/-- A period that is not acceptable is one that was reported for no time. -/
theorem epochUndetected_rejected
    (rejected : filter.edpd.score ≥ filter.edpd.period ∨
      filter.edpd.period < filter.minDetectablePeriod) :
    filter.epochUndetected.1 = decide (StableAfter filter.minHysteresisBasePeriod
      filter.stablePeriodHysteresis filter.edpd.period 0) := by
  have tracked : filter.trackPeriod = { filter with lastPeriod := -1, periodStable := 0 } :=
    if_pos rejected
  rw [epochUndetected_fst, tracked]
  exact decide_eq_decide.mpr Iff.rfl

theorem filter_entry {record : Record} {edpd : PeriodicityDetector}
    (entry : record.event = .regionEntry) (updated : filter.edpd.update record = .ok edpd) :
    ∃ next, filter.filter record = .ok (if { filter with edpd }.epochDetected.1 then
      [record, { record with event := .epochCount, signal := filter.epochCount + 1 }]
        else [record], next) := by
  have counted := { filter with edpd }.epochDetected_kept.2
  rw [EditDistEpochRecordFilter.filter, if_pos (by simp [entry]), if_pos entry, updated]
  simp only [bind, Except.bind, pure, Except.pure, counted]
  split
  · exact ⟨_, rfl⟩
  · exact ⟨_, rfl⟩

/-- No period is known at the first record, which is an epoch if that is stable enough. -/
theorem emitted_first {record : Record} (entry : record.event = .regionEntry) (positive : 0 < size)
    (created : new size base detectable stable unstable = .ok filter) :
    filter.emitted [record] = .ok [if StableAfter base stable (-1) 0 then
      [record, { record with event := .epochCount, signal := 1 }] else [record]] := by
  rw [new] at created
  cases made : PeriodicityDetector.new size with
  | error reason => simp [made, Except.map] at created
  | ok edpd =>
      simp only [made, Except.map] at created
      obtain rfl := Except.ok.inj created
      rw [PeriodicityDetector.new] at made
      split_ifs at made
      obtain rfl := Except.ok.inj made
      obtain ⟨historyBuffer, inserted, _⟩ := @CircularBuffer.insert_ok Nat (.new size.toNat)
        (by simp only [CircularBuffer.new]; omega) record.signal
      have updated : (⟨.new size.toNat, size.toNat, -1, -1, 0, fun _ => 0⟩ :
          PeriodicityDetector).update record =
            .ok ⟨historyBuffer, size.toNat, -1, -1, 1, fun _ => 0⟩ := by
        rw [PeriodicityDetector.update, if_pos entry, inserted]
        rfl
      obtain ⟨next, passed⟩ := @filter_entry
        ⟨⟨.new size.toNat, size.toNat, -1, -1, 0, fun _ => 0⟩, base, detectable, stable, unstable,
          -1, 0, 0, false, -1, 0⟩ record _ entry updated
      have decided : (epochDetected ⟨⟨historyBuffer, size.toNat, -1, -1, 1, fun _ => 0⟩, base,
          detectable, stable, unstable, -1, 0, 0, false, -1, 0⟩).1 =
            decide (StableAfter base stable (-1) 0) := epochUndetected_rejected (.inl (le_refl (-1)))
      rw [decided] at passed
      simp only [emitted, EpochFilter.passAll, EpochFilter.filter, passed, bind, Except.bind, pure,
        Except.pure, Except.map, decide_eq_true_eq, Nat.zero_add]

/-- What the filters make of a first record depends on the hysteresis without its fraction. -/
theorem stableAfter_of_emitAlike (converts : ToInt toInt) (writes : Writes name values)
    (legal : Legal values stable unstable) (positive : 0 < values.historyBufferSize)
    (created : new values.historyBufferSize values.minHysteresisBasePeriod
      values.minDetectablePeriod stable unstable = .ok filter)
    (alike : EmitAlike (fromName toInt name) (.ok filter)) :
    StableAfter values.minHysteresisBasePeriod (truncate stable) (-1) 0 ↔
      StableAfter values.minHysteresisBasePeriod stable (-1) 0 := by
  have named : fromName toInt name =
      .ok (filter.withHysteresis (truncate stable) (truncate unstable)) := by
    rw [fromName_eq converts writes legal, @new_withHysteresis stable unstable, created]
    rfl
  have other : new values.historyBufferSize values.minHysteresisBasePeriod
      values.minDetectablePeriod (truncate stable) (truncate unstable) =
        .ok (filter.withHysteresis (truncate stable) (truncate unstable)) := by
    rw [@new_withHysteresis stable unstable, created]
    rfl
  have entry : (⟨0, 0, .regionEntry, 1⟩ : Record).event = .regionEntry := rfl
  have first := alike [⟨0, 0, .regionEntry, 1⟩]
  rw [named] at first
  simp only [Except.map, emitted_first entry positive other, emitted_first entry positive created,
    Except.ok.injEq] at first
  split at first <;> split at first <;> simp_all

end

/-- The conversion of the numbers that are in range. -/
def truncatedInt : ReadDouble → Int
  | .finite value => truncate value
  | _ => 0

theorem truncatedInt_toInt : ToInt truncatedInt := fun _ _ _ => rfl

/-- A history of one region, which reports no detectable period: the default of 1.5 does no harm. -/
theorem fromName_emitAlike_oneRecord :
    EmitAlike (fromName truncatedInt "edit_distance,1".toList)
      ((new 1 4 3 1 (3 / 2)).mapError .filter) := by
  have writes : Writes "edit_distance,1".toList ⟨1, 4, 3, .finite 1, .finite (3 / 2)⟩ :=
    ⟨["1".toList], by decide, by decide, by decide, by decide, rfl, rfl, rfl, rfl⟩
  have legal : Legal ⟨1, 4, 3, .finite 1, .finite (3 / 2)⟩ 1 (3 / 2) :=
    ⟨rfl, rfl, by decide +kernel, by decide +kernel⟩
  have whole : truncate 1 = 1 := by decide +kernel
  have half : truncate (3 / 2) = 1 := by decide +kernel
  refine fromName_emitAlike truncatedInt_toInt writes legal ⟨?_, ?_⟩
  · intro period count _ _ _
    rw [whole]
    exact Iff.rfl
  · intro last count reportable detectable _
    obtain rfl | within := reportable
    · have same : truncate (3 / 2 * (-1 : Int)) = truncate ((1 : Int) * (-1 : Int)) := by
        decide +kernel
      rw [UnstableAfter, UnstableAfter, half, same]
    · simp only at within detectable
      omega

/-- Without its fraction a half is zero, and the first record is an epoch. -/
theorem not_fromName_emitAlike :
    ¬ ∀ (toInt : ReadDouble → Int) (name : List Char) (values : NamedValues) (stable unstable : ℚ),
      ToInt toInt → Writes name values → Legal values stable unstable →
        EmitAlike (fromName toInt name) ((new values.historyBufferSize values.minHysteresisBasePeriod
          values.minDetectablePeriod stable unstable).mapError .filter) := by
  intro always
  have writes : Writes "edit_distance,6,4,1,0.5,1".toList
      ⟨6, 4, 1, .finite (1 / 2), .finite 1⟩ :=
    ⟨["6".toList, "4".toList, "1".toList, "0.5".toList, "1".toList], by decide, by decide,
      by decide, by decide, by decide, by decide, by decide +kernel, by decide +kernel⟩
  have legal : Legal ⟨6, 4, 1, .finite (1 / 2), .finite 1⟩ (1 / 2) 1 :=
    ⟨rfl, rfl, by decide +kernel, by decide +kernel⟩
  have first := stableAfter_of_emitAlike truncatedInt_toInt writes legal (by decide) rfl
    (always _ _ _ _ _ truncatedInt_toInt writes legal)
  exact absurd first (by decide +kernel)

end EditDistEpochRecordFilter

end Geopm
