import Geopm.RecordLog.View

namespace Geopm

open RecordLog (Call)

/-! The record log simulates the abstract machine of `LogView`.

Every call on a sound log either fails in `check_setup`, or finds the record
table full, or is one `LogView.Step`.
-/

variable {log : RecordLog} {layout : Layout} {records : List Record} {regions : List ShortRegion}

/-- The slots in use of both tables, with the counters within the tables. -/
structure Layout.Represents (layout : Layout) (records : List Record)
    (regions : List ShortRegion) : Prop where
  numRecord_le : layout.numRecord ≤ maxRecord
  numRegion_le : layout.numRegion ≤ maxRegion
  records_eq : layout.records = records
  regions_eq : layout.regions = regions

/-- The log without the capacity of its tables. -/
def RecordLog.view (log : RecordLog) : LogView where
  process := log.process
  timeZero := log.timeZero
  epochCount := log.epochCount
  entered := log.enteredRegionHash
  map := log.hashRegionEnterMap
  records := log.layout.records
  regions := log.layout.regions

/-- The invariant of the log, in every state of a run without overflow. -/
structure RecordLog.Sound (log : RecordLog) : Prop where
  numRecord_le : log.layout.numRecord ≤ maxRecord
  numRegion_le : log.layout.numRegion ≤ maxRegion
  setup : log.layout.numRecord ≠ 0 → log.isSetup = true
  wellFormed : log.view.WellFormed

namespace Layout

theorem Represents.numRecord (represents : layout.Represents records regions) :
    layout.numRecord = records.length := by
  rw [← represents.records_eq, Layout.records, Table.length_used represents.numRecord_le]

theorem Represents.numRegion (represents : layout.Represents records regions) :
    layout.numRegion = regions.length := by
  rw [← represents.regions_eq, Layout.regions, Table.length_used represents.numRegion_le]

theorem appendRecord_of_full (full : layout.numRecord = maxRecord) (record : Record) :
    layout.appendRecord record = .error .maximumRecords :=
  dif_neg (by omega)

theorem Represents.appendRecord (represents : layout.Represents records regions)
    (record : Record) (space : records.length < maxRecord) :
    ∃ next, layout.appendRecord record = .ok next ∧
      next.Represents (records ++ [record]) regions := by
  have bound : layout.numRecord < maxRecord := represents.numRecord ▸ space
  refine ⟨_, dif_pos bound, ⟨bound, represents.numRegion_le, ?_, represents.regions_eq⟩⟩
  simp only [Layout.records, Table.used_set_end]
  rw [← represents.records_eq, Layout.records]

theorem Represents.modifyRecord (represents : layout.Represents records regions) {index : Nat}
    (change : Record → Record) (inUse : index < records.length) :
    ∃ next, layout.modifyRecord index change = .ok next ∧
      next.Represents (records.modify index change) regions := by
  have used : index < layout.numRecord := represents.numRecord ▸ inUse
  have bound : (0 : Int) ≤ index ∧ (index : Int).toNat < maxRecord :=
    ⟨by omega, by have := represents.numRecord_le; omega⟩
  refine ⟨_, dif_pos bound, ⟨represents.numRecord_le, represents.numRegion_le, ?_,
    represents.regions_eq⟩⟩
  simp only [Layout.records, Int.toNat_natCast, Table.used_modify change _ used]
  rw [← represents.records_eq, Layout.records]

theorem Represents.modifyRegion (represents : layout.Represents records regions) {index : Nat}
    (change : ShortRegion → ShortRegion) (inUse : index < regions.length) :
    ∃ next, layout.modifyRegion index change = .ok next ∧
      next.Represents records (regions.modify index change) := by
  have used : index < layout.numRegion := represents.numRegion ▸ inUse
  have bound : (0 : Int) ≤ index ∧ (index : Int).toNat < maxRegion :=
    ⟨by omega, by have := represents.numRegion_le; omega⟩
  refine ⟨_, dif_pos bound, ⟨represents.numRecord_le, represents.numRegion_le,
    represents.records_eq, ?_⟩⟩
  simp only [Layout.regions, Int.toNat_natCast, Table.used_modify change _ used]
  rw [← represents.regions_eq, Layout.regions]

theorem Represents.addRegion (represents : layout.Represents records regions) (hash : Nat)
    (space : regions.length < maxRegion) :
    ∃ next, layout.addRegion hash = .ok next ∧
      next.Represents records (regions ++ [⟨hash, 0, 0⟩]) := by
  have bound : layout.numRegion < maxRegion := represents.numRegion ▸ space
  refine ⟨_, dif_pos ⟨by omega, by simpa using bound⟩, ⟨represents.numRecord_le, bound,
    represents.records_eq, ?_⟩⟩
  simp only [Layout.regions, Table.modify, Int.toNat_natCast, Table.used_set_end]
  rw [← represents.regions_eq, Layout.regions]

end Layout

namespace RecordLog

theorem Sound.represents (sound : log.Sound) :
    log.layout.Represents log.view.records log.view.regions :=
  ⟨sound.numRecord_le, sound.numRegion_le, rfl, rfl⟩

theorem Sound.length_records (sound : log.Sound) :
    log.view.records.length = log.layout.numRecord :=
  sound.represents.numRecord.symm

theorem Sound.length_regions (sound : log.Sound) :
    log.view.regions.length = log.layout.numRegion :=
  sound.represents.numRegion.symm

/-- Every short region has a record, so there is always room for one more. -/
theorem Sound.region_space (sound : log.Sound) : log.view.regions.length < maxRegion := by
  have fewer := sound.wellFormed.regions_le
  have bounded := sound.numRecord_le
  rw [sound.length_records] at fewer
  simp only [maxRegion]
  omega

/-- `set_process` and `set_time_zero` have been called. -/
def Configured (log : RecordLog) : Prop :=
  log.process ≠ -1 ∧ timeDiff log.timeZero ⟨0, 0⟩ ≠ 0

theorem checkSetup_cases (log : RecordLog) :
    (∃ reason, log.checkSetup = .error reason ∧
      (reason = .processNotSet ∨ reason = .timeZeroNotSet)) ∨
    log.checkSetup = .ok { log with isSetup := true } := by
  unfold checkSetup
  by_cases setup : log.isSetup = true
  · exact .inr (by rw [if_pos setup, ← setup])
  · rw [if_neg setup]
    split
    · exact .inl ⟨_, rfl, .inl rfl⟩
    · split
      · exact .inl ⟨_, rfl, .inr rfl⟩
      · exact .inr rfl

theorem Configured.checkSetup (configured : log.Configured) (reason : LogError) :
    log.checkSetup ≠ .error reason := by
  unfold RecordLog.checkSetup
  rw [if_neg configured.1, if_neg configured.2]
  split <;> simp

@[simp] theorem layout_checkReset (log : RecordLog) : log.checkReset.layout = log.layout := by
  unfold checkReset; split <;> rfl

@[simp] theorem process_checkReset (log : RecordLog) : log.checkReset.process = log.process := by
  unfold checkReset; split <;> rfl

@[simp] theorem timeZero_checkReset (log : RecordLog) :
    log.checkReset.timeZero = log.timeZero := by
  unfold checkReset; split <;> rfl

@[simp] theorem epochCount_checkReset (log : RecordLog) :
    log.checkReset.epochCount = log.epochCount := by
  unfold checkReset; split <;> rfl

theorem checkReset_of_records (nonempty : log.layout.numRecord ≠ 0) : log.checkReset = log :=
  if_neg nonempty

theorem view_checkReset (bounded : log.layout.numRecord ≤ maxRecord) :
    log.checkReset.view = log.view.reset := by
  have lengths : log.view.records.length = log.layout.numRecord := Table.length_used bounded
  by_cases empty : log.layout.numRecord = 0
  · have none : log.view.records = [] := List.eq_nil_of_length_eq_zero (lengths.trans empty)
    rw [checkReset, if_pos empty, LogView.reset, if_pos none]
    rfl
  · rw [checkReset_of_records empty, LogView.reset_of_records]
    intro none
    simp [none] at lengths
    omega

theorem append_of_full (log : RecordLog) (full : log.layout.numRecord = maxRecord) (record : Record) :
    log.append record = ⟨log, some .maximumRecords⟩ := by
  simp only [append, Layout.appendRecord_of_full full]

theorem append_of_space (log : RecordLog) (represents : log.layout.Represents records regions) (record : Record)
    (space : records.length < maxRecord) :
    ∃ layout, layout.Represents (records ++ [record]) regions ∧
      log.append record = ⟨{ log with layout }, none⟩ := by
  obtain ⟨layout, appended, next⟩ := represents.appendRecord record space
  exact ⟨layout, next, by simp only [append, appended]⟩

theorem completeVisit_of_region (log : RecordLog)
    (represents : log.layout.Represents records regions) {handle : Nat} (counted : handle < regions.length)
    (elapsed : Rat) :
    ∃ layout, layout.Represents records (regions.modify handle (ShortRegion.complete elapsed)) ∧
      log.completeVisit handle elapsed = ⟨{ log with layout }, none⟩ := by
  obtain ⟨layout, modified, next⟩ :=
    represents.modifyRegion (ShortRegion.complete elapsed) counted
  exact ⟨layout, next, by simp only [completeVisit, modified]⟩

/-- `exit` of a region whose record is still an entry. -/
theorem exitRecorded_new (log : RecordLog) (represents : log.layout.Represents records regions)
    (hash : Nat) (start time : Time) {index : Nat} (inUse : index < records.length)
    (space : regions.length < maxRegion) :
    ∃ layout, layout.Represents (records.modify index (Record.toShort regions.length))
        (regions ++ [LogView.visited hash (timeDiff start time)]) ∧
      log.exitRecorded hash time ⟨index, -1, start, true⟩ =
        ⟨{ log.setRegion hash ⟨index, regions.length, start, true⟩ with layout }, none⟩ := by
  obtain ⟨added, addedRegion, afterAdd⟩ := represents.addRegion hash space
  obtain ⟨converted, modified, afterConvert⟩ :=
    afterAdd.modifyRecord (Record.toShort regions.length) inUse
  obtain ⟨layout, afterVisit, completed⟩ := completeVisit_of_region
    { log.setRegion hash ⟨index, regions.length, start, true⟩ with layout := converted }
    afterConvert (by simp : regions.length < _) (timeDiff start time)
  refine ⟨layout, ?_, ?_⟩
  · rwa [Table.modify_concat] at afterVisit
  · simp only [exitRecorded, if_true, represents.numRegion]
    simp only [setRegion, addedRegion, modified]
    exact completed

/-- The log from where a producer call starts, after `check_setup` and `check_reset`. -/
def prepared (log : RecordLog) : RecordLog := { log with isSetup := true }.checkReset

theorem view_prepared (bounded : log.layout.numRecord ≤ maxRecord) :
    log.prepared.view = log.view.reset :=
  view_checkReset bounded

@[simp] theorem layout_prepared (log : RecordLog) : log.prepared.layout = log.layout :=
  layout_checkReset _

@[simp] theorem isSetup_prepared (log : RecordLog) : log.prepared.isSetup = true := by
  unfold prepared checkReset; split <;> rfl

theorem map_prepared (bounded : log.layout.numRecord ≤ maxRecord) :
    log.prepared.hashRegionEnterMap = log.view.reset.map :=
  congrArg LogView.map (view_prepared bounded)

theorem record_prepared (log : RecordLog) : log.prepared.record = log.view.record := by
  funext time event signal
  simp [record, LogView.record, prepared, view]

/-- A call that finds records in the table does not change the log before it starts. -/
theorem Sound.prepared_eq (sound : log.Sound) (nonempty : log.layout.numRecord ≠ 0) :
    log.prepared = log := by
  have settled : { log with isSetup := true } = log := by rw [← sound.setup nonempty]
  rw [prepared, settled, checkReset_of_records nonempty]

/-- What a call leaves behind that finds the record table full. -/
inductive Overflow (log : RecordLog) : Call → RecordLog → Prop where
  | enter {hash : Nat} {time : Time} (unknown : log.hashRegionEnterMap hash = none) :
      Overflow log (.enter hash time) (log.setRegion hash ⟨maxRecord, -1, time, false⟩)
  | exitUnlogged {hash : Nat} {time : Time} (unknown : log.hashRegionEnterMap hash = none) :
      Overflow log (.exit hash time) log
  | exitCarried {hash : Nat} {time : Time} {info : RegionEnter}
      (known : log.hashRegionEnterMap hash = some info) (carried : info.recordIdx = -1) :
      Overflow log (.exit hash time)
        (log.setRegion hash { info with recordIdx := maxRecord, isShort := true })
  | epoch {time : Time} :
      Overflow log (.epoch time) { log with epochCount := log.epochCount + 1 }

/-- The three ways in which a call on a sound log ends. -/
inductive Result (log : RecordLog) (call : Call) : Outcome → Prop where
  | unset {reason : LogError} (failed : log.checkSetup = .error reason)
      (named : reason = .processNotSet ∨ reason = .timeZeroNotSet) :
      Result log call ⟨log, some reason⟩
  | full {next : RecordLog} (full : log.layout.numRecord = maxRecord)
      (overflow : Overflow log call next) : Result log call ⟨next, some .maximumRecords⟩
  | done {next : RecordLog} (step : LogView.Step log.view call next.view) (sound : next.Sound) :
      Result log call ⟨next, none⟩

theorem Result.of_step {call : Call} {next : RecordLog} {target : LogView} (sound : log.Sound)
    (step : LogView.Step log.view call target) (represents : next.layout.Represents records regions)
    (setup : next.isSetup = true)
    (same : target = ⟨next.process, next.timeZero, next.epochCount, next.enteredRegionHash,
      next.hashRegionEnterMap, records, regions⟩) : Result log call ⟨next, none⟩ := by
  have viewed : next.view = target := by
    rw [same, view, represents.records_eq, represents.regions_eq]
  exact .done (viewed ▸ step) ⟨represents.numRecord_le, represents.numRegion_le, fun _ => setup,
    viewed ▸ step.wellFormed sound.wellFormed⟩

theorem checked_result {call : Call} {rest : RecordLog → Outcome} (log : RecordLog)
    (result : Result log call (rest log.prepared)) : Result log call (log.checked rest) := by
  obtain ⟨reason, failed, named⟩ | passed := log.checkSetup_cases
  · simpa only [checked, failed] using .unset failed named
  · simpa only [checked, passed, prepared] using result

theorem Sound.represents_prepared (sound : log.Sound) :
    log.prepared.layout.Represents log.view.records log.view.regions := by
  rw [layout_prepared]
  exact sound.represents

/-- A call finds the table full only where the checks have changed nothing. -/
theorem Sound.prepared_of_full (sound : log.Sound) (full : log.layout.numRecord = maxRecord) :
    log.prepared = log :=
  sound.prepared_eq (by rw [full]; decide)

theorem Sound.space_of_not_full (sound : log.Sound) (space : log.layout.numRecord ≠ maxRecord) :
    log.view.records.length < maxRecord := by
  have bounded := sound.numRecord_le
  rw [sound.length_records]
  omega

theorem Sound.enter_result (sound : log.Sound) (hash : Nat) (time : Time) :
    Result log (.enter hash time) (enterChecked hash time log.prepared) := by
  have mapped := map_prepared sound.numRecord_le
  have viewed := view_prepared sound.numRecord_le
  cases known : log.prepared.hashRegionEnterMap hash with
  | some info =>
      simp only [enterChecked, known, Outcome.setEntered]
      refine .of_step sound (.enterKnown (mapped ▸ known)) sound.represents_prepared
        (isSetup_prepared log) ?_
      rw [← viewed]
      simp [setRegion, view, LogView.set]
  | none =>
      simp only [enterChecked, known]
      by_cases full : log.layout.numRecord = maxRecord
      · rw [sound.prepared_of_full full] at known ⊢
        rw [append_of_full (log.setRegion hash _) full]
        simpa only [full] using .full full (.enter known)
      · obtain ⟨layout, next, appended⟩ := append_of_space
          (log.prepared.setRegion hash ⟨log.prepared.layout.numRecord, -1, time, false⟩)
          sound.represents_prepared (log.prepared.record time .regionEntry hash)
          (sound.space_of_not_full full)
        rw [appended]
        refine .of_step sound (.enterNew (mapped ▸ known)) next (isSetup_prepared log) ?_
        rw [record_prepared, ← viewed, sound.length_records]
        simp [setRegion, view, LogView.set]

theorem Sound.epoch_result (sound : log.Sound) (time : Time) :
    Result log (.epoch time) (epochChecked time log.prepared) := by
  have viewed := view_prepared sound.numRecord_le
  have counted : log.prepared.epochCount = log.epochCount := by simp [prepared]
  simp only [epochChecked]
  by_cases full : log.layout.numRecord = maxRecord
  · rw [sound.prepared_of_full full,
      append_of_full { log with epochCount := log.epochCount + 1 } full]
    exact .full full .epoch
  · obtain ⟨layout, next, appended⟩ := append_of_space
      { log.prepared with epochCount := log.prepared.epochCount + 1 }
      sound.represents_prepared (log.prepared.record time .epochCount (log.prepared.epochCount + 1))
      (sound.space_of_not_full full)
    refine appended ▸ .of_step sound .epoch next (isSetup_prepared log) ?_
    rw [record_prepared, ← viewed, counted]
    simp [view]

/-- `exit` of a region without an entry in the map. -/
theorem Sound.exitUnlogged_result (sound : log.Sound) {hash : Nat} (time : Time)
    (unknown : log.prepared.hashRegionEnterMap hash = none) :
    Result log (.exit hash time) (exitChecked hash time log.prepared) := by
  have viewed := view_prepared sound.numRecord_le
  simp only [exitChecked, unknown]
  by_cases full : log.layout.numRecord = maxRecord
  · rw [sound.prepared_of_full full] at unknown ⊢
    rw [append_of_full log full]
    exact .full full (.exitUnlogged unknown)
  · obtain ⟨layout, next, appended⟩ := append_of_space log.prepared sound.represents_prepared
      (log.prepared.record time .regionExit hash) (sound.space_of_not_full full)
    rw [appended]
    rw [map_prepared sound.numRecord_le] at unknown
    refine .of_step sound (.exitUnlogged unknown) next (isSetup_prepared log) ?_
    rw [record_prepared, ← viewed]
    simp [view]

/-- `exit` of a region that is known from an earlier interval only. -/
theorem Sound.exitCarried_result (sound : log.Sound) {hash : Nat} {start : Time} (time : Time)
    (known : log.prepared.hashRegionEnterMap hash = some ⟨-1, -1, start, true⟩) :
    Result log (.exit hash time) (exitChecked hash time log.prepared) := by
  have viewed := view_prepared sound.numRecord_le
  simp only [exitChecked, known, exitKnown, if_true]
  by_cases full : log.layout.numRecord = maxRecord
  · rw [sound.prepared_of_full full] at known ⊢
    rw [append_of_full (log.setRegion hash _) full]
    simpa only [full] using .full full (.exitCarried known rfl)
  · obtain ⟨appendedLayout, afterAppend, appended⟩ := append_of_space
      (log.prepared.setRegion hash ⟨log.prepared.layout.numRecord, -1, start, true⟩)
      sound.represents_prepared (log.prepared.record time .regionEntry hash)
      (sound.space_of_not_full full)
    rw [appended]
    obtain ⟨layout, next, exited⟩ := exitRecorded_new
      { log.prepared.setRegion hash ⟨log.prepared.layout.numRecord, -1, start, true⟩ with
        layout := appendedLayout }
      afterAppend hash start time (by simp : log.view.records.length < _) sound.region_space
    rw [Table.modify_concat] at next
    have handled : log.prepared.layout.numRecord = log.view.records.length := by
      rw [layout_prepared, sound.length_records]
    have notCarried : (log.view.records.length : Int) ≠ -1 := by omega
    rw [handled] at exited ⊢
    simp only [exited, Outcome.setEntered]
    rw [map_prepared sound.numRecord_le] at known
    refine .of_step sound (.exitCarried known) next (isSetup_prepared log) ?_
    rw [record_prepared, ← viewed]
    simp [setRegion, view, LogView.set]

/-- `exit` of a region that was entered in this interval and not exited since. -/
theorem Sound.exitEntered_result (sound : log.Sound) {hash index : Nat} {start : Time} (time : Time)
    (known : log.prepared.hashRegionEnterMap hash = some ⟨index, -1, start, false⟩)
    (recorded : index < log.view.records.length) :
    Result log (.exit hash time) (exitChecked hash time log.prepared) := by
  have viewed := view_prepared sound.numRecord_le
  obtain ⟨layout, next, exited⟩ := exitRecorded_new
    (log.prepared.setRegion hash ⟨index, -1, start, true⟩) sound.represents_prepared hash start
    time recorded sound.region_space
  have notCarried : (index : Int) ≠ -1 := by omega
  simp only [exitChecked, known, exitKnown, if_neg notCarried, exited]
  rw [map_prepared sound.numRecord_le] at known
  refine .of_step sound (.exitEntered known recorded) next (isSetup_prepared log) ?_
  rw [← viewed]
  simp [setRegion, view, LogView.set]

/-- `exit` of a region that was exited in this interval before. -/
theorem Sound.exitShort_result (sound : log.Sound) {hash index handle : Nat} {start : Time}
    (time : Time)
    (known : log.prepared.hashRegionEnterMap hash = some ⟨index, handle, start, true⟩)
    (counted : handle < log.view.regions.length) :
    Result log (.exit hash time) (exitChecked hash time log.prepared) := by
  have viewed := view_prepared sound.numRecord_le
  obtain ⟨layout, next, completed⟩ := completeVisit_of_region
    (log.prepared.setRegion hash ⟨index, handle, start, true⟩) sound.represents_prepared counted
    (timeDiff start time)
  have notCarried : (index : Int) ≠ -1 := by omega
  have paired : (handle : Int) ≠ -1 := by omega
  simp only [exitChecked, known, exitKnown, if_neg notCarried, exitRecorded, if_neg paired, completed]
  rw [map_prepared sound.numRecord_le] at known
  refine .of_step sound (.exitShort known counted) next (isSetup_prepared log) ?_
  rw [← viewed]
  simp [setRegion, view, LogView.set]

theorem Sound.exit_result (sound : log.Sound) (hash : Nat) (time : Time) :
    Result log (.exit hash time) (exitChecked hash time log.prepared) := by
  cases known : log.prepared.hashRegionEnterMap hash with
  | none => exact sound.exitUnlogged_result time known
  | some info =>
      have placed := sound.wellFormed.placed hash info (map_prepared sound.numRecord_le ▸ known)
      cases placed with
      | carried => exact sound.exitCarried_result time known
      | entered _ recorded =>
          exact sound.exitEntered_result time known (List.getElem?_eq_some_iff.mp recorded).1
      | short _ _ _ counted _ =>
          exact sound.exitShort_result time known (List.getElem?_eq_some_iff.mp counted).1

theorem dump_result (log : RecordLog) : Result log .dump ⟨log.cleared, none⟩ := by
  have emptied : log.cleared.view = { log.view with records := [], regions := [] } := rfl
  exact .done (emptied ▸ .dump) ⟨Nat.zero_le _, Nat.zero_le _, fun nonempty => absurd rfl nonempty,
    .of_empty rfl rfl⟩

/-- What any call does on a sound log. -/
theorem Sound.call_result (sound : log.Sound) (call : Call) : Result log call (log.call call) := by
  cases call with
  | enter hash time => exact checked_result log (sound.enter_result hash time)
  | exit hash time => exact checked_result log (sound.exit_result hash time)
  | epoch time => exact checked_result log (sound.epoch_result time)
  | dump => exact dump_result log

theorem initial_sound (process : Int) (timeZero : Time) : (initial process timeZero).Sound where
  numRecord_le := Nat.zero_le _
  numRegion_le := Nat.zero_le _
  setup nonempty := absurd rfl nonempty
  wellFormed := .of_empty rfl rfl

/-- The call does not find the record table full. -/
def NoOverflow (log : RecordLog) (call : Call) : Prop :=
  (log.call call).thrown ≠ some .maximumRecords

instance (log : RecordLog) (call : Call) : Decidable (log.NoOverflow call) :=
  inferInstanceAs (Decidable (_ ≠ _))

/-- Without overflow a call keeps the log sound. -/
theorem Sound.step (sound : log.Sound) {call : Call}
    (space : log.NoOverflow call) : (log.step call).Sound := by
  unfold RecordLog.step
  cases result : log.call call with
  | mk next thrown =>
      have cases := result ▸ sound.call_result call
      cases cases with
      | unset _ _ => exact sound
      | full _ _ => exact absurd (by rw [result]) space
      | done _ sound => exact sound

/-- A sound log never throws for want of a table slot other than a record. -/
theorem Sound.not_outOfBounds (sound : log.Sound) (call : Call) :
    (log.call call).thrown ≠ some .outOfBounds := by
  cases result : log.call call with
  | mk next thrown =>
      have cases := result ▸ sound.call_result call
      cases cases with
      | unset _ named => rcases named with rfl | rfl <;> simp
      | full _ _ => simp
      | done _ _ => simp

end RecordLog

end Geopm
