import Geopm.RecordLog.Simulation
import Geopm.Library.Run

namespace Geopm

open RecordLog (Call)

/-! Calls that find the record table full.

`enter`, `exit` and `epoch` change the private state before the append that may
throw. Only an `exit` without an entry in the map has nothing to undo.
-/

namespace RecordLog

/-- A call that throws because the record table is full changes nothing, and no
call writes outside of a table. -/
def OverflowSafe (log : RecordLog) (call : Call) : Prop :=
  ((log.call call).thrown = some .maximumRecords → log.step call = log) ∧
    (log.call call).thrown ≠ some .outOfBounds

/-- While the table is full, no call appends after a change of the private state. -/
def AppendsFirst (log : RecordLog) (call : Call) : Prop :=
  log.layout.numRecord = maxRecord →
    match call with
    | .enter hash _ => log.hashRegionEnterMap hash ≠ none
    | .exit hash _ => ∀ info, log.hashRegionEnterMap hash = some info → info.recordIdx ≠ -1
    | .epoch _ => False
    | .dump => True

variable {log next : RecordLog} {call : Call}

/-- The process and the start of time are those of the log. -/
def SetUpAs (log next : RecordLog) : Prop := next.process = log.process ∧ next.timeZero = log.timeZero

theorem SetUpAs.trans {last : RecordLog} (first : log.SetUpAs next) (second : next.SetUpAs last) :
    log.SetUpAs last := ⟨second.1.trans first.1, second.2.trans first.2⟩

theorem setUpAs_append (record : Record) : log.SetUpAs (log.append record).log := by
  unfold append
  split <;> exact ⟨rfl, rfl⟩

theorem setUpAs_setEntered {outcome : Outcome} {hash : Nat} (same : log.SetUpAs outcome.log) :
    log.SetUpAs (outcome.setEntered hash).log := by
  unfold Outcome.setEntered
  split
  · exact same
  · exact same

theorem setUpAs_completeVisit (regionIdx : Int) (elapsed : Rat) :
    log.SetUpAs (log.completeVisit regionIdx elapsed).log := by
  unfold completeVisit
  split <;> exact ⟨rfl, rfl⟩

theorem setUpAs_exitRecorded (hash : Nat) (time : Time) (info : RegionEnter) :
    log.SetUpAs (log.exitRecorded hash time info).log := by
  unfold exitRecorded
  split
  · simp only
    split
    · exact ⟨rfl, rfl⟩
    · split
      · exact ⟨rfl, rfl⟩
      · exact setUpAs_completeVisit _ _
  · exact setUpAs_completeVisit _ _

theorem setUpAs_exitKnown (hash : Nat) (time : Time) (info : RegionEnter) :
    log.SetUpAs (log.exitKnown hash time info).log := by
  simp only [exitKnown]
  split
  · have appended := @setUpAs_append (log.setRegion hash ⟨log.layout.numRecord, info.regionIdx,
      info.enterTime, true⟩) (log.record time .regionEntry hash)
    split
    · exact appended
    · exact SetUpAs.trans appended (setUpAs_exitRecorded _ _ _)
  · exact setUpAs_exitRecorded _ _ _

theorem setUpAs_checked {rest : RecordLog → Outcome} (same : ∀ log : RecordLog, log.SetUpAs (rest log).log) :
    log.SetUpAs (log.checked rest).log := by
  rcases log.checkSetup_cases with ⟨reason, failed, _⟩ | passed
  · simp only [checked, failed]
    exact ⟨rfl, rfl⟩
  · simp only [checked, passed]
    obtain ⟨process, timeZero⟩ := same { log with isSetup := true }.checkReset
    rw [process_checkReset] at process
    rw [timeZero_checkReset] at timeZero
    exact ⟨process, timeZero⟩

/-- No call changes them, whether it throws or not. -/
theorem setUpAs_step (call : Call) : log.SetUpAs (log.step call) := by
  cases call with
  | enter hash time =>
      apply setUpAs_checked
      intro log
      unfold enterChecked
      split
      · exact setUpAs_setEntered ⟨rfl, rfl⟩
      · exact setUpAs_setEntered (setUpAs_append _)
  | exit hash time =>
      apply setUpAs_checked
      intro log
      unfold exitChecked
      split
      · exact setUpAs_setEntered (setUpAs_append _)
      · exact setUpAs_setEntered (setUpAs_exitKnown _ _ _)
  | epoch time => exact setUpAs_checked fun log => setUpAs_append _
  | dump => exact ⟨rfl, rfl⟩

theorem Configured.step (configured : log.Configured) (call : Call) : (log.step call).Configured := by
  obtain ⟨process, timeZero⟩ := @setUpAs_step log call
  rwa [Configured, process, timeZero]

theorem setRegion_ne {hash : Nat} {info : RegionEnter}
    (changed : log.hashRegionEnterMap hash ≠ some info) : log.setRegion hash info ≠ log := by
  intro same
  have stored := congrFun (congrArg hashRegionEnterMap same) hash
  simp only [setRegion, Function.update_self] at stored
  exact changed stored.symm

/-- A full table is harmless exactly where nothing was changed before the append. -/
theorem Overflow.unchanged_iff (overflow : Overflow log call next)
    (full : log.layout.numRecord = maxRecord) : next = log ↔ log.AppendsFirst call := by
  cases overflow with
  | enter unknown =>
      exact iff_of_false (setRegion_ne (by simp [unknown])) fun first => first full unknown
  | exitUnlogged unknown => simp [AppendsFirst, unknown]
  | @exitCarried hash time info known carried =>
      refine iff_of_false (setRegion_ne fun same => ?_) fun first => first full info known carried
      rw [known, Option.some.injEq] at same
      rw [same] at carried
      simp at carried
  | epoch =>
      refine iff_of_false (fun same => ?_) fun first => first full
      have counted := congrArg epochCount same
      simp at counted

/-- A step that succeeds on a full table has not appended. -/
theorem appendsFirst_of_step (sound : log.Sound) (nextSound : next.Sound)
    (step : LogView.Step log.view call next.view) : log.AppendsFirst call := by
  intro full
  have nonempty : log.view.records ≠ [] := by
    apply List.ne_nil_of_length_pos
    rw [sound.length_records, full]
    decide
  have synchronised : log.view.reset = log.view := LogView.reset_of_records nonempty
  have count : log.view.records.length = maxRecord := sound.length_records.trans full
  have bounded : next.view.records.length ≤ maxRecord :=
    nextSound.length_records ▸ nextSound.numRecord_le
  generalize viewed : next.view = target at step bounded
  cases step with
  | enterNew _ => simp [count] at bounded
  | @enterKnown hash time info known =>
      rw [synchronised] at known
      exact fun unknown => by simp [view, unknown] at known
  | exitUnlogged _ => simp [count] at bounded
  | exitEntered known _ =>
      rw [synchronised] at known
      intro info stored
      obtain rfl := Option.some.inj (known.symm.trans stored)
      simp
  | exitCarried _ => simp [count] at bounded
  | exitShort known _ =>
      rw [synchronised] at known
      intro info stored
      obtain rfl := Option.some.inj (known.symm.trans stored)
      simp
  | epoch => simp [count] at bounded
  | dump => trivial

theorem Sound.overflowSafe_iff (sound : log.Sound) :
    log.OverflowSafe call ↔ log.AppendsFirst call := by
  have inBounds := sound.not_outOfBounds call
  cases outcome : log.call call with
  | mk next thrown =>
      have result := outcome ▸ sound.call_result call
      simp only [OverflowSafe, RecordLog.step, outcome] at inBounds ⊢
      cases result with
      | unset failed named =>
          refine iff_of_true ⟨by rcases named with rfl | rfl <;> simp, inBounds⟩ fun full => ?_
          have setup := sound.setup (by rw [full]; decide)
          simp [checkSetup, setup] at failed
      | full full overflow => simpa using overflow.unchanged_iff full
      | done step nextSound =>
          exact iff_of_true ⟨by simp, by simp⟩ (appendsFirst_of_step sound nextSound step)

theorem Sound.step_of_overflowSafe (sound : log.Sound) (safe : log.OverflowSafe call) :
    (log.step call).Sound := by
  by_cases full : (log.call call).thrown = some .maximumRecords
  · rw [safe.1 full]
    exact sound
  · exact sound.step full

/-- A run meets overflows safely exactly when none of its calls finds the table
full after it has changed the private state. -/
theorem overflowSafe_run (process : Int) (timeZero : Time) (calls : List Call) :
    Transition.Permitted RecordLog.step OverflowSafe (initial process timeZero) calls ↔
      Transition.Permitted RecordLog.step AppendsFirst (initial process timeZero) calls :=
  Transition.permitted_congr (fun _ _ sound safe => sound.step_of_overflowSafe safe)
    (fun _ _ sound => sound.overflowSafe_iff) (initial_sound process timeZero)

/-- A log without an entry in the map, after `count` epochs. -/
structure Epochs (log : RecordLog) (count : Nat) : Prop where
  sound : log.Sound
  configured : log.Configured
  unknown : log.hashRegionEnterMap = fun _ => none
  counted : log.layout.numRecord = count

theorem Epochs.step {count : Nat} (epochs : Epochs log count) (space : count < maxRecord)
    (time : Time) : Epochs (log.step (.epoch time)) (count + 1) := by
  obtain ⟨sound, configured, unknown, counted⟩ := epochs
  have stays := configured.step (.epoch time)
  unfold RecordLog.step at stays ⊢
  cases outcome : log.call (.epoch time) with
  | mk next thrown =>
      have result := outcome ▸ sound.call_result (.epoch time)
      rw [outcome] at stays
      cases result with
      | unset failed _ => exact absurd failed (configured.checkSetup _)
      | full full _ => omega
      | done step nextSound =>
          have length := nextSound.length_records
          have changes : next.view.map = log.view.reset.map ∧
              next.view.records.length = log.view.records.length + 1 := by
            generalize next.view = target at step
            cases step
            simp [view]
          obtain ⟨map, appended⟩ := changes
          refine ⟨nextSound, stays, map.trans ?_, ?_⟩
          · unfold LogView.reset
            split <;> simp [view, keptRegion, unknown]
          · rw [← length, appended, sound.length_records, counted]

theorem epochs_run {process : Int} {timeZero : Time} (configured : (initial process timeZero).Configured)
    (count : Nat) (bound : count ≤ maxRecord) :
    Epochs (Transition.run RecordLog.step (initial process timeZero)
      (List.replicate count (.epoch ⟨2, 0⟩))) count := by
  induction count with
  | zero => exact ⟨initial_sound process timeZero, configured, rfl, rfl⟩
  | succ count ih =>
      rw [List.replicate_succ', Transition.run_concat]
      exact (ih (by omega)).step (by omega) ⟨2, 0⟩

theorem checked_of_full (log : RecordLog) {rest : RecordLog → Outcome}
    (full : log.layout.numRecord = maxRecord) (setup : log.isSetup = true) :
    log.checked rest = rest log := by
  have nonempty : log.layout.numRecord ≠ 0 := by rw [full]; decide
  simp only [checked, checkSetup, setup, if_true, checkReset_of_records nonempty]

/-- `enter` on a full table throws and leaves behind an entry that points past
the end of the record table. -/
theorem enter_of_full {hash : Nat} (full : log.layout.numRecord = maxRecord)
    (setup : log.isSetup = true) (unknown : log.hashRegionEnterMap hash = none) (time : Time) :
    log.call (.enter hash time) =
      ⟨log.setRegion hash ⟨maxRecord, -1, time, false⟩, some .maximumRecords⟩ := by
  simp only [call, enter, checked_of_full log full setup, enterChecked, unknown]
  rw [append_of_full (log.setRegion hash _) full, full]
  rfl

/-- The following `exit` writes there. -/
theorem exit_of_past {hash : Nat} {start time : Time} (sound : log.Sound)
    (full : log.layout.numRecord = maxRecord) (setup : log.isSetup = true) :
    ((log.setRegion hash ⟨maxRecord, -1, start, false⟩).call (.exit hash time)).thrown =
      some .outOfBounds := by
  obtain ⟨added, addedRegion, _⟩ := sound.represents.addRegion hash sound.region_space
  have past : added.modifyRecord maxRecord (Record.toShort log.layout.numRegion) =
      .error .outOfBounds := dif_neg (by simp)
  have notCarried : (maxRecord : Int) ≠ -1 := by omega
  simp only [call, exit]
  rw [checked_of_full (log.setRegion hash _) full setup]
  simp only [exitChecked, setRegion, Function.update_self, exitKnown, if_neg notCarried,
    exitRecorded, if_true, addedRegion, past, Outcome.setEntered]

/-- Once epochs have filled the table, `enter` throws and is not without effect,
and the `exit` of the same region writes past the end of the table. -/
theorem Epochs.enter_overflows {calls : List Call} {process : Int} {timeZero : Time}
    (epochs : Epochs (Transition.run RecordLog.step (initial process timeZero) calls) maxRecord)
    (hash : Nat) (start time : Time) :
    ¬ Transition.Permitted RecordLog.step OverflowSafe (initial process timeZero)
        (calls ++ [.enter hash start]) ∧
      ((Transition.run RecordLog.step (initial process timeZero)
        (calls ++ [.enter hash start])).call (.exit hash time)).thrown = some .outOfBounds := by
  obtain ⟨sound, _, unknown, full⟩ := epochs
  rw [Transition.permitted_concat, Transition.run_concat]
  have setup := sound.setup (by rw [full]; decide)
  have entered := enter_of_full full setup (congrFun unknown hash : _ = none) start
  simp only [OverflowSafe, RecordLog.step, entered]
  refine ⟨fun safe => ?_, exit_of_past sound full setup⟩
  exact setRegion_ne (by simp [unknown]) (safe.2.1 trivial)

theorem not_overflowSafe_enter :
    ¬ Transition.Permitted RecordLog.step OverflowSafe (initial 1 ⟨1, 0⟩)
        (List.replicate maxRecord (.epoch ⟨2, 0⟩) ++ [.enter 7 ⟨3, 0⟩]) ∧
      ((Transition.run RecordLog.step (initial 1 ⟨1, 0⟩)
        (List.replicate maxRecord (.epoch ⟨2, 0⟩) ++ [.enter 7 ⟨3, 0⟩])).call
          (.exit 7 ⟨4, 0⟩)).thrown = some .outOfBounds :=
  (epochs_run ⟨by decide, by decide +kernel⟩ maxRecord (Nat.le_refl maxRecord)).enter_overflows 7 ⟨3, 0⟩ ⟨4, 0⟩

end RecordLog

end Geopm
