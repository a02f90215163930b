import Geopm.RecordLog.History
import Geopm.EpochFilter.CircularBuffer
import Geopm.Library.Run
import Mathlib.Tactic.Linarith

namespace Geopm

open RecordLog (Call)

/-! `ValidateRecord`, and that it accepts what the record log emits. -/

/-- The exceptions of `ValidateRecord::check`, and of the record filters in front
of it. -/
inductive ValidateError where
  /-- "Process has changed". -/
  | processChanged
  /-- "Time value decreased. Time=", with the time before. -/
  | timeDecreased (time : Option Rat)
  /-- "Hint out of range". -/
  | hintOutOfRange
  /-- "Region hash out of bounds: ". -/
  | hashOutOfBounds (hash : Nat)
  /-- "Nested region entry detected. Region=". -/
  | nestedEntry (hash : Nat)
  /-- "Region exit without entry Region=". -/
  | exitWithoutEntry (hash : Nat)
  /-- "Region exited differs from last region entered Current region=", " Received exit for=". -/
  | exitDiffers (current received : Nat)
  /-- "Epoch count not monotone and contiguous. Current epoch=". -/
  | epochNotContiguous (count : Nat)
  /-- of the history of a filter -/
  | buffer (reason : BufferError)
deriving Repr, DecidableEq

/-- `UINT32_MAX`. -/
def uint32Max : Nat := 2 ^ 32 - 1

/-- `GEOPM_MASK_REGION_HINT`: the nine hints occupy the bits from 32 to 40. -/
def maskRegionHint : Nat := (2 ^ 9 - 1) * 2 ^ 32

structure ValidateRecord where
  isEmpty : Bool
  /-- NAN before the first record -/
  time : Option Rat
  process : Int
  epochCount : Nat
  regionHash : Nat
deriving Repr, DecidableEq

namespace ValidateRecord

/-- The constructor. -/
def new : ValidateRecord := ⟨true, none, -1, 0, regionHashInvalid⟩

/-- `validate_hash`. -/
def validateHash (hash : Nat) : Except ValidateError Unit :=
  if hash = regionHashInvalid ∨ hash > uint32Max then .error (.hashOutOfBounds hash) else .ok ()

/-- The first record that is checked determines the process and the time. -/
def start (valid : ValidateRecord) (record : Record) : ValidateRecord :=
  if valid.isEmpty then ⟨false, some record.time, record.process, 0, regionHashInvalid⟩ else valid

/-- The `switch` of `check`. -/
def checkEvent (valid : ValidateRecord) (record : Record) : Except ValidateError ValidateRecord :=
  match record.event with
  | .hint =>
      if record.signal = 0 ∨ record.signal &&& (record.signal - 1) ≠ 0 ∨
          record.signal &&& maskRegionHint ≠ record.signal then .error .hintOutOfRange
      else .ok valid
  | .regionEntry => do
      validateHash record.signal
      if valid.regionHash ≠ regionHashInvalid then .error (.nestedEntry valid.regionHash)
      else .ok { valid with regionHash := record.signal }
  | .regionExit => do
      validateHash record.signal
      if valid.regionHash = regionHashInvalid then .error (.exitWithoutEntry valid.regionHash)
      else if record.signal ≠ valid.regionHash then
        .error (.exitDiffers valid.regionHash record.signal)
      else .ok { valid with regionHash := regionHashInvalid }
  | .epochCount =>
      if record.signal ≠ valid.epochCount + 1 then .error (.epochNotContiguous valid.epochCount)
      else .ok { valid with epochCount := record.signal }
  | _ => .ok valid

/-- `check`. -/
def check (valid : ValidateRecord) (record : Record) : Except ValidateError ValidateRecord :=
  let valid := valid.start record
  if record.process ≠ valid.process then .error .processChanged
  else if valid.time.any (record.time < ·) then .error (.timeDecreased valid.time)
  else { valid with time := some record.time }.checkEvent record

/-- `check` on one record after the other. -/
def checkAll (valid : ValidateRecord) (records : List Record) :
    Except ValidateError ValidateRecord :=
  records.foldlM check valid

section

variable {valid final : ValidateRecord} {record : Record} {records left right : List Record}

@[simp] theorem checkAll_nil : valid.checkAll [] = .ok valid := rfl

theorem checkAll_append :
    valid.checkAll (left ++ right) = (valid.checkAll left).bind fun middle => middle.checkAll right :=
  List.foldlM_append

theorem checkAll_concat (checked : valid.checkAll records = .ok final) (record : Record) :
    valid.checkAll (records ++ [record]) = final.check record := by
  rw [checkAll_append, checked]
  change ([record].foldlM check final) = _
  simp

/-- What a record must satisfy besides the rules of its event. -/
structure Admits (valid : ValidateRecord) (record : Record) : Prop where
  process : valid.isEmpty = false → record.process = valid.process
  time : valid.isEmpty = false → ∃ last, valid.time = some last ∧ last ≤ record.time

/-- The validator as it enters the `switch`. -/
def advance (valid : ValidateRecord) (record : Record) : ValidateRecord :=
  { valid.start record with time := some record.time }

theorem check_eq (valid : ValidateRecord) (record : Record)
    (same : record.process = (valid.start record).process)
    (ordered : (valid.start record).time.any (record.time < ·) = false) :
    valid.check record = (valid.advance record).checkEvent record := by
  simp only [ValidateRecord.check, advance]
  rw [if_neg (not_not.mpr same), if_neg (Bool.eq_false_iff.mp ordered)]

theorem Admits.check (admits : valid.Admits record) :
    valid.check record = (valid.advance record).checkEvent record := by
  cases empty : valid.isEmpty with
  | true => exact check_eq valid record (by simp [start, empty]) (by simp [start, empty])
  | false =>
      obtain ⟨last, known, ordered⟩ := admits.time empty
      refine check_eq valid record ?_ ?_
      · simp [start, empty, admits.process empty]
      · simp [start, empty, known, ordered]

/-- The validator with another region. -/
def setRegionHash (hash : Nat) (valid : ValidateRecord) : ValidateRecord :=
  { valid with regionHash := hash }

/-- The `switch` changes the region and the epoch count only. -/
theorem checkEvent_ok (checked : valid.checkEvent record = .ok final) :
    final.isEmpty = valid.isEmpty ∧ final.time = valid.time ∧ final.process = valid.process := by
  unfold checkEvent at checked
  split at checked
  case h_2 =>
    cases named : validateHash record.signal with
    | error reason => simp [named, Bind.bind, Except.bind] at checked
    | ok _ =>
        simp only [named, Bind.bind, Except.bind] at checked
        split at checked
        · simp at checked
        · obtain rfl := Except.ok.inj checked
          exact ⟨rfl, rfl, rfl⟩
  case h_3 =>
    cases named : validateHash record.signal with
    | error reason => simp [named, Bind.bind, Except.bind] at checked
    | ok _ =>
        simp only [named, Bind.bind, Except.bind] at checked
        split at checked
        · simp at checked
        · split at checked
          · simp at checked
          · obtain rfl := Except.ok.inj checked
            exact ⟨rfl, rfl, rfl⟩
  all_goals
    try split at checked
    all_goals
      first
        | simp at checked; done
        | obtain rfl := Except.ok.inj checked
          exact ⟨rfl, rfl, rfl⟩

/-- Records that are no region events neither read nor change the region. -/
theorem checkEvent_setRegionHash (valid : ValidateRecord) (hash : Nat)
    (entry : record.event ≠ .regionEntry) (exit : record.event ≠ .regionExit) :
    (valid.setRegionHash hash).checkEvent record =
      (valid.checkEvent record).map (setRegionHash hash) := by
  unfold checkEvent
  split
  · split <;> rfl
  · exact absurd ‹_› entry
  · exact absurd ‹_› exit
  · by_cases contiguous : record.signal = valid.epochCount + 1 <;>
      simp [setRegionHash, contiguous, Except.map]
  · rfl

theorem check_setRegionHash (hash : Nat) (nonempty : valid.isEmpty = false)
    (entry : record.event ≠ .regionEntry) (exit : record.event ≠ .regionExit) :
    (valid.setRegionHash hash).check record =
      (valid.check record).map (setRegionHash hash) := by
  unfold ValidateRecord.check
  simp only [start, setRegionHash, nonempty, Bool.false_eq_true, if_false]
  split
  · rfl
  · split
    · rfl
    · exact checkEvent_setRegionHash
        ⟨false, some record.time, valid.process, valid.epochCount, valid.regionHash⟩ hash entry exit

/-- A record that is accepted passes the checks before the `switch`, then the `switch`. -/
theorem check_ok (checked : valid.check record = .ok final) :
    record.process = (valid.start record).process ∧
      (valid.start record).time.any (record.time < ·) = false ∧
      (valid.advance record).checkEvent record = .ok final := by
  simp only [ValidateRecord.check] at checked
  split at checked
  · simp at checked
  · split at checked
    · simp at checked
    · exact ⟨not_not.mp ‹_›, Bool.eq_false_iff.mpr ‹_›, checked⟩

theorem check_nonempty (checked : valid.check record = .ok final) : final.isEmpty = false := by
  obtain ⟨_, _, switched⟩ := check_ok checked
  rw [(checkEvent_ok switched).1, advance, start]
  split
  · rfl
  · simpa using ‹¬ valid.isEmpty = true›

theorem checkAll_setRegionHash (hash : Nat) (nonempty : valid.isEmpty = false)
    (others : ∀ record ∈ records, record.event ≠ .regionEntry ∧ record.event ≠ .regionExit) :
    (valid.setRegionHash hash).checkAll records =
      (valid.checkAll records).map (setRegionHash hash) := by
  induction records generalizing valid with
  | nil => rfl
  | cons record rest ih =>
      have first := others record (by simp)
      simp only [checkAll, List.foldlM_cons] at ih ⊢
      rw [check_setRegionHash hash nonempty first.1 first.2]
      cases checked : valid.check record with
      | error reason => rfl
      | ok next => exact ih (check_nonempty checked) fun other member => others other (by simp [member])

end

/-- What the validator knows once it has seen every record of the log. -/
structure Tracks (valid : ValidateRecord) (view : LogView) (history : History) : Prop where
  blank : valid.isEmpty = true → valid = new
  process : valid.isEmpty = false → valid.process = view.process
  time : valid.isEmpty = false → ∃ seen last, valid.time = some seen ∧
    history.last = some last ∧ seen ≤ timeDiff view.timeZero last
  epochCount : valid.epochCount = view.epochCount
  regionHash : valid.regionHash = view.outstanding history.inside

namespace Tracks

variable {valid : ValidateRecord} {view next : LogView} {history : History} {record : Record}
  {time : Time}

theorem timeDiff_le (zero : Time) {last time : Time} (ordered : 0 ≤ timeDiff last time) :
    timeDiff zero last ≤ timeDiff zero time := by
  have difference := timeDiff_sub zero last time
  linarith

theorem admits (tracks : valid.Tracks view history) (follows : history.Follows time)
    (named : record.process = view.process) (timed : record.time = timeDiff view.timeZero time) :
    valid.Admits record where
  process nonempty := named.trans (tracks.process nonempty).symm
  time nonempty := by
    obtain ⟨seen, last, known, latest, ordered⟩ := tracks.time nonempty
    exact ⟨seen, known, timed ▸ ordered.trans (timeDiff_le _ (follows last latest))⟩

/-- The `switch` runs on what the log knows. -/
theorem check (tracks : valid.Tracks view history) (follows : history.Follows time)
    (named : record.process = view.process) (timed : record.time = timeDiff view.timeZero time) :
    valid.check record = checkEvent ⟨false, some record.time, view.process, view.epochCount,
      view.outstanding history.inside⟩ record := by
  rw [(tracks.admits follows named timed).check, advance, start]
  cases empty : valid.isEmpty with
  | true =>
      have counted := tracks.epochCount
      have region := tracks.regionHash
      rw [tracks.blank empty] at counted region
      simp only [if_true, named, ← counted, ← region, new]
  | false =>
      simp only [Bool.false_eq_true, if_false, empty, tracks.process empty, tracks.epochCount,
        tracks.regionHash]

/-- The records that were seen stay in order when the producer makes another call. -/
theorem of_convert {call : Call} {regionHash : Nat} (tracks : valid.Tracks view history)
    (follows : history.Follows time) (latest : (history.next call).last = some time)
    (process : next.process = view.process) (timeZero : next.timeZero = view.timeZero)
    (epochCount : next.epochCount = view.epochCount)
    (cleared : valid.isEmpty = true → regionHash = regionHashInvalid)
    (region : regionHash = next.outstanding (history.next call).inside) :
    (valid.setRegionHash regionHash).Tracks next (history.next call) where
  blank empty := by
    rw [cleared empty, tracks.blank empty]
    rfl
  process nonempty := (tracks.process nonempty).trans process.symm
  time nonempty := by
    obtain ⟨seen, last, known, before, ordered⟩ := tracks.time nonempty
    exact ⟨seen, time, known, latest,
      timeZero ▸ ordered.trans (timeDiff_le _ (follows last before))⟩
  epochCount := tracks.epochCount.trans epochCount.symm
  regionHash := region

theorem of_call {call : Call} (tracks : valid.Tracks view history) (follows : history.Follows time)
    (latest : (history.next call).last = some time) (process : next.process = view.process)
    (timeZero : next.timeZero = view.timeZero) (epochCount : next.epochCount = view.epochCount)
    (region : next.outstanding (history.next call).inside = view.outstanding history.inside) :
    valid.Tracks next (history.next call) :=
  tracks.of_convert follows latest process timeZero epochCount
    (fun empty => by rw [tracks.blank empty]; rfl) (tracks.regionHash.trans region.symm)

/-- A record that was accepted is the latest. -/
theorem of_record {call : Call} {seen : Rat} {process : Int} {epochCount regionHash : Nat}
    (latest : (history.next call).last = some time) (timed : seen = timeDiff next.timeZero time)
    (named : process = next.process) (epoch : epochCount = next.epochCount)
    (region : regionHash = next.outstanding (history.next call).inside) :
    Tracks ⟨false, some seen, process, epochCount, regionHash⟩ next (history.next call) where
  blank empty := by simp at empty
  process _ := named
  time _ := ⟨seen, time, rfl, latest, timed.le⟩
  epochCount := epoch
  regionHash := region

end Tracks

/-- A hash that `validate_hash` accepts. -/
def HashValid (hash : Nat) : Prop := hash ≠ regionHashInvalid ∧ hash ≤ uint32Max

instance (hash : Nat) : Decidable (HashValid hash) := inferInstanceAs (Decidable (_ ∧ _))

theorem HashValid.validateHash {hash : Nat} (named : HashValid hash) :
    validateHash hash = .ok () := by
  rw [ValidateRecord.validateHash, if_neg]
  rintro (invalid | large)
  · exact named.1 invalid
  · exact absurd named.2 (Nat.not_le.mpr large)

/-- The regions of a producer's calls have such hashes. -/
def HashesValid : Call → Prop
  | .enter hash _ => HashValid hash
  | .exit hash _ => HashValid hash
  | _ => True

instance : ∀ call, Decidable (HashesValid call)
  | .enter hash _ => inferInstanceAs (Decidable (HashValid hash))
  | .exit hash _ => inferInstanceAs (Decidable (HashValid hash))
  | .epoch _ => inferInstanceAs (Decidable True)
  | .dump => inferInstanceAs (Decidable True)

section

variable {base valid : ValidateRecord} {view next : LogView} {history : History} {hash : Nat}
  {time : Time}

theorem Tracks.entry (tracks : valid.Tracks view history) (follows : history.Follows time)
    (named : HashValid hash) (outside : history.inside = none) :
    valid.check (view.record time .regionEntry hash) =
      .ok ⟨false, some (timeDiff view.timeZero time), view.process, view.epochCount, hash⟩ := by
  rw [tracks.check follows rfl rfl]
  simp [checkEvent, LogView.record, named.validateHash, outside, LogView.outstanding, Bind.bind,
    Except.bind]

theorem Tracks.exit (tracks : valid.Tracks view history) (follows : history.Follows time)
    (named : HashValid hash) (entered : view.outstanding history.inside = hash) :
    valid.check (view.record time .regionExit hash) =
      .ok ⟨false, some (timeDiff view.timeZero time), view.process, view.epochCount,
        regionHashInvalid⟩ := by
  rw [tracks.check follows rfl rfl]
  simp [checkEvent, LogView.record, named.validateHash, entered, named.1, Bind.bind, Except.bind]

/-- An entry record is accepted outside of regions only. -/
theorem checkEvent_entry {record : Record} (checked : base.checkEvent record = .ok valid)
    (entry : record.event = .regionEntry) :
    base.regionHash = regionHashInvalid ∧ valid = { base with regionHash := record.signal } := by
  simp only [checkEvent, entry] at checked
  cases named : validateHash record.signal with
  | error reason => simp [named, Bind.bind, Except.bind] at checked
  | ok _ =>
      simp only [named, Bind.bind, Except.bind] at checked
      split at checked
      · simp at checked
      · exact ⟨not_not.mp ‹_›, (Except.ok.inj checked).symm⟩

/-- Converted to a short region it is accepted as well, and leaves the validator outside. -/
theorem check_toShort {record : Record} (checked : base.check record = .ok valid)
    (entry : record.event = .regionEntry) (handle : Nat) :
    base.check (record.toShort handle) = .ok (valid.setRegionHash regionHashInvalid) := by
  obtain ⟨same, ordered, switched⟩ := check_ok checked
  obtain ⟨outside, rfl⟩ := checkEvent_entry switched entry
  refine (check_eq base (record.toShort handle) same ordered).trans ?_
  simp only [checkEvent, Record.toShort, setRegionHash, ← outside]
  rfl

theorem checkAll_cons {record : Record} {records : List Record} :
    base.checkAll (record :: records) = (base.check record).bind (·.checkAll records) := by
  simp only [checkAll, List.foldlM_cons]
  rfl

theorem checkAll_toShort {records : List Record} {index : Nat} {record : Record}
    (checked : base.checkAll records = .ok valid) (recorded : records[index]? = some record)
    (entry : record.event = .regionEntry)
    (others : ∀ (position : Nat) (record : Record), index < position →
      records[position]? = some record →
      record.event ≠ .regionEntry ∧ record.event ≠ .regionExit) (handle : Nat) :
    base.checkAll (records.modify index (Record.toShort handle)) =
      .ok (valid.setRegionHash regionHashInvalid) := by
  have after : ∀ other ∈ records.drop (index + 1),
      other.event ≠ .regionEntry ∧ other.event ≠ .regionExit := by
    intro other member
    obtain ⟨position, later, there⟩ := Table.getElem?_of_mem_drop member
    exact others position other later there
  rw [Table.split_of_getElem? recorded, checkAll_append] at checked
  rw [Table.modify_of_getElem? recorded, checkAll_append]
  cases before : base.checkAll (records.take index) with
  | error reason => simp [before, Except.bind] at checked
  | ok middle =>
      simp only [before, Except.bind, checkAll_cons] at checked ⊢
      cases entered : middle.check record with
      | error reason => simp [entered] at checked
      | ok inside =>
          simp only [entered] at checked
          simp only [check_toShort entered entry handle,
            checkAll_setRegionHash _ (check_nonempty entered) after, checked, Except.map]

/-- The validator accepts what a producer's call has appended or converted. -/
theorem Tracks.step {call : Call} (formed : view.WellFormed)
    (bracketed : view.Bracketed history.inside) (alternates : history.Alternates call)
    (ordered : history.Nondecreasing call) (named : HashesValid call)
    (step : LogView.Step view call next) (producer : call ≠ .dump)
    (checked : base.checkAll view.records = .ok valid) (tracks : valid.Tracks view history) :
    ∃ after, base.checkAll next.records = .ok after ∧ after.Tracks next (history.next call) := by
  cases step with
  | @enterNew hash time unknown =>
      refine ⟨_, (checkAll_concat checked _).trans (tracks.entry ordered named alternates), ?_⟩
      refine .of_record rfl (by simp) (by simp) (by simp) ?_
      simp [History.next, LogView.outstanding, LogView.reset_map_of_records]
  | @enterKnown hash time info known =>
      refine ⟨valid, by simpa using checked,
        tracks.of_call ordered rfl (by simp) (by simp) (by simp) ?_⟩
      rw [show history.inside = none from alternates] at bracketed ⊢
      have short := bracketed.isShort_of_outside known
      simp only [History.next, LogView.outstanding]
      refine if_pos (LogView.isShort_of_reset.trans ?_)
      simp [short]
  | @exitUnlogged hash time unknown =>
      obtain ⟨start, inside⟩ := alternates
      have entered : view.outstanding history.inside = hash := by
        simp [inside, LogView.outstanding, unknown]
      refine ⟨_, (checkAll_concat checked _).trans (tracks.exit ordered named entered), ?_⟩
      exact .of_record rfl (by simp) (by simp) (by simp) rfl
  | @exitEntered hash index time start short known recorded =>
      obtain ⟨unpaired, position, _, same, found⟩ :=
        (formed.placed hash _ known).of_entered (by simp) rfl
      obtain rfl : index = position := by simpa using same
      have others := fun position record (after : index < position) =>
        bracketed.lastEntry hash _ position record known unpaired (by simpa using after)
      refine ⟨_, checkAll_toShort checked found rfl others _, ?_⟩
      exact tracks.of_convert ordered rfl (by simp) (by simp) (by simp) (fun _ => rfl) rfl
  | @exitCarried hash time start short known =>
      obtain ⟨_, inside⟩ := alternates
      have outside : view.outstanding history.inside = regionHashInvalid := by
        have carried := ((formed.placed hash _ known).of_carried rfl).2
        simp_all [LogView.outstanding]
      refine ⟨_, (checkAll_concat checked _).trans (tracks.check ordered rfl rfl), ?_⟩
      rw [outside]
      exact .of_record rfl (by simp [Record.toShort, LogView.record]) (by simp) (by simp) rfl
  | @exitShort hash index handle time start short known counted =>
      refine ⟨valid, by simpa using checked,
        tracks.of_call ordered rfl (by simp) (by simp) (by simp) ?_⟩
      obtain ⟨_, inside⟩ := alternates
      have paired := ((formed.placed hash _ known).of_short (by simp)).1
      simp_all [History.next, LogView.outstanding]
  | @epoch time =>
      refine ⟨⟨false, some (timeDiff view.timeZero time), view.process, view.epochCount + 1,
        view.outstanding history.inside⟩,
        (checkAll_concat checked _).trans ((tracks.check ordered rfl rfl).trans ?_), ?_⟩
      · simp [checkEvent, LogView.record]
      · refine .of_record rfl (by simp) (by simp) rfl ?_
        simp [History.next, LogView.outstanding, LogView.reset_map_of_records]
  | dump => exact absurd rfl producer

theorem Tracks.dump (bracketed : view.Bracketed history.inside)
    (tracks : valid.Tracks view history) :
    valid.Tracks { view with records := [], regions := [] } history := by
  refine ⟨tracks.blank, tracks.process, tracks.time, tracks.epochCount, ?_⟩
  rw [tracks.regionHash]
  cases inside : history.inside with
  | none => rfl
  | some entry =>
      have entered : entry.1 = view.entered := (bracketed.entered entry.1 entry.2 inside).symm
      simp only [LogView.outstanding, entered]
      rw [LogView.isShort_of_dump view { view with records := [], regions := [] } rfl rfl]

end

end ValidateRecord

/-- One process: its log, what its producer has done, and the records that were
dumped so far, in order. -/
structure Trace where
  log : RecordLog
  history : History
  dumped : List Record

namespace Trace

open ValidateRecord (new HashesValid)

def initial (process : Int) (timeZero : Time) : Trace :=
  ⟨RecordLog.initial process timeZero, History.empty, []⟩

def step (trace : Trace) (call : Call) : Trace where
  log := trace.log.step call
  history := trace.history.next call
  dumped :=
    match call with
    | .dump => trace.dumped ++ trace.log.dump.1.1
    | _ => trace.dumped

/-- Well-bracketed calls without nesting, with valid hashes and nondecreasing
times, that do not find the log full. -/
structure Permits (trace : Trace) (call : Call) : Prop where
  noOverflow : trace.log.NoOverflow call
  alternates : trace.history.Alternates call
  nondecreasing : trace.history.Nondecreasing call
  hashesValid : HashesValid call

instance (trace : Trace) (call : Call) : Decidable (trace.Permits call) :=
  decidable_of_iff (trace.log.NoOverflow call ∧ trace.history.Alternates call ∧
    trace.history.Nondecreasing call ∧ HashesValid call)
    ⟨fun ⟨space, alternates, ordered, named⟩ => ⟨space, alternates, ordered, named⟩,
      fun ⟨space, alternates, ordered, named⟩ => ⟨space, alternates, ordered, named⟩⟩

/-- The validator has accepted all records up to the end of the log. -/
structure Accepted (trace : Trace) : Prop where
  followed : trace.log.Followed trace.history
  tracks : ∃ base valid, new.checkAll trace.dumped = .ok base ∧
    base.checkAll trace.log.view.records = .ok valid ∧ valid.Tracks trace.log.view trace.history

theorem dumped_of_producer (trace : Trace) {call : Call} (producer : call ≠ .dump) :
    (trace.step call).dumped = trace.dumped := by
  cases call with
  | enter _ _ => rfl
  | exit _ _ => rfl
  | epoch _ => rfl
  | dump => exact absurd rfl producer

theorem Accepted.step {trace : Trace} {call : Call} (accepted : trace.Accepted)
    (permits : trace.Permits call) : (trace.step call).Accepted := by
  obtain ⟨followed, base, valid, before, checked, tracks⟩ := accepted
  obtain ⟨next, done, stepped, after⟩ :=
    followed.step permits.noOverflow permits.alternates
  have reached : (trace.step call).log = next := by simp only [Trace.step, RecordLog.step, done]
  refine ⟨reached ▸ after, ?_⟩
  rw [reached]
  by_cases dumps : call = .dump
  · subst dumps
    have emptied : next = trace.log.cleared := by simpa [RecordLog.call, RecordLog.dump] using done.symm
    refine ⟨valid, valid, ?_, ?_, ?_⟩
    · change new.checkAll (trace.dumped ++ trace.log.view.records) = .ok valid
      rw [ValidateRecord.checkAll_append, before]
      exact checked
    · rw [emptied]
      rfl
    · rw [emptied]
      exact tracks.dump followed.bracketed
  · obtain ⟨final, accepted, follows⟩ := tracks.step followed.sound.wellFormed followed.bracketed
      permits.alternates permits.nondecreasing permits.hashesValid stepped dumps checked
    exact ⟨base, final, (trace.dumped_of_producer dumps).symm ▸ before, accepted, follows⟩

/-- One validator accepts the concatenation of everything that is dumped. -/
theorem checkAll_dumped (process : Int) (timeZero : Time)
    (configured : (RecordLog.initial process timeZero).Configured) (calls : List Call)
    (permitted : Transition.Permitted step Permits (initial process timeZero) calls) :
    ∃ valid, new.checkAll (Transition.run step (initial process timeZero) calls).dumped =
      .ok valid := by
  have initial : (initial process timeZero).Accepted := by
    refine ⟨.initial configured, new, new, rfl, rfl, ?_⟩
    exact ⟨fun _ => rfl, fun nonempty => by simp [new] at nonempty,
      fun nonempty => by simp [new] at nonempty, rfl, rfl⟩
  obtain ⟨_, base, _, dumped, _⟩ := Transition.invariant_run
    (fun _ _ accepted permits => Accepted.step accepted permits) initial permitted
  exact ⟨base, dumped⟩

/-- A short region, an epoch, a region that straddles a dump as an entry record,
and one that does so as a short region. -/
theorem checkAll_dumped_mixed :
    ∃ valid, new.checkAll (Transition.run step (initial 1 ⟨1, 0⟩)
      [.enter 7 ⟨2, 0⟩, .exit 7 ⟨3, 0⟩, .enter 7 ⟨4, 0⟩, .epoch ⟨4, 0⟩, .dump, .exit 7 ⟨5, 0⟩,
        .enter 9 ⟨6, 0⟩, .dump, .exit 9 ⟨7, 0⟩, .dump]).dumped = .ok valid :=
  checkAll_dumped 1 ⟨1, 0⟩ ⟨by decide, by decide +kernel⟩ _ (by decide +kernel)

end Trace

end Geopm
