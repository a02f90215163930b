import Geopm.EpochFilter.Filter
import Geopm.ValidateRecord

namespace Geopm

open RecordLog (Call)

/-! The epochs of a proxy region, and the dumps of the log in front of the filter. -/

/-- The record that the proxy filter counts. -/
def IsEntry (region : Nat) (record : Record) : Prop :=
  record.event = .regionEntry ∧ record.signal = region

instance (region : Nat) (record : Record) : Decidable (IsEntry region record) :=
  inferInstanceAs (Decidable (_ ∧ _))

namespace ProxyEpochRecordFilter

/-- The number of epochs that the filter makes of the records. -/
def synthesised (proxy : ProxyEpochRecordFilter) : List Record → Nat
  | [] => 0
  | record :: rest => (proxy.filter record).1.countP (·.event = .epochCount) +
      (proxy.filter record).2.synthesised rest

/-- The entry with the given number, counted from one, is the one after the startup, or
one of a full number of calls after that. -/
def Due (callsPerEpoch startupCount : Int) (entry : Nat) : Prop :=
  startupCount < entry ∧ (entry - startupCount - 1) % callsPerEpoch = 0

instance (callsPerEpoch startupCount : Int) (entry : Nat) :
    Decidable (Due callsPerEpoch startupCount entry) :=
  inferInstanceAs (Decidable (_ ∧ _))

/-- The epochs that are due with a number of entries. -/
def due (callsPerEpoch startupCount : Int) (entries : Nat) : Nat :=
  (List.range' 1 entries).countP (Due callsPerEpoch startupCount ·)

variable {callsPerEpoch startupCount : Int} {region entries more : Nat}
  {proxy : ProxyEpochRecordFilter} {records : List Record}

theorem due_add : due callsPerEpoch startupCount (entries + more) =
    due callsPerEpoch startupCount entries +
      (List.range' (entries + 1) more).countP (Due callsPerEpoch startupCount ·) := by
  rw [due, ← List.range'_append_1, List.countP_append, Nat.add_comm 1 entries]
  rfl

/-- Fewer entries make as many epochs if none of the others was due. -/
theorem due_eq_iff (fewer : entries ≤ more) :
    due callsPerEpoch startupCount entries = due callsPerEpoch startupCount more ↔
      ∀ entry, entries < entry → entry ≤ more → ¬ Due callsPerEpoch startupCount entry := by
  obtain ⟨rest, rfl⟩ := Nat.exists_eq_add_of_le fewer
  rw [due_add, Nat.left_eq_add, List.countP_eq_zero]
  simp only [decide_eq_true_eq, List.mem_range'_1]
  constructor
  · intro none entry after within
    exact none entry ⟨by omega, by omega⟩
  · intro none entry within
    exact none entry (by omega) (by omega)

theorem filter_entry {record : Record} (matching : IsEntry proxy.proxyHash record) :
    (proxy.filter record).1.countP (·.event = .epochCount) =
      (if proxy.count ≥ 0 ∧ proxy.count % proxy.numPerEpoch = 0 then 1 else 0) ∧
    (proxy.filter record).2 = { proxy with count := proxy.count + 1 } := by
  have other : record.event ≠ .epochCount := by simp [matching.1]
  have counts : record.event = .regionEntry ∧ record.signal = proxy.proxyHash := matching
  rw [filter, if_pos other, if_pos counts]
  refine ⟨?_, rfl⟩
  simp only
  split <;> simp [other]

theorem filter_other {record : Record} (other : ¬ IsEntry proxy.proxyHash record) :
    (proxy.filter record).1.countP (·.event = .epochCount) = 0 ∧
    (proxy.filter record).2 = proxy := by
  have ignored : ¬ (record.event = .regionEntry ∧ record.signal = proxy.proxyHash) := other
  rw [filter, if_neg ignored]
  split
  · exact ⟨by simpa, rfl⟩
  · exact ⟨rfl, rfl⟩

/-- The filter makes an epoch of each entry that is due. -/
theorem synthesised_eq (counted : proxy.count = entries - startupCount)
    (period : proxy.numPerEpoch = callsPerEpoch) (records : List Record) :
    due callsPerEpoch startupCount entries + proxy.synthesised records =
      due callsPerEpoch startupCount (entries + records.countP (IsEntry proxy.proxyHash ·)) := by
  induction records generalizing proxy entries with
  | nil => rfl
  | cons record rest ih =>
      rw [synthesised, List.countP_cons]
      by_cases matching : IsEntry proxy.proxyHash record
      · obtain ⟨epochs, later⟩ := filter_entry matching
        have following := @ih (entries + 1) { proxy with count := proxy.count + 1 }
          (by simp only [counted]; push_cast; ring) period
        have same : Due callsPerEpoch startupCount (entries + 1) ↔
            proxy.count ≥ 0 ∧ proxy.count % proxy.numPerEpoch = 0 := by
          rw [Due, counted, period]
          push_cast
          rw [show (entries : Int) + 1 - startupCount - 1 = entries - startupCount by ring]
          exact and_congr_left fun _ => by omega
        rw [due_add, List.range'_one, List.countP_singleton] at following
        simp only [decide_eq_true_eq, same] at following
        simp only [epochs, later, matching, decide_true, if_true]
        rw [← Nat.add_assoc, following]
        congr 1
        omega
      · obtain ⟨epochs, later⟩ := filter_other matching
        rw [epochs, later, Nat.zero_add, ih counted period]
        simp [matching]

theorem new_eq (created : new region callsPerEpoch startupCount = .ok proxy) :
    proxy = ⟨region, callsPerEpoch, -startupCount⟩ ∧ 0 < callsPerEpoch ∧ 0 ≤ startupCount := by
  rw [new] at created
  split at created
  · simp at created
  · split at created
    · simp at created
    · split at created
      · simp at created
      · exact ⟨(Except.ok.inj created).symm, by omega, by omega⟩

theorem synthesised_new (created : new region callsPerEpoch startupCount = .ok proxy)
    (records : List Record) : proxy.synthesised records =
      due callsPerEpoch startupCount (records.countP (IsEntry region ·)) := by
  obtain ⟨rfl, _, _⟩ := new_eq created
  have run := @synthesised_eq callsPerEpoch startupCount 0
    ⟨region, callsPerEpoch, -startupCount⟩ (by simp) rfl records
  rwa [due, List.range'_zero, List.countP_nil, Nat.zero_add, Nat.zero_add] at run

end ProxyEpochRecordFilter

/-- What a region's visits leave to see in the dumps. -/
structure Visits where
  /-- the region that is being executed -/
  entered : Nat
  /-- whether the region was visited since the last dump, and then whether as a short one -/
  known : Option Bool
  /-- the visits that a dump has cut, so that it returned their entry -/
  cut : Nat
deriving DecidableEq

namespace Visits

def initial : Visits := ⟨regionHashInvalid, none, 0⟩

/-- The visits that a dump would cut now. -/
def pending (visits : Visits) : Nat := if visits.known = some false then 1 else 0

def next (region : Nat) (visits : Visits) : Call → Visits
  | .enter hash _ =>
      { visits with
        entered := hash
        known := if hash = region then some (visits.known.getD false) else visits.known }
  | .exit hash _ =>
      { visits with
        entered := regionHashInvalid
        known := if hash = region then visits.known.map fun _ => true else visits.known }
  | .epoch _ => visits
  | .dump =>
      { visits with
        -- a short region that is being executed stays one
        known := if visits.known = some true ∧ visits.entered = region then some true else none
        cut := visits.cut + visits.pending }

section

variable {region hash : Nat} {visits : Visits} {short : Bool} (time : Time)

theorem next_enter_other (different : hash ≠ region) :
    visits.next region (.enter hash time) = { visits with entered := hash } := by
  simp [next, different]

theorem next_enter_unknown (unknown : visits.known = none) :
    visits.next region (.enter region time) =
      { visits with entered := region, known := some false } := by
  simp [next, unknown]

theorem next_enter_known (known : visits.known = some short) :
    visits.next region (.enter region time) = { visits with entered := region } := by
  simp [next, known]

theorem next_exit_other (different : hash ≠ region) :
    visits.next region (.exit hash time) = { visits with entered := regionHashInvalid } := by
  simp [next, different]

theorem next_exit_unknown (unknown : visits.known = none) :
    visits.next region (.exit region time) = { visits with entered := regionHashInvalid } := by
  simp [next, unknown]

theorem next_exit_known (known : visits.known = some short) :
    visits.next region (.exit region time) =
      { visits with entered := regionHashInvalid, known := some true } := by
  simp [next, known]

end

/-- The visits of a region that are cut. -/
def cuts (region : Nat) (calls : List Call) : Nat :=
  (Transition.run (next region) initial calls).cut

/-- The visits of a region. -/
def entries (region : Nat) (calls : List Call) : Nat :=
  calls.countP fun
    | .enter hash _ => hash = region
    | _ => false

theorem pending_le (visits : Visits) : visits.pending ≤ 1 := by
  unfold pending
  split <;> omega

/-- Only a visit is cut. -/
theorem step_le (region : Nat) (visits : Visits) (call : Call) :
    (visits.next region call).cut + (visits.next region call).pending ≤
      visits.cut + visits.pending + entries region [call] := by
  cases call with
  | enter hash time =>
      by_cases same : hash = region
      · have bound := (visits.next region (.enter hash time)).pending_le
        simp only [entries, List.countP_singleton, same, decide_true, if_true]
        exact Nat.add_le_add (Nat.le_add_right _ _) (same ▸ bound)
      · simp [next, same, entries, pending]
  | exit hash time =>
      have none : (visits.known.map fun _ => true) ≠ some false := by
        cases visits.known <;> simp
      by_cases same : hash = region
      · simp [next, same, entries, pending, none]
      · simp [next, same, entries, pending]
  | epoch time => exact Nat.le_add_right _ _
  | dump =>
      have none : (visits.next region .dump).pending = 0 := by
        refine if_neg ?_
        simp only [next]
        split <;> simp
      rw [none]
      exact Nat.le_add_right _ _

theorem entries_cons (region : Nat) (call : Call) (calls : List Call) :
    entries region (call :: calls) = entries region [call] + entries region calls := by
  rw [entries, List.countP_cons, Nat.add_comm, entries, List.countP_singleton]
  rfl

theorem run_le (region : Nat) (visits : Visits) (calls : List Call) :
    (Transition.run (next region) visits calls).cut ≤
      visits.cut + visits.pending + entries region calls := by
  induction calls generalizing visits with
  | nil =>
      simp only [Transition.run_nil]
      omega
  | cons call rest ih =>
      have step := step_le region visits call
      have run := ih (visits.next region call)
      rw [Transition.run_cons, entries_cons]
      omega

theorem cuts_le (region : Nat) (calls : List Call) : cuts region calls ≤ entries region calls := by
  have bound := run_le region initial calls
  rwa [show initial.cut + initial.pending = 0 from rfl, Nat.zero_add] at bound

end Visits

namespace LogView

/-- The log knows of a region what its visits tell. -/
structure Shows (view : LogView) (region : Nat) (visits : Visits) : Prop where
  entered : view.entered = visits.entered
  known : (view.reset.map region).map RegionEnter.isShort = visits.known
  pending : view.records.countP (IsEntry region ·) = visits.pending

variable {view next : LogView} {region : Nat} {visits : Visits} {call : Call}

theorem Shows.of_records (nonempty : next.records ≠ []) (entered : next.entered = visits.entered)
    (known : (next.map region).map RegionEnter.isShort = visits.known)
    (pending : next.records.countP (IsEntry region ·) = visits.pending) :
    next.Shows region visits :=
  ⟨entered, by rw [reset_map_of_records nonempty, known], pending⟩

theorem isShort_update (map : Nat → Option RegionEnter) (hash region : Nat) (info : RegionEnter) :
    (Function.update map hash (some info) region).map RegionEnter.isShort =
      if hash = region then some info.isShort else (map region).map RegionEnter.isShort := by
  by_cases same : hash = region
  · subst same
    simp
  · rw [Function.update_of_ne (Ne.symm same), if_neg same]

/-- A record that was converted is no entry any more. -/
theorem countP_toShort {records : List Record} {index handle : Nat} {record : Record}
    (recorded : records[index]? = some record) :
    (records.modify index (Record.toShort handle)).countP (IsEntry region ·) +
      (if IsEntry region record then 1 else 0) = records.countP (IsEntry region ·) := by
  have converted : ¬ IsEntry region (record.toShort handle) := by simp [IsEntry, Record.toShort]
  conv_rhs => rw [Table.split_of_getElem? recorded]
  rw [Table.modify_of_getElem? recorded]
  simp only [List.countP_append, List.countP_cons, converted, decide_false, decide_eq_true_eq]
  simp only [Bool.false_eq_true, if_false]
  omega

section

variable {hash : Nat} {time : Time}

theorem Shows.enterNew (shows : view.Shows region visits) (unknown : view.reset.map hash = none) :
    LogView.Shows { view.reset.set hash ⟨view.records.length, -1, time, false⟩ with
      records := view.records ++ [view.record time .regionEntry hash]
      entered := hash } region (visits.next region (.enter hash time)) := by
  obtain ⟨entered, known, pending⟩ := shows
  by_cases same : hash = region
  · subst same
    rw [unknown] at known
    rw [Visits.next_enter_unknown time known.symm]
    refine .of_records (by simp) rfl (by simp) ?_
    rw [List.countP_append, pending, Visits.pending, ← known]
    simp [LogView.record, IsEntry, Visits.pending]
  · rw [Visits.next_enter_other time same]
    refine .of_records (by simp) rfl ?_ ?_
    · simpa only [set_map, isShort_update, if_neg same] using known
    · rw [List.countP_append, pending]
      simp [LogView.record, IsEntry, same, Visits.pending]

theorem Shows.exitUnlogged (shows : view.Shows region visits)
    (unknown : view.reset.map hash = none) :
    LogView.Shows { view.reset with
      records := view.records ++ [view.record time .regionExit hash]
      entered := regionHashInvalid } region (visits.next region (.exit hash time)) := by
  obtain ⟨entered, known, pending⟩ := shows
  have counted : (view.records ++ [view.record time .regionExit hash]).countP (IsEntry region ·) =
      visits.pending := by
    rw [List.countP_append, pending]
    simp [LogView.record, IsEntry]
  by_cases same : hash = region
  · subst same
    rw [unknown] at known
    rw [Visits.next_exit_unknown time known.symm]
    exact .of_records (by simp) rfl (by simpa [unknown] using known) counted
  · rw [Visits.next_exit_other time same]
    exact .of_records (by simp) rfl known counted

/-- An exit from a region that the log knows leaves no entry of the region. -/
theorem Shows.exitKnown {info changed : RegionEnter} (shows : view.Shows region visits)
    (stored : view.reset.map hash = some info) (short : changed.isShort = true)
    (nonempty : next.records ≠ [])
    (map : next.map = Function.update view.reset.map hash (some changed))
    (entered : next.entered = regionHashInvalid)
    (counted : next.records.countP (IsEntry region ·) +
      (if hash = region ∧ info.isShort = false then 1 else 0) =
        view.records.countP (IsEntry region ·)) :
    next.Shows region (visits.next region (.exit hash time)) := by
  obtain ⟨_, known, pending⟩ := shows
  rw [pending, Visits.pending] at counted
  by_cases same : hash = region
  · subst same
    rw [stored, Option.map_some] at known
    rw [Visits.next_exit_known time known.symm]
    refine .of_records nonempty entered ?_ ?_
    · simp [map, short]
    · rw [← known] at counted
      cases before : info.isShort <;> simp [before, Visits.pending] at counted ⊢ <;> simpa using counted
  · rw [Visits.next_exit_other time same]
    refine .of_records nonempty entered ?_ ?_
    · rw [map, isShort_update, if_neg same, known]
    · rwa [if_neg (fun both => same both.1), Nat.add_zero] at counted

theorem Shows.exitEntered {index : Nat} {start : Time} {short : Bool} (formed : view.WellFormed)
    (shows : view.Shows region visits)
    (stored : view.reset.map hash = some ⟨index, -1, start, short⟩) :
    LogView.Shows { view.reset.set hash ⟨index, view.regions.length, start, true⟩ with
      records := view.records.modify index (Record.toShort view.regions.length)
      regions := view.regions ++ [visited hash (timeDiff start time)]
      entered := regionHashInvalid } region (visits.next region (.exit hash time)) := by
  obtain ⟨unpaired, position, entryTime, same, found⟩ :=
    (formed.placed hash _ stored).of_entered (by simp) rfl
  obtain rfl : index = position := by simpa using same
  refine shows.exitKnown stored rfl ?_ rfl rfl ?_
  · simpa using nonempty_of_getElem? found
  · have converted := @countP_toShort region _ _ view.regions.length _ found
    simp only at unpaired
    simpa [IsEntry, unpaired] using converted

theorem Shows.exitCarried {start : Time} {short : Bool} (formed : view.WellFormed)
    (shows : view.Shows region visits)
    (stored : view.reset.map hash = some ⟨-1, -1, start, short⟩) :
    LogView.Shows { view.reset.set hash ⟨view.records.length, view.regions.length, start, true⟩ with
      records := view.records ++
        [(view.record time .regionEntry hash).toShort view.regions.length]
      regions := view.regions ++ [visited hash (timeDiff start time)]
      entered := regionHashInvalid } region (visits.next region (.exit hash time)) := by
  have before := ((formed.placed hash _ stored).of_carried rfl).2
  refine shows.exitKnown stored rfl (by simp) rfl rfl ?_
  rw [List.countP_append, before]
  simp [IsEntry, Record.toShort]

theorem Shows.exitShort {index handle : Nat} {start : Time} {short : Bool}
    (formed : view.WellFormed) (shows : view.Shows region visits)
    (stored : view.reset.map hash = some ⟨index, handle, start, short⟩) :
    LogView.Shows { view.reset.set hash ⟨index, handle, start, true⟩ with
      regions := view.regions.modify handle (ShortRegion.complete (timeDiff start time))
      entered := regionHashInvalid } region (visits.next region (.exit hash time)) := by
  obtain ⟨before, position, _, _, _, _, _, found, _⟩ :=
    (formed.placed hash _ stored).of_short (by simp)
  refine shows.exitKnown stored rfl ?_ rfl rfl ?_
  · simpa using nonempty_of_getElem? found
  · simp only at before
    simp [before]

/-- Entering a region again tells nothing new of it. -/
theorem Shows.enterKnown {info : RegionEnter} (shows : view.Shows region visits)
    (stored : view.reset.map hash = some info) :
    LogView.Shows { view.reset.set hash { info with enterTime := time } with entered := hash }
      region (visits.next region (.enter hash time)) := by
  obtain ⟨_, known, pending⟩ := shows
  have visit : visits.next region (.enter hash time) = { visits with entered := hash } := by
    by_cases same : hash = region
    · subst same
      rw [stored, Option.map_some] at known
      exact Visits.next_enter_known time known.symm
    · exact Visits.next_enter_other time same
  have counted := (congrArg (List.countP (IsEntry region ·)) view.reset_records).trans pending
  rw [visit]
  by_cases empty : view.records = []
  · -- the next call resets the map again, and keeps this entry
    refine ⟨rfl, ?_, counted⟩
    obtain ⟨named, old, _, _, rfl⟩ := kept_of_empty empty stored
    have kept : view.reset.map region = if hash = region then
        some ⟨-1, -1, old.enterTime, true⟩ else none := by
      by_cases same : hash = region
      · rw [← same, stored, if_pos rfl]
      · rw [if_neg same, Option.eq_none_iff_forall_ne_some]
        intro info found
        exact same (named.trans (kept_of_empty empty found).1.symm)
    rw [← known, kept, reset, if_pos (by simpa using empty)]
    simp only [set_map, RecordLog.keptRegion, Function.update_self, if_true, isShort_update]
    split <;> rfl
  · refine .of_records (by simpa using empty) rfl ?_ counted
    rw [set_map, isShort_update]
    split
    · rw [← known, ← ‹hash = region›, stored]
      rfl
    · exact known

theorem Shows.dump (shows : view.Shows region visits) :
    LogView.Shows { view with records := [], regions := [] } region (visits.next region .dump) := by
  obtain ⟨entered, known, _⟩ := shows
  refine ⟨entered, ?_, ?_⟩
  · have carried := isShort_of_dump view { view with records := [], regions := [] } rfl rfl
    simp only [Visits.next, ← entered, ← known]
    cases found : (LogView.reset { view with records := [], regions := [] }).map region with
    | none =>
        refine (if_neg ?_).symm
        rintro ⟨short, rfl⟩
        rw [found] at carried
        obtain ⟨info, stored, same⟩ := Option.map_eq_some_iff.mp short
        simp [stored, same] at carried
    | some info =>
        obtain ⟨named, old, stored, short, rfl⟩ :=
          @kept_of_dump view { view with records := [], regions := [] } _ _ rfl rfl rfl found
        rw [if_pos ⟨by rw [stored, Option.map_some, short], named.symm⟩]
        rfl
  · refine (if_neg ?_).symm
    simp only [Visits.next]
    split <;> simp

end

theorem Shows.step (formed : view.WellFormed) (shows : view.Shows region visits)
    (step : Step view call next) : next.Shows region (visits.next region call) := by
  cases step with
  | enterNew unknown => exact shows.enterNew unknown
  | enterKnown stored => exact shows.enterKnown stored
  | exitUnlogged unknown => exact shows.exitUnlogged unknown
  | exitEntered stored _ => exact shows.exitEntered formed stored
  | exitCarried stored => exact shows.exitCarried formed stored
  | exitShort stored _ => exact shows.exitShort formed stored
  | epoch =>
      exact .of_records (by simp) (view.reset_entered.trans shows.entered) shows.known
        ((by simp [LogView.record, IsEntry] : _ = _).trans shows.pending)
  | dump => exact shows.dump

end LogView

/-- The dumped records hold the entry of each visit that a dump has cut. -/
structure Trace.Shows (trace : Trace) (region : Nat) (visits : Visits) : Prop where
  sound : trace.log.Sound
  configured : trace.log.Configured
  shows : trace.log.view.Shows region visits
  dumped : trace.dumped.countP (IsEntry region ·) = visits.cut

namespace Trace

variable {region : Nat} {visits : Visits} {trace : Trace} {call : Call} {process : Int}
  {timeZero : Time}

theorem Shows.initial (configured : (RecordLog.initial process timeZero).Configured) :
    (Trace.initial process timeZero).Shows region Visits.initial where
  sound := RecordLog.initial_sound process timeZero
  configured := configured
  shows := by
    refine ⟨rfl, Option.map_eq_none_iff.mpr (Option.eq_none_iff_forall_ne_some.mpr ?_), rfl⟩
    intro info found
    obtain ⟨_, _, stored, _⟩ := LogView.kept_of_empty rfl found
    simp [Trace.initial, RecordLog.view, RecordLog.initial] at stored
  dumped := rfl

theorem Shows.step (shows : trace.Shows region visits) (space : trace.log.NoOverflow call) :
    (trace.step call).Shows region (visits.next region call) := by
  obtain ⟨sound, configured, shown, dumped⟩ := shows
  cases outcome : trace.log.call call with
  | mk next thrown =>
      have reached : (trace.step call).log = next := congrArg Outcome.log outcome
      have result := outcome ▸ sound.call_result call
      cases result with
      | unset failed _ => exact absurd failed (configured.checkSetup _)
      | full _ _ => exact absurd (by rw [outcome]) space
      | done step nextSound =>
          have process : next.process = trace.log.process := step.process
          have timeZero : next.timeZero = trace.log.timeZero := step.timeZero
          refine ⟨reached ▸ nextSound, ?_, reached ▸ shown.step sound.wellFormed step, ?_⟩
          · rwa [reached, RecordLog.Configured, process, timeZero]
          · cases call with
            | dump =>
                change (trace.dumped ++ trace.log.view.records).countP _ = _
                rw [List.countP_append, dumped, shown.pending]
                rfl
            | enter _ _ => exact dumped
            | exit _ _ => exact dumped
            | epoch _ => exact dumped

theorem Shows.run (shows : trace.Shows region visits) {calls : List Call}
    (permitted : Transition.Permitted Trace.step (fun trace call => trace.log.NoOverflow call)
      trace calls) :
    (Transition.run Trace.step trace calls).Shows region
      (Transition.run (Visits.next region) visits calls) := by
  induction calls generalizing trace visits with
  | nil => exact shows
  | cons call rest ih => exact ih (shows.step permitted.1) permitted.2

/-- A producer's calls with dumps between them, and one behind them all. -/
structure Placement (process : Int) (timeZero : Time) (events calls : List Call) : Prop where
  same : calls.filter (· ≠ .dump) = events
  ends : calls.getLast? = some .dump
  space : Transition.Permitted Trace.step (fun trace call => trace.log.NoOverflow call)
    (Trace.initial process timeZero) calls

/-- What the dumps return, in order. -/
def dumps (process : Int) (timeZero : Time) (calls : List Call) : List Record :=
  (Transition.run Trace.step (Trace.initial process timeZero) calls).dumped

variable {callsPerEpoch startupCount : Int} {proxy : ProxyEpochRecordFilter}
  {events left right : List Call}

theorem Placement.entries (placement : Placement process timeZero events left) (region : Nat) :
    Visits.entries region left = Visits.entries region events := by
  rw [← placement.same, Visits.entries, Visits.entries, List.countP_filter]
  refine List.countP_congr fun call _ => ?_
  cases call <;> simp

/-- The filter makes the epochs that are due with the visits that are cut. -/
theorem Placement.synthesised (placement : Placement process timeZero events left)
    (configured : (RecordLog.initial process timeZero).Configured)
    (created : ProxyEpochRecordFilter.new region callsPerEpoch startupCount = .ok proxy) :
    proxy.synthesised (dumps process timeZero left) =
      ProxyEpochRecordFilter.due callsPerEpoch startupCount (Visits.cuts region left) := by
  have shows := @Shows.run region _ _ (.initial configured) _ placement.space
  rw [ProxyEpochRecordFilter.synthesised_new created, dumps, shows.dumped]
  rfl

/-- With two placements of dumps the filter makes the epochs that are due with all
visits, if no visit was due that is not cut. -/
theorem synthesised_placement_iff (configured : (RecordLog.initial process timeZero).Configured)
    (created : ProxyEpochRecordFilter.new region callsPerEpoch startupCount = .ok proxy)
    (first : Placement process timeZero events left)
    (second : Placement process timeZero events right) :
    (proxy.synthesised (dumps process timeZero left) =
        proxy.synthesised (dumps process timeZero right) ∧
      proxy.synthesised (dumps process timeZero left) =
        ProxyEpochRecordFilter.due callsPerEpoch startupCount (Visits.entries region events)) ↔
      ∀ calls, calls = left ∨ calls = right → ∀ entry, Visits.cuts region calls < entry →
        entry ≤ Visits.entries region events →
          ¬ ProxyEpochRecordFilter.Due callsPerEpoch startupCount entry := by
  have leftDue := @ProxyEpochRecordFilter.due_eq_iff callsPerEpoch startupCount _ _
    (Visits.cuts_le region left)
  have rightDue := @ProxyEpochRecordFilter.due_eq_iff callsPerEpoch startupCount _ _
    (Visits.cuts_le region right)
  rw [first.entries] at leftDue
  rw [second.entries] at rightDue
  rw [first.synthesised configured created, second.synthesised configured created]
  constructor
  · rintro ⟨same, all⟩ calls (rfl | rfl)
    · exact leftDue.mp all
    · exact rightDue.mp (same.symm.trans all)
  · intro none
    have all := leftDue.mpr (none left (.inl rfl))
    exact ⟨all.trans (rightDue.mpr (none right (.inr rfl))).symm, all⟩

/-- One visit that a dump cuts, also with one dump more. -/
theorem synthesised_placement_cut :
    let cut : List Call := [.enter 7 ⟨2, 0⟩, .dump, .exit 7 ⟨3, 0⟩, .dump]
    let twice : List Call := [.enter 7 ⟨2, 0⟩, .dump, .dump, .exit 7 ⟨3, 0⟩, .dump]
    (⟨7, 1, 0⟩ : ProxyEpochRecordFilter).synthesised (dumps 1 ⟨1, 0⟩ cut) =
        (⟨7, 1, 0⟩ : ProxyEpochRecordFilter).synthesised (dumps 1 ⟨1, 0⟩ twice) ∧
      (⟨7, 1, 0⟩ : ProxyEpochRecordFilter).synthesised (dumps 1 ⟨1, 0⟩ cut) =
        ProxyEpochRecordFilter.due 1 0
          (Visits.entries 7 [.enter 7 ⟨2, 0⟩, .exit 7 ⟨3, 0⟩]) := by
  intro cut twice
  have configured : (RecordLog.initial 1 ⟨1, 0⟩).Configured := ⟨by decide, by decide +kernel⟩
  have first : Placement 1 ⟨1, 0⟩ [.enter 7 ⟨2, 0⟩, .exit 7 ⟨3, 0⟩] cut :=
    ⟨rfl, rfl, by decide +kernel⟩
  have second : Placement 1 ⟨1, 0⟩ [.enter 7 ⟨2, 0⟩, .exit 7 ⟨3, 0⟩] twice :=
    ⟨rfl, rfl, by decide +kernel⟩
  refine (synthesised_placement_iff configured
    (show ProxyEpochRecordFilter.new 7 1 0 = .ok _ from rfl) first second).mpr ?_
  rintro calls (rfl | rfl) entry above below
  · exact absurd (lt_of_lt_of_le above below) (by decide)
  · exact absurd (lt_of_lt_of_le above below) (by decide)

/-- A visit between two dumps makes no epoch, and the same visit over a dump makes one. -/
theorem synthesised_placement_differs :
    let events : List Call := [.enter 7 ⟨2, 0⟩, .exit 7 ⟨3, 0⟩]
    let between : List Call := [.enter 7 ⟨2, 0⟩, .exit 7 ⟨3, 0⟩, .dump]
    let cut : List Call := [.enter 7 ⟨2, 0⟩, .dump, .exit 7 ⟨3, 0⟩, .dump]
    Transition.Permitted History.next History.Alternates History.empty events ∧
      (RecordLog.initial 1 ⟨1, 0⟩).Configured ∧
      ProxyEpochRecordFilter.new 7 1 0 = .ok ⟨7, 1, 0⟩ ∧
      Placement 1 ⟨1, 0⟩ events between ∧ Placement 1 ⟨1, 0⟩ events cut ∧
      (⟨7, 1, 0⟩ : ProxyEpochRecordFilter).synthesised (dumps 1 ⟨1, 0⟩ between) ≠
        (⟨7, 1, 0⟩ : ProxyEpochRecordFilter).synthesised (dumps 1 ⟨1, 0⟩ cut) :=
  ⟨by decide, ⟨by decide, by decide +kernel⟩, rfl, ⟨rfl, rfl, by decide +kernel⟩,
    ⟨rfl, rfl, by decide +kernel⟩, by decide +kernel⟩

end Trace

end Geopm
