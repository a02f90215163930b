import Geopm.RecordLog.Log

namespace Geopm

open RecordLog (Call)

/-! The record log as an abstract machine over lists.

`LogView` forgets the capacity of the tables and the slots that are not in
use. `LogView.Step` lists once what a call that does not throw can do; the
invariants of the log are proved of it, and `RecordLog.Represents` carries them
to the log itself.
-/

/-- The log with each table reduced to the list of its slots in use. -/
structure LogView where
  process : Int
  timeZero : Time
  epochCount : Nat
  entered : Nat
  map : Nat → Option RegionEnter
  records : List Record
  regions : List ShortRegion

namespace LogView

/-- `check_reset`, which every call of the producer runs first. -/
def reset (view : LogView) : LogView :=
  if view.records = [] then
    { view with map := RecordLog.keptRegion view.map view.entered }
  else view

def record (view : LogView) (time : Time) (event : Event) (signal : Nat) : Record where
  time := timeDiff view.timeZero time
  process := view.process
  event
  signal

def set (view : LogView) (hash : Nat) (info : RegionEnter) : LogView :=
  { view with map := Function.update view.map hash (some info) }

@[simp] theorem reset_records (view : LogView) : view.reset.records = view.records := by
  unfold reset; split <;> rfl

@[simp] theorem reset_regions (view : LogView) : view.reset.regions = view.regions := by
  unfold reset; split <;> rfl

@[simp] theorem reset_epochCount (view : LogView) : view.reset.epochCount = view.epochCount := by
  unfold reset; split <;> rfl

@[simp] theorem reset_entered (view : LogView) : view.reset.entered = view.entered := by
  unfold reset; split <;> rfl

@[simp] theorem reset_process (view : LogView) : view.reset.process = view.process := by
  unfold reset; split <;> rfl

@[simp] theorem reset_timeZero (view : LogView) : view.reset.timeZero = view.timeZero := by
  unfold reset; split <;> rfl

variable (view : LogView) (hash : Nat) (info : RegionEnter)

@[simp] theorem set_process : (view.set hash info).process = view.process := rfl

@[simp] theorem set_timeZero : (view.set hash info).timeZero = view.timeZero := rfl

@[simp] theorem set_epochCount : (view.set hash info).epochCount = view.epochCount := rfl

@[simp] theorem set_entered : (view.set hash info).entered = view.entered := rfl

@[simp] theorem set_records : (view.set hash info).records = view.records := rfl

@[simp] theorem set_regions : (view.set hash info).regions = view.regions := rfl

@[simp] theorem set_map :
    (view.set hash info).map = Function.update view.map hash (some info) := rfl

theorem reset_of_records {view : LogView} (nonempty : view.records ≠ []) : view.reset = view := by
  rw [reset, if_neg nonempty]

theorem reset_map_of_records {view : LogView} (nonempty : view.records ≠ []) :
    view.reset.map = view.map := by
  rw [reset_of_records nonempty]

/-- A visit of a region that has no record yet, as `exit` starts it. -/
def visited (hash : Nat) (elapsed : Rat) : ShortRegion :=
  ShortRegion.complete elapsed ⟨hash, 0, 0⟩

/-- One call that does not throw. -/
inductive Step : LogView → Call → LogView → Prop where
  | enterNew {view : LogView} {hash : Nat} {time : Time}
      (unknown : view.reset.map hash = none) :
      Step view (.enter hash time)
        { view.reset.set hash ⟨view.records.length, -1, time, false⟩ with
          records := view.records ++ [view.record time .regionEntry hash]
          entered := hash }
  | enterKnown {view : LogView} {hash : Nat} {time : Time} {info : RegionEnter}
      (known : view.reset.map hash = some info) :
      Step view (.enter hash time)
        { view.reset.set hash { info with enterTime := time } with entered := hash }
  | exitUnlogged {view : LogView} {hash : Nat} {time : Time}
      (unknown : view.reset.map hash = none) :
      Step view (.exit hash time)
        { view.reset with
          records := view.records ++ [view.record time .regionExit hash]
          entered := regionHashInvalid }
  | exitEntered {view : LogView} {hash index : Nat} {time start : Time} {short : Bool}
      (known : view.reset.map hash = some ⟨index, -1, start, short⟩)
      (recorded : index < view.records.length) :
      Step view (.exit hash time)
        { view.reset.set hash ⟨index, view.regions.length, start, true⟩ with
          records := view.records.modify index (Record.toShort view.regions.length)
          regions := view.regions ++ [visited hash (timeDiff start time)]
          entered := regionHashInvalid }
  | exitCarried {view : LogView} {hash : Nat} {time start : Time} {short : Bool}
      (known : view.reset.map hash = some ⟨-1, -1, start, short⟩) :
      Step view (.exit hash time)
        { view.reset.set hash ⟨view.records.length, view.regions.length, start, true⟩ with
          records := view.records ++
            [(view.record time .regionEntry hash).toShort view.regions.length]
          regions := view.regions ++ [visited hash (timeDiff start time)]
          entered := regionHashInvalid }
  | exitShort {view : LogView} {hash index handle : Nat} {time start : Time} {short : Bool}
      (known : view.reset.map hash = some ⟨index, handle, start, short⟩)
      (counted : handle < view.regions.length) :
      Step view (.exit hash time)
        { view.reset.set hash ⟨index, handle, start, true⟩ with
          regions := view.regions.modify handle (ShortRegion.complete (timeDiff start time))
          entered := regionHashInvalid }
  | epoch {view : LogView} {time : Time} :
      Step view (.epoch time)
        { view.reset with
          records := view.records ++ [view.record time .epochCount (view.epochCount + 1)]
          epochCount := view.epochCount + 1 }
  | dump {view : LogView} : Step view .dump { view with records := [], regions := [] }

theorem Step.process {view next : LogView} {call : Call} (step : Step view call next) :
    next.process = view.process := by
  cases step <;> simp

theorem Step.timeZero {view next : LogView} {call : Call} (step : Step view call next) :
    next.timeZero = view.timeZero := by
  cases step <;> simp

/-- The signals of the short region records, in the order of the records. -/
def shortSignals (records : List Record) : List Nat :=
  (records.filter (·.event = .shortRegion)).map (·.signal)

/-- Where the map entry of a region points once `check_reset` has run. -/
inductive Placed (view : LogView) (hash : Nat) : RegionEnter → Prop where
  /-- kept over a dump and not exited since -/
  | carried {start : Time} : Placed view hash ⟨-1, -1, start, true⟩
  /-- entered in this interval and not exited since -/
  | entered {index : Nat} {start : Time} (time : Rat)
      (recorded : view.records[index]? = some ⟨time, view.process, .regionEntry, hash⟩) :
      Placed view hash ⟨index, -1, start, false⟩
  /-- exited in this interval -/
  | short {index handle : Nat} {start : Time} (time : Rat) (region : ShortRegion)
      (recorded : view.records[index]? = some ⟨time, view.process, .shortRegion, handle⟩)
      (counted : view.regions[handle]? = some region) (named : region.hash = hash) :
      Placed view hash ⟨index, handle, start, true⟩

structure WellFormed (view : LogView) : Prop where
  signals : (shortSignals view.records).Perm (List.range view.regions.length)
  placed : ∀ hash info, view.reset.map hash = some info → view.Placed hash info

theorem shortSignals_append (left right : List Record) :
    shortSignals (left ++ right) = shortSignals left ++ shortSignals right := by
  simp [shortSignals]

theorem shortSignals_concat {records : List Record} {record : Record}
    (other : record.event ≠ .shortRegion) :
    shortSignals (records ++ [record]) = shortSignals records := by
  simp [shortSignals, other]

/-- Converting one record adds exactly its handle to the handles in use. -/
theorem shortSignals_modify {records : List Record} {index handle : Nat} {record : Record}
    (recorded : records[index]? = some record) (other : record.event ≠ .shortRegion) :
    (shortSignals (records.modify index (Record.toShort handle))).Perm
      (handle :: shortSignals records) := by
  conv_rhs => rw [Table.split_of_getElem? recorded]
  rw [Table.modify_of_getElem? recorded]
  simp only [shortSignals, Record.toShort, List.filter_append, List.map_append, decide_true,
    List.filter_cons_of_pos, List.map_cons, List.filter_cons_of_neg, other, decide_false,
    Bool.false_eq_true, not_false_eq_true]
  exact List.perm_middle

theorem range_concat_perm {signals : List Nat} {count : Nat}
    (perm : signals.Perm (List.range count)) : (count :: signals).Perm (List.range (count + 1)) := by
  rw [List.range_succ]
  exact (perm.cons count).trans (List.perm_append_singleton count _).symm

/-- In an interval without records `check_reset` keeps at most the region that
is being executed, and only with both indices cleared. -/
theorem kept_of_empty {view : LogView} {hash : Nat} {info : RegionEnter}
    (empty : view.records = []) (kept : view.reset.map hash = some info) :
    hash = view.entered ∧ ∃ old, view.map hash = some old ∧ old.isShort = true ∧
      info = ⟨-1, -1, old.enterTime, true⟩ := by
  rw [reset, if_pos empty] at kept
  simp only [RecordLog.keptRegion] at kept
  cases found : view.map view.entered with
  | none => simp [found] at kept
  | some old =>
      cases short : old.isShort with
      | false => simp [found, short] at kept
      | true =>
          by_cases same : hash = view.entered
          · subst same
            simp only [found, short, if_true, Function.update_self, Option.some.injEq] at kept
            exact ⟨rfl, old, found, short, by rw [← kept]⟩
          · simp [found, short, Function.update_of_ne same] at kept

theorem placed_of_empty {view : LogView} (empty : view.records = []) (hash : Nat)
    (info : RegionEnter) (kept : view.reset.map hash = some info) : view.Placed hash info := by
  obtain ⟨_, old, _, _, rfl⟩ := kept_of_empty empty kept
  exact .carried

theorem Placed.of_carried {view : LogView} {hash : Nat} {info : RegionEnter}
    (placed : view.Placed hash info) (carried : info.recordIdx = -1) :
    info.regionIdx = -1 ∧ info.isShort = true := by
  cases placed with
  | carried => exact ⟨rfl, rfl⟩
  | entered _ _ => simp at carried
  | short _ _ _ _ _ => simp at carried

theorem Placed.of_entered {view : LogView} {hash : Nat} {info : RegionEnter}
    (placed : view.Placed hash info) (recorded : info.recordIdx ≠ -1)
    (unpaired : info.regionIdx = -1) :
    info.isShort = false ∧ ∃ (index : Nat) (time : Rat), info.recordIdx = index ∧
      view.records[index]? = some ⟨time, view.process, .regionEntry, hash⟩ := by
  cases placed with
  | carried => simp at recorded
  | @entered index start time found => exact ⟨rfl, index, time, rfl, found⟩
  | short _ _ _ _ _ => simp at unpaired

theorem Placed.of_short {view : LogView} {hash : Nat} {info : RegionEnter}
    (placed : view.Placed hash info) (paired : info.regionIdx ≠ -1) :
    info.isShort = true ∧ ∃ (index handle : Nat) (time : Rat) (region : ShortRegion),
      info.recordIdx = index ∧ info.regionIdx = handle ∧
      view.records[index]? = some ⟨time, view.process, .shortRegion, handle⟩ ∧
      view.regions[handle]? = some region ∧ region.hash = hash := by
  cases placed with
  | carried => simp at paired
  | entered _ _ => simp at paired
  | @short index handle start time region found counted named =>
      exact ⟨rfl, index, handle, time, region, rfl, rfl, found, counted, named⟩

/-- A map entry stays in place while its record is kept and no short region
changes its hash. -/
theorem Placed.transport {view next : LogView} {hash : Nat} {info : RegionEnter}
    (placed : view.Placed hash info) (process : next.process = view.process)
    (records : ∀ (index : Nat) (record : Record), view.records[index]? = some record →
      record.event = .shortRegion ∨ record.signal = hash → next.records[index]? = some record)
    (regions : ∀ (handle : Nat) (region : ShortRegion), view.regions[handle]? = some region →
      ∃ kept : ShortRegion, next.regions[handle]? = some kept ∧ kept.hash = region.hash) :
    next.Placed hash info := by
  cases placed with
  | carried => exact .carried
  | entered time recorded => exact .entered time (by rw [process]; exact records _ _ recorded (.inr rfl))
  | short time region recorded counted named =>
      obtain ⟨kept, found, same⟩ := regions _ _ counted
      exact .short time kept (by rw [process]; exact records _ _ recorded (.inl rfl)) found
        (same.trans named)

theorem getElem?_of_prefix {Entry : Type} {left right : List Entry} {index : Nat} {entry : Entry}
    (grown : left <+: right) (found : left[index]? = some entry) : right[index]? = some entry := by
  obtain ⟨extra, rfl⟩ := grown
  rw [List.getElem?_append_left (List.getElem?_eq_some_iff.mp found).1, found]

/-- Appending to the tables leaves every map entry in place. -/
theorem Placed.append {view next : LogView} {hash : Nat} {info : RegionEnter}
    (placed : view.Placed hash info) (process : next.process = view.process)
    (records : view.records <+: next.records) (regions : view.regions <+: next.regions) :
    next.Placed hash info :=
  placed.transport process (fun _ _ found _ => getElem?_of_prefix records found)
    fun _ region found => ⟨region, getElem?_of_prefix regions found, rfl⟩

/-- So does counting a visit of a short region. -/
theorem Placed.complete {view next : LogView} {hash handle : Nat} {info : RegionEnter}
    {elapsed : Rat} (placed : view.Placed hash info) (process : next.process = view.process)
    (records : next.records = view.records)
    (regions : next.regions = view.regions.modify handle (ShortRegion.complete elapsed)) :
    next.Placed hash info := by
  refine placed.transport process (fun _ _ found _ => by rw [records, found])
    fun other region found => ?_
  rw [regions, List.getElem?_modify, found]
  by_cases same : handle = other
  · exact ⟨region.complete elapsed, by simp [same], rfl⟩
  · exact ⟨region, by simp [same], rfl⟩

/-- And so does converting the record of another region. -/
theorem Placed.convert {view next : LogView} {hash other index handle : Nat} {info : RegionEnter}
    {time : Rat} (placed : view.Placed other info) (process : next.process = view.process)
    (recorded : view.records[index]? = some ⟨time, view.process, .regionEntry, hash⟩)
    (different : other ≠ hash)
    (records : next.records = view.records.modify index (Record.toShort handle))
    (regions : view.regions <+: next.regions) : next.Placed other info := by
  refine placed.transport process (fun position record found which => ?_)
    fun _ region found => ⟨region, getElem?_of_prefix regions found, rfl⟩
  have apart : index ≠ position := by
    rintro rfl
    rw [recorded, Option.some.injEq] at found
    subst found
    simp only [reduceCtorEq, false_or] at which
    exact different which.symm
  simp [records, apart, found]

theorem WellFormed.of_records {view : LogView} (nonempty : view.records ≠ [])
    (signals : (shortSignals view.records).Perm (List.range view.regions.length))
    (placed : ∀ hash info, view.map hash = some info → view.Placed hash info) :
    view.WellFormed :=
  ⟨signals, by rw [reset_of_records nonempty]; exact placed⟩

theorem WellFormed.of_empty {view : LogView} (records : view.records = [])
    (regions : view.regions = []) : view.WellFormed :=
  ⟨by simp [records, regions, shortSignals], placed_of_empty records⟩

/-- Every short region record has a handle in the short regions of the interval. -/
theorem WellFormed.signal_lt {view : LogView} (formed : view.WellFormed) {record : Record}
    (member : record ∈ view.records) (short : record.event = .shortRegion) :
    record.signal < view.regions.length := by
  have signal : record.signal ∈ shortSignals view.records :=
    List.mem_map_of_mem (List.mem_filter.mpr ⟨member, by simp [short]⟩)
  simpa using (formed.signals.mem_iff).mp signal

/-- No two records have the same handle. -/
theorem WellFormed.signal_ne {view : LogView} (formed : view.WellFormed) {index position : Nat}
    {record other : Record} (found : view.records[index]? = some record)
    (there : view.records[position]? = some other) (different : position ≠ index)
    (short : record.event = .shortRegion) (otherShort : other.event = .shortRegion) :
    other.signal ≠ record.signal := by
  have distinct : (shortSignals view.records).Nodup :=
    formed.signals.nodup_iff.mpr List.nodup_range
  rw [Table.split_of_getElem? found, shortSignals_append] at distinct
  have signals : ∀ part : List Record, other ∈ part → other.signal ∈ shortSignals part :=
    fun part member => List.mem_map_of_mem (List.mem_filter.mpr ⟨member, by simp [otherShort]⟩)
  have head : shortSignals (record :: view.records.drop (index + 1)) =
      record.signal :: shortSignals (view.records.drop (index + 1)) := by
    simp [shortSignals, short]
  rw [head, List.perm_middle.nodup_iff, List.nodup_cons] at distinct
  intro same
  apply distinct.1
  rw [← same, List.mem_append]
  rcases Nat.lt_or_gt_of_ne different with before | behind
  · refine .inl (signals _ (List.mem_iff_getElem?.mpr ⟨position, ?_⟩))
    rw [List.getElem?_take_of_lt before, there]
  · refine .inr (signals _ (List.mem_iff_getElem?.mpr ⟨position - (index + 1), ?_⟩))
    rw [List.getElem?_drop, show index + 1 + (position - (index + 1)) = position by omega, there]

/-- The number of short regions is the number of short region records. -/
theorem WellFormed.count_regions {view : LogView} (formed : view.WellFormed) :
    view.regions.length = view.records.countP (·.event = .shortRegion) := by
  have lengths := formed.signals.length_eq
  rw [List.length_range] at lengths
  rw [← lengths, shortSignals, List.length_map, List.countP_eq_length_filter]

theorem WellFormed.regions_le {view : LogView} (formed : view.WellFormed) :
    view.regions.length ≤ view.records.length :=
  formed.count_regions ▸ List.countP_le_length

/-- One map entry is rewritten, the others stay in place. -/
theorem placed_update {view : LogView} {map : Nat → Option RegionEnter} {hash other : Nat}
    {changed info : RegionEnter} (atHash : view.Placed hash changed)
    (elsewhere : ∀ other info, other ≠ hash → map other = some info → view.Placed other info)
    (found : Function.update map hash (some changed) other = some info) :
    view.Placed other info := by
  by_cases same : other = hash
  · subst same
    rw [Function.update_self, Option.some.injEq] at found
    exact found ▸ atHash
  · rw [Function.update_of_ne same] at found
    exact elsewhere other info same found

theorem nonempty_of_getElem? {Entry : Type} {entries : List Entry} {index : Nat} {entry : Entry}
    (found : entries[index]? = some entry) : entries ≠ [] := by
  intro empty
  simp [empty] at found

theorem Step.wellFormed {view next : LogView} {call : Call} (step : Step view call next)
    (formed : view.WellFormed) : next.WellFormed := by
  cases step with
  | @enterNew hash time unknown =>
      refine .of_records (by simp) ?_ fun other info found => ?_
      · simpa [record, shortSignals_concat] using formed.signals
      · refine placed_update (.entered (timeDiff view.timeZero time) ?_) (fun other info _ found => ?_) found
        · simp [record]
        · exact (formed.placed other info found).append (by simp) (by simp) (by simp)
  | @enterKnown hash time info known =>
      by_cases empty : view.records = []
      · exact ⟨by simpa using formed.signals, placed_of_empty (by simpa using empty)⟩
      · refine .of_records (by simpa using empty) (by simpa using formed.signals)
          fun other found same => ?_
        refine placed_update ?_ (fun other info _ found => ?_) same
        · cases formed.placed hash info known with
          | carried => exact .carried
          | entered time recorded => exact .entered time (by simpa using recorded)
          | short time region recorded counted named =>
              exact .short time region (by simpa using recorded) (by simpa using counted) named
        · exact (formed.placed other info found).append (by simp) (by simp) (by simp)
  | exitUnlogged unknown =>
      refine .of_records (by simp) ?_ fun other info found => ?_
      · simpa [record, shortSignals_concat] using formed.signals
      · exact (formed.placed other info found).append (by simp) (by simp) (by simp)
  | @exitEntered hash index time start short known recorded =>
      obtain ⟨_, position, entryTime, same, found⟩ :=
        (formed.placed hash _ known).of_entered (by simp) rfl
      obtain rfl : index = position := by simpa using same
      refine .of_records ?_ ?_ fun other info updated => ?_
      · simpa using nonempty_of_getElem? found
      · simpa using (shortSignals_modify found (by simp)).trans
          (range_concat_perm formed.signals)
      · refine placed_update (.short entryTime (visited hash (timeDiff start time)) ?_ ?_ rfl)
          (fun other info different kept => ?_) updated
        · simp [found, Record.toShort]
        · simp
        · exact (formed.placed other info kept).convert (by simp) found different rfl (by simp)
  | @exitCarried hash time start short known =>
      refine .of_records (by simp) ?_ fun other info updated => ?_
      · have appended : ((shortSignals view.records) ++ [view.regions.length]).Perm
            (List.range (view.regions.length + 1)) := by
          rw [List.range_succ]
          exact formed.signals.append_right _
        simpa [shortSignals_append, shortSignals, Record.toShort] using appended
      · refine placed_update (.short (timeDiff view.timeZero time)
          (visited hash (timeDiff start time)) ?_ ?_ rfl) (fun other info _ kept => ?_) updated
        · simp [Record.toShort, record]
        · simp
        · exact (formed.placed other info kept).append (by simp) (by simp) (by simp)
  | @exitShort hash index handle time start short known counted =>
      have placed := formed.placed hash _ known
      obtain ⟨rfl, position, _, _, _, _, _, found, _⟩ := placed.of_short (by simp)
      refine .of_records (by simpa using nonempty_of_getElem? found)
        (by simpa using formed.signals) fun other info updated => ?_
      exact placed_update (placed.complete (by simp) (by simp) rfl)
        (fun other info _ kept => (formed.placed other info kept).complete (by simp) (by simp) rfl)
        updated
  | epoch =>
      refine .of_records (by simp) ?_ fun other info found => ?_
      · simpa [record, shortSignals_concat] using formed.signals
      · exact (formed.placed other info found).append (by simp) (by simp) (by simp)
  | dump => exact .of_empty rfl rfl

end LogView

end Geopm
