import Geopm.RecordLog.Simulation
import Geopm.Library.Run

namespace Geopm

open RecordLog (Call)

/-! The layout invariant of the record log over all orders of calls.

The private map is re-synchronised with the shared tables lazily, by the first
call of the producer after a dump. Which entries of the map belong to the
interval since the last dump is therefore a property of the run and not of the
state; it is kept next to the state.
-/

/-- What has happened since the last dump. -/
structure Interval where
  /-- the producer has made a call -/
  started : Bool
  /-- the regions whose map entry was made, or that were exited -/
  current : Nat → Bool

namespace Interval

/-- An interval in which the producer has not made a call. -/
def opened : Interval := ⟨false, fun _ => false⟩

def mark (interval : Interval) (hash : Nat) : Interval :=
  ⟨true, Function.update interval.current hash true⟩

/-- The effect of one call. A call that throws counts for nothing. -/
def next (interval : Interval) (log : RecordLog) (call : Call) : Interval :=
  match (log.call call).thrown with
  | some _ => interval
  | none =>
      match call with
      | .dump => opened
      | .epoch _ => { interval with started := true }
      | .exit hash _ => interval.mark hash
      | .enter hash _ =>
          match log.checkReset.hashRegionEnterMap hash with
          | none => interval.mark hash
          | some _ => { interval with started := true }

end Interval

namespace RecordLog

/-- One call on a log whose interval is kept next to it. -/
def trackedStep (state : RecordLog × Interval) (call : Call) : RecordLog × Interval :=
  (state.1.step call, state.2.next state.1 call)

/-- The tables at which a map entry points: an entry record of its region until
the region is exited, then a short region record and a short region. -/
def Points (log : RecordLog) (hash : Nat) (info : RegionEnter) : Prop :=
  ∃ (index : Nat) (record : Record),
    info.recordIdx = index ∧ index < log.layout.numRecord ∧
      log.layout.records[index]? = some record ∧
      if info.regionIdx = -1 then record.event = .regionEntry ∧ record.signal = hash
      else record.event = .shortRegion ∧ info.regionIdx = record.signal ∧
        ∃ region, log.layout.regions[record.signal]? = some region ∧ region.hash = hash

/-- The coupling of the four tables. -/
structure LayoutInvariant (log : RecordLog) (interval : Interval) : Prop where
  numRegion_le : log.layout.numRegion ≤ log.layout.numRecord
  numRecord_le : log.layout.numRecord ≤ maxRecord
  signals : (LogView.shortSignals log.layout.records).Perm (List.range log.layout.numRegion)
  current : interval.started = true → ∀ hash info, log.hashRegionEnterMap hash = some info →
    interval.current hash = true → log.Points hash info
  carried : interval.started = true → ∀ hash info, log.hashRegionEnterMap hash = some info →
    interval.current hash = false → info.recordIdx = -1 ∧ info.regionIdx = -1
  /-- Before the first call of an interval these are the entries that it will carry over. -/
  kept : interval.started = false → ∀ hash info,
    log.checkReset.hashRegionEnterMap hash = some info →
      info.recordIdx = -1 ∧ info.regionIdx = -1
  dumped : log.dump.1.2.length = log.dump.1.1.countP (·.event = .shortRegion)

/-- What the interval says about the entries of the map. -/
structure Agrees (view : LogView) (interval : Interval) : Prop where
  opened : interval.started = false →
    view.records = [] ∧ interval.current = fun _ => false
  synchronised : interval.started = true → view.reset.map = view.map
  carried : ∀ hash info, view.reset.map hash = some info →
    (info.recordIdx = -1 ↔ interval.current hash = false)

theorem Agrees.of_started {view : LogView} {current : Nat → Bool}
    (synchronised : view.reset.map = view.map)
    (carried : ∀ hash info, view.map hash = some info →
      (info.recordIdx = -1 ↔ current hash = false)) : Agrees view ⟨true, current⟩ :=
  ⟨fun stopped => absurd stopped (by simp), fun _ => synchronised, by rwa [synchronised]⟩

/-- A region whose entry points at a record from now on. -/
theorem Agrees.mark {view next : LogView} {interval : Interval} {hash : Nat}
    {changed : RegionEnter} (agrees : Agrees view interval) (nonempty : next.records ≠ [])
    (map : next.map = Function.update view.reset.map hash (some changed))
    (recorded : changed.recordIdx ≠ -1) : Agrees next (interval.mark hash) := by
  refine .of_started (LogView.reset_map_of_records nonempty) fun other info found => ?_
  rw [map] at found
  by_cases same : other = hash
  · subst same
    rw [Function.update_self, Option.some.injEq] at found
    simp [← found, recorded]
  · rw [Function.update_of_ne same] at found ⊢
    exact agrees.carried other info found

/-- An entry time is updated. In an interval without records this is the entry
that was carried over, and the only one. -/
theorem Agrees.enterKnown {view next : LogView} {interval : Interval} {hash : Nat} {time : Time}
    {info : RegionEnter} (agrees : Agrees view interval)
    (known : view.reset.map hash = some info) (records : next.records = view.records)
    (map : next.map = Function.update view.reset.map hash (some { info with enterTime := time }))
    (entered : next.entered = hash) : Agrees next { interval with started := true } := by
  refine .of_started ?_ fun other found stored => ?_
  · by_cases empty : view.records = []
    · funext other
      obtain ⟨sameEntered, old, _, _, rfl⟩ := LogView.kept_of_empty empty known
      rw [LogView.reset, if_pos (records.trans empty)]
      simp only [RecordLog.keptRegion, map, entered, Function.update_self, if_true]
      by_cases same : other = hash
      · rw [same, Function.update_self, Function.update_self]
      · rw [Function.update_of_ne same, Function.update_of_ne same]
        cases kept : view.reset.map other with
        | none => rfl
        | some _ => exact absurd ((LogView.kept_of_empty empty kept).1.trans sameEntered.symm) same
    · exact LogView.reset_map_of_records (records ▸ empty)
  · rw [map] at stored
    by_cases same : other = hash
    · subst same
      rw [Function.update_self, Option.some.injEq] at stored
      simpa [← stored] using agrees.carried other info known
    · rw [Function.update_of_ne same] at stored
      exact agrees.carried other found stored

theorem Agrees.unchanged {view next : LogView} {interval : Interval} (agrees : Agrees view interval)
    (nonempty : next.records ≠ []) (map : next.map = view.reset.map) :
    Agrees next { interval with started := true } :=
  .of_started (LogView.reset_map_of_records nonempty) (map ▸ agrees.carried)

/-- A visit without an entry in the map. -/
theorem Agrees.unlogged {view next : LogView} {interval : Interval} {hash : Nat}
    (agrees : Agrees view interval) (nonempty : next.records ≠ [])
    (unknown : view.reset.map hash = none) (map : next.map = view.reset.map) :
    Agrees next (interval.mark hash) := by
  refine .of_started (LogView.reset_map_of_records nonempty) fun other info found => ?_
  rw [map] at found
  have different : other ≠ hash := by
    rintro rfl
    simp [unknown] at found
  rw [Function.update_of_ne different]
  exact agrees.carried other info found

theorem Agrees.dumped {view : LogView} (empty : view.records = []) :
    Agrees view Interval.opened := by
  refine ⟨fun _ => ⟨empty, rfl⟩, fun started => absurd started (by simp [Interval.opened]),
    fun hash info kept => ?_⟩
  obtain ⟨_, _, _, _, rfl⟩ := LogView.kept_of_empty empty kept
  simp [Interval.opened]

/-- The interval after a call that did not throw. -/
theorem next_of_done {log next : RecordLog} {call : Call} (interval : Interval)
    (done : log.call call = ⟨next, none⟩) :
    interval.next log call = match call with
      | .dump => Interval.opened
      | .epoch _ => { interval with started := true }
      | .exit hash _ => interval.mark hash
      | .enter hash _ =>
          match log.checkReset.hashRegionEnterMap hash with
          | none => interval.mark hash
          | some _ => { interval with started := true } := by
  simp only [Interval.next, done]
  cases call <;> rfl

theorem map_checkReset {log : RecordLog} (sound : log.Sound) :
    log.checkReset.hashRegionEnterMap = log.view.reset.map :=
  congrArg LogView.map (view_checkReset sound.numRecord_le)

theorem Agrees.step {log next : RecordLog} {call : Call} {interval : Interval} (sound : log.Sound)
    (agrees : Agrees log.view interval) (done : log.call call = ⟨next, none⟩)
    (step : LogView.Step log.view call next.view) :
    Agrees next.view (interval.next log call) := by
  rw [next_of_done interval done]
  generalize viewed : next.view = target at step ⊢
  cases step with
  | enterNew unknown =>
      simp only [map_checkReset sound, unknown]
      exact agrees.mark (by simp) rfl (by simp)
  | enterKnown known =>
      simp only [map_checkReset sound, known]
      exact agrees.enterKnown known (by simp) rfl rfl
  | exitUnlogged unknown => exact agrees.unlogged (by simp) unknown rfl
  | exitEntered known recorded =>
      exact agrees.mark (by simpa using List.ne_nil_of_length_pos (by omega)) rfl (by simp)
  | exitCarried known => exact agrees.mark (by simp) rfl (by simp)
  | exitShort known counted =>
      have fewer := sound.wellFormed.regions_le
      exact agrees.mark (by simpa using List.ne_nil_of_length_pos (by omega)) rfl (by simp)
  | epoch => exact agrees.unchanged (by simp) rfl
  | dump => exact .dumped rfl

/-- The state of a tracked run that the layout invariant is derived from. -/
def Tracked (state : RecordLog × Interval) : Prop :=
  state.1.Sound ∧ Agrees state.1.view state.2

theorem Tracked.step {state : RecordLog × Interval} {call : Call} (tracked : Tracked state)
    (space : state.1.NoOverflow call) : Tracked (trackedStep state call) := by
  obtain ⟨log, interval⟩ := state
  obtain ⟨sound, agrees⟩ := tracked
  refine ⟨sound.step space, ?_⟩
  simp only [trackedStep, RecordLog.step]
  cases outcome : log.call call with
  | mk next thrown =>
      have result := outcome ▸ sound.call_result call
      cases result with
      | unset _ _ => simpa only [Interval.next, outcome] using agrees
      | full _ _ => simp [NoOverflow, outcome] at space
      | done step _ => exact agrees.step sound outcome step

/-- A map entry of a sound log that points at a record points at one of its region. -/
theorem Sound.points {log : RecordLog} (sound : log.Sound) {hash : Nat} {info : RegionEnter}
    (placed : log.view.Placed hash info) (recorded : info.recordIdx ≠ -1) :
    log.Points hash info := by
  have within : ∀ {index : Nat} {record : Record}, log.view.records[index]? = some record →
      index < log.layout.numRecord := by
    intro index record found
    rw [← sound.length_records]
    exact (List.getElem?_eq_some_iff.mp found).1
  cases placed with
  | carried => simp at recorded
  | @entered index start time found =>
      exact ⟨index, _, rfl, within found, found, by simp⟩
  | @short index handle start time region found counted named =>
      refine ⟨index, _, rfl, within found, found, ?_⟩
      have paired : (handle : Int) ≠ -1 := by omega
      rw [if_neg paired]
      exact ⟨rfl, rfl, region, counted, named⟩

theorem Tracked.layoutInvariant {state : RecordLog × Interval} (tracked : Tracked state) :
    LayoutInvariant state.1 state.2 := by
  obtain ⟨log, interval⟩ := state
  obtain ⟨sound, agrees⟩ := tracked
  have counted := sound.wellFormed.count_regions
  have fewer := sound.wellFormed.regions_le
  rw [sound.length_regions] at fewer
  rw [sound.length_records] at fewer
  have unset : ∀ hash info, log.view.reset.map hash = some info → info.recordIdx = -1 →
      info.recordIdx = -1 ∧ info.regionIdx = -1 := fun hash info found carried =>
    ⟨carried, ((sound.wellFormed.placed hash info found).of_carried carried).1⟩
  refine ⟨fewer, sound.numRecord_le, ?_, ?_, ?_, ?_, counted⟩
  · exact sound.length_regions ▸ sound.wellFormed.signals
  · intro started hash info found current
    have kept : log.view.reset.map hash = some info :=
      (congrFun (agrees.synchronised started) hash).trans found
    refine sound.points (sound.wellFormed.placed hash info kept) fun carried => ?_
    have old : interval.current hash = false := (agrees.carried hash info kept).mp carried
    simp [old] at current
  · intro started hash info found old
    have kept : log.view.reset.map hash = some info :=
      (congrFun (agrees.synchronised started) hash).trans found
    exact unset hash info kept ((agrees.carried hash info kept).mpr old)
  · intro stopped hash info found
    rw [map_checkReset sound] at found
    exact unset hash info found
      ((agrees.carried hash info found).mpr (by rw [(agrees.opened stopped).2]))

theorem initial_tracked (process : Int) (timeZero : Time) :
    Tracked (initial process timeZero, Interval.opened) :=
  ⟨initial_sound process timeZero, .dumped rfl⟩

/-- In every state that the producer's calls and the consumer's dumps lead to
without overflow, the private map and the shared tables fit together. -/
theorem layoutInvariant_run (process : Int) (timeZero : Time) (calls : List Call)
    (space : Transition.Permitted trackedStep (fun state => NoOverflow state.1)
      (initial process timeZero, Interval.opened) calls) :
    LayoutInvariant
      (Transition.run trackedStep (initial process timeZero, Interval.opened) calls).1
      (Transition.run trackedStep (initial process timeZero, Interval.opened) calls).2 :=
  (Transition.invariant_run (fun _ _ tracked permitted => tracked.step permitted)
    (initial_tracked process timeZero) space).layoutInvariant

/-- A region that is executed while the log is dumped, and exited after. -/
theorem layoutInvariant_carried :
    LayoutInvariant
      (Transition.run trackedStep (initial 1 ⟨1, 0⟩, Interval.opened)
        [.enter 7 ⟨2, 0⟩, .exit 7 ⟨3, 0⟩, .enter 7 ⟨4, 0⟩, .dump, .exit 7 ⟨5, 0⟩]).1
      (Transition.run trackedStep (initial 1 ⟨1, 0⟩, Interval.opened)
        [.enter 7 ⟨2, 0⟩, .exit 7 ⟨3, 0⟩, .enter 7 ⟨4, 0⟩, .dump, .exit 7 ⟨5, 0⟩]).2 :=
  layoutInvariant_run 1 ⟨1, 0⟩ _ (by decide +kernel)

end RecordLog

end Geopm
