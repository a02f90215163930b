import Geopm.RecordLog.Simulation

namespace Geopm

open RecordLog (Call)

/-! What a producer has done, and what the log knows of it.

The calls of a well-behaved producer alternate between `enter` and `exit` of
the same region, with times that never decrease. `History` follows the calls;
`Bracketed` relates it to the view of the log.
-/

/-- The visits of one producer. -/
structure History where
  /-- the region that is being executed, and when it was entered -/
  inside : Option (Nat × Time)
  /-- the time of the latest call -/
  last : Option Time
  /-- the number of exits from each region -/
  exits : Nat → Nat
  /-- the time between the enter and the exit of each visit, added up for each region -/
  runtime : Nat → Rat

namespace History

def empty : History := ⟨none, none, fun _ => 0, fun _ => 0⟩

/-- How long the visit has taken that ends at the given time. -/
def elapsed (history : History) (time : Time) : Rat :=
  match history.inside with
  | some (_, start) => timeDiff start time
  | none => 0

def next (history : History) : Call → History
  | .enter hash time => { history with inside := some (hash, time), last := some time }
  | .exit hash time =>
      { inside := none
        last := some time
        exits := Function.update history.exits hash (history.exits hash + 1)
        runtime := Function.update history.runtime hash
          (history.runtime hash + history.elapsed time) }
  | .epoch time => { history with last := some time }
  | .dump => history

/-- The number of visits of a region and their time. -/
def total (history : History) (hash : Nat) : Nat × Rat := (history.exits hash, history.runtime hash)

@[simp] theorem total_enter (history : History) (hash : Nat) (time : Time) :
    (history.next (.enter hash time)).total = history.total := rfl

@[simp] theorem total_epoch (history : History) (time : Time) :
    (history.next (.epoch time)).total = history.total := rfl

theorem total_exit (history : History) (hash other : Nat) (time : Time) :
    (history.next (.exit hash time)).total other =
      if other = hash then history.total hash + (1, history.elapsed time)
      else history.total other := by
  by_cases same : other = hash
  · subst same
    simp [next, total]
  · simp [next, total, same]

/-- Strict alternation: no nested `enter`, and each `exit` names the region that
was entered. -/
def Alternates (history : History) : Call → Prop
  | .enter _ _ => history.inside = none
  | .exit hash _ => ∃ start, history.inside = some (hash, start)
  | _ => True

/-- The time of the call is not before that of the call before. -/
def Follows (history : History) (time : Time) : Prop :=
  ∀ last, history.last = some last → 0 ≤ timeDiff last time

def Nondecreasing (history : History) : Call → Prop
  | .enter _ time => history.Follows time
  | .exit _ time => history.Follows time
  | .epoch time => history.Follows time
  | .dump => True

instance (history : History) : ∀ call, Decidable (history.Alternates call)
  | .enter _ _ => inferInstanceAs (Decidable (history.inside = none))
  | .exit hash _ => decidable_of_iff (history.inside.map Prod.fst = some hash) (by
      simp [Alternates, Option.map_eq_some_iff])
  | .epoch _ => inferInstanceAs (Decidable True)
  | .dump => inferInstanceAs (Decidable True)

instance (history : History) (time : Time) : Decidable (history.Follows time) :=
  decidable_of_iff (history.last.all (0 ≤ timeDiff · time) = true) (by
    simp [Follows, Option.all_eq_true])

instance (history : History) : ∀ call, Decidable (history.Nondecreasing call)
  | .enter _ time => inferInstanceAs (Decidable (history.Follows time))
  | .exit _ time => inferInstanceAs (Decidable (history.Follows time))
  | .epoch time => inferInstanceAs (Decidable (history.Follows time))
  | .dump => inferInstanceAs (Decidable True)

end History

namespace LogView

/-- What the log knows of a producer whose calls alternate. -/
structure Bracketed (view : LogView) (inside : Option (Nat × Time)) : Prop where
  entered : ∀ hash start, inside = some (hash, start) → view.entered = hash
  started : ∀ hash start info, inside = some (hash, start) → view.reset.map hash = some info →
    info.enterTime = start
  /-- Only the region that is being executed has an entry record that may be converted. -/
  others : ∀ hash info, view.reset.map hash = some info → info.isShort = false →
    ∃ start, inside = some (hash, start)
  /-- Nothing but epochs and short regions follows that entry record. -/
  lastEntry : ∀ (hash : Nat) (info : RegionEnter) (position : Nat) (record : Record),
    view.reset.map hash = some info → info.isShort = false → info.recordIdx < position →
    view.records[position]? = some record →
    record.event ≠ .regionEntry ∧ record.event ≠ .regionExit
  processes : ∀ record ∈ view.records, record.process = view.process

/-- What `check_reset` keeps does not depend on whether it has run since. -/
theorem kept_of_dump {view next : LogView} {hash : Nat} {info : RegionEnter}
    (records : next.records = []) (map : next.map = view.map) (entered : next.entered = view.entered)
    (kept : next.reset.map hash = some info) :
    hash = view.entered ∧ ∃ old, view.reset.map hash = some old ∧ old.isShort = true ∧
      info = ⟨-1, -1, old.enterTime, true⟩ := by
  by_cases empty : view.records = []
  · have same : next.reset.map = view.reset.map := by
      simp only [reset, records, empty, if_true, map, entered]
    rw [same] at kept
    obtain ⟨named, _, _, _, rfl⟩ := kept_of_empty empty kept
    exact ⟨named, _, kept, rfl, rfl⟩
  · obtain ⟨named, old, found, short, same⟩ := kept_of_empty records kept
    rw [reset_map_of_records empty, ← map]
    exact ⟨named.trans entered, old, found, short, same⟩

/-- The region of an entry record that has no exit yet: the one being executed,
unless it is known to be short. -/
def outstanding (view : LogView) (inside : Option (Nat × Time)) : Nat :=
  match inside with
  | some (hash, _) =>
      if (view.reset.map hash).any (·.isShort) then regionHashInvalid else hash
  | none => regionHashInvalid

theorem isShort_of_reset {view : LogView} :
    (view.reset.map view.entered).any (·.isShort) = (view.map view.entered).any (·.isShort) := by
  unfold reset
  split
  · simp only [RecordLog.keptRegion]
    cases found : view.map view.entered with
    | none => rfl
    | some info => cases short : info.isShort <;> simp [short]
  · rfl

theorem isShort_of_dump (view next : LogView) (map : next.map = view.map)
    (entered : next.entered = view.entered) :
    (next.reset.map view.entered).any (·.isShort) =
      (view.reset.map view.entered).any (·.isShort) := by
  rw [isShort_of_reset, ← map, ← entered, isShort_of_reset]

theorem Bracketed.processes_append {view : LogView} {inside : Option (Nat × Time)}
    (bracketed : view.Bracketed inside) (record : Record) (named : record.process = view.process) :
    ∀ other ∈ view.records ++ [record], other.process = view.process := by
  intro other member
  rcases List.mem_append.mp member with old | new
  · exact bracketed.processes other old
  · rw [List.mem_singleton.mp new, named]

/-- Every entry was converted, or is the one of the region that is being executed. -/
theorem Bracketed.isShort_of_outside {view : LogView} (bracketed : view.Bracketed none) {hash : Nat}
    {info : RegionEnter} (found : view.reset.map hash = some info) : info.isShort = true := by
  cases short : info.isShort with
  | true => rfl
  | false =>
      obtain ⟨_, inside⟩ := bracketed.others hash info found short
      simp at inside

/-- After an exit no region is being executed and no entry can be converted. -/
theorem Bracketed.of_exit {view : LogView} (nonempty : view.records ≠ [])
    (short : ∀ hash info, view.map hash = some info → info.isShort = true)
    (processes : ∀ record ∈ view.records, record.process = view.process) :
    view.Bracketed none where
  entered _ _ inside := by simp at inside
  started _ _ _ inside := by simp at inside
  others hash info found unpaired := by
    rw [reset_map_of_records nonempty] at found
    simp [short hash info found] at unpaired
  lastEntry hash info _ _ found unpaired := by
    rw [reset_map_of_records nonempty] at found
    simp [short hash info found] at unpaired
  processes

/-- A map entry after one entry was rewritten. -/
theorem stored_of_update {map : Nat → Option RegionEnter} {hash other : Nat}
    {changed info : RegionEnter} (found : Function.update map hash (some changed) other = some info) :
    (other = hash ∧ info = changed) ∨ (other ≠ hash ∧ map other = some info) := by
  by_cases same : other = hash
  · subst same
    rw [Function.update_self, Option.some.injEq] at found
    exact .inl ⟨rfl, found.symm⟩
  · rw [Function.update_of_ne same] at found
    exact .inr ⟨same, found⟩

section

variable {view next : LogView} {hash : Nat} {time : Time} {info : RegionEnter}

theorem Bracketed.enterNew {entry : Record} (bracketed : view.Bracketed none)
    (records : next.records = view.records ++ [entry])
    (map : next.map = Function.update view.reset.map hash
      (some ⟨view.records.length, -1, time, false⟩))
    (entered : next.entered = hash) (process : next.process = view.process)
    (named : entry.process = view.process) : next.Bracketed (some (hash, time)) := by
  have nonempty : next.records ≠ [] := by simp [records]
  have stored : ∀ other kept, next.reset.map other = some kept →
      (other = hash ∧ kept = ⟨view.records.length, -1, time, false⟩) ∨ kept.isShort = true := by
    intro other kept found
    rw [reset_map_of_records nonempty, map] at found
    exact (stored_of_update found).imp_right fun old => bracketed.isShort_of_outside old.2
  refine ⟨?_, ?_, ?_, ?_, ?_⟩
  · rintro _ _ ⟨⟩
    exact entered
  · rintro _ _ kept ⟨⟩ found
    rw [reset_map_of_records nonempty, map, Function.update_self, Option.some.injEq] at found
    rw [← found]
  · intro other kept found unpaired
    obtain ⟨rfl, _⟩ | short := stored other kept found
    · exact ⟨time, rfl⟩
    · simp [short] at unpaired
  · intro other kept position record found unpaired after recorded
    obtain ⟨_, rfl⟩ | short := stored other kept found
    · have bound := (List.getElem?_eq_some_iff.mp recorded).1
      simp [records] at bound after
      omega
    · simp [short] at unpaired
  · rw [records, process]
    exact bracketed.processes_append _ named

/-- `enter` of a region that was short before makes no record. -/
theorem Bracketed.enterKnown (bracketed : view.Bracketed none)
    (known : view.reset.map hash = some info) (records : next.records = view.records)
    (map : next.map = Function.update view.reset.map hash (some { info with enterTime := time }))
    (entered : next.entered = hash) (process : next.process = view.process) :
    next.Bracketed (some (hash, time)) := by
  have short := bracketed.isShort_of_outside known
  have stored : ∀ other kept, next.reset.map other = some kept →
      kept.isShort = true ∧ (other = hash → kept.enterTime = time) := by
    intro other kept found
    by_cases empty : next.records = []
    · obtain ⟨named, old, present, _, rfl⟩ := kept_of_empty empty found
      rw [named, entered, map, Function.update_self, Option.some.injEq] at present
      exact ⟨rfl, fun _ => by rw [← present]⟩
    · rw [reset_map_of_records empty, map] at found
      obtain ⟨_, rfl⟩ | ⟨different, old⟩ := stored_of_update found
      · exact ⟨short, fun _ => rfl⟩
      · exact ⟨bracketed.isShort_of_outside old, fun same => absurd same different⟩
  refine ⟨?_, ?_, ?_, ?_, ?_⟩
  · rintro _ _ ⟨⟩
    exact entered
  · rintro _ _ kept ⟨⟩ found
    exact (stored _ kept found).2 rfl
  · intro other kept found unpaired
    simp [(stored other kept found).1] at unpaired
  · intro other kept _ _ found unpaired
    simp [(stored other kept found).1] at unpaired
  · rw [records, process]
    exact bracketed.processes

theorem Bracketed.epoch {inside : Option (Nat × Time)} {entry : Record}
    (bracketed : view.Bracketed inside) (records : next.records = view.records ++ [entry])
    (map : next.map = view.reset.map) (entered : next.entered = view.entered)
    (process : next.process = view.process) (named : entry.process = view.process)
    (epoch : entry.event = .epochCount) : next.Bracketed inside := by
  have same : next.reset.map = view.reset.map := by
    rw [reset_map_of_records (by simp [records]), map]
  refine ⟨entered ▸ bracketed.entered, same ▸ bracketed.started, same ▸ bracketed.others, ?_, ?_⟩
  · intro other kept position record found unpaired after recorded
    rw [records, List.getElem?_append] at recorded
    split at recorded
    · exact bracketed.lastEntry other kept position record (same ▸ found) unpaired after recorded
    · rw [List.mem_singleton.mp (List.mem_of_getElem? recorded), epoch]
      simp
  · rw [records, process]
    exact bracketed.processes_append _ named

theorem Bracketed.dump {inside : Option (Nat × Time)} (bracketed : view.Bracketed inside)
    (records : next.records = []) (map : next.map = view.map)
    (entered : next.entered = view.entered) : next.Bracketed inside := by
  have stored : ∀ hash info, next.reset.map hash = some info →
      ∃ old, view.reset.map hash = some old ∧ info = ⟨-1, -1, old.enterTime, true⟩ := by
    intro hash info found
    obtain ⟨_, old, present, _, same⟩ := kept_of_dump records map entered found
    exact ⟨old, present, same⟩
  refine ⟨entered ▸ bracketed.entered, ?_, ?_, ?_, by simp [records]⟩
  · intro hash start info inside found
    obtain ⟨old, present, rfl⟩ := stored hash info found
    exact bracketed.started hash start old inside present
  · intro hash info found unpaired
    obtain ⟨_, _, rfl⟩ := stored hash info found
    simp at unpaired
  · intro hash info _ _ found unpaired
    obtain ⟨_, _, rfl⟩ := stored hash info found
    simp at unpaired

end

/-- An exit converts the only entry that could be converted. -/
theorem Bracketed.isShort_of_other {view : LogView} {history : History} {hash other : Nat}
    {time : Time} {info : RegionEnter} (bracketed : view.Bracketed history.inside)
    (alternates : history.Alternates (.exit hash time)) (different : other ≠ hash)
    (found : view.reset.map other = some info) : info.isShort = true := by
  cases short : info.isShort with
  | true => rfl
  | false =>
      obtain ⟨start, inside⟩ := alternates
      obtain ⟨_, entered⟩ := bracketed.others other info found short
      rw [inside, Option.some.injEq, Prod.mk.injEq] at entered
      exact absurd entered.1.symm different

theorem Bracketed.step {view next : LogView} {history : History} {call : Call}
    (formed : view.WellFormed) (bracketed : view.Bracketed history.inside)
    (alternates : history.Alternates call) (step : Step view call next) :
    next.Bracketed (history.next call).inside := by
  have shortAfter : ∀ {hash : Nat} {time : Time} {changed : RegionEnter},
      history.Alternates (.exit hash time) → changed.isShort = true → ∀ other info,
      Function.update view.reset.map hash (some changed) other = some info →
      info.isShort = true := by
    intro hash time changed alternates short other info found
    obtain ⟨_, rfl⟩ | ⟨different, old⟩ := stored_of_update found
    · exact short
    · exact bracketed.isShort_of_other alternates different old
  cases step with
  | enterNew unknown =>
      rw [show history.inside = none from alternates] at bracketed
      exact bracketed.enterNew rfl rfl rfl (by simp) rfl
  | enterKnown known =>
      rw [show history.inside = none from alternates] at bracketed
      exact bracketed.enterKnown known (by simp) rfl rfl (by simp)
  | @exitUnlogged hash time unknown =>
      refine .of_exit (by simp) (fun other info found => ?_) ?_
      · refine bracketed.isShort_of_other alternates ?_ found
        rintro rfl
        simp [unknown] at found
      · simpa using bracketed.processes_append (view.record time .regionExit hash) rfl
  | exitEntered known recorded =>
      refine .of_exit ?_ (shortAfter alternates rfl) ?_
      · simpa using List.ne_nil_of_length_pos (by omega)
      · simp only [set_process, reset_process]
        exact Table.forall_mem_modify bracketed.processes fun record named => named
  | @exitCarried hash time start short known =>
      refine .of_exit (by simp) (shortAfter alternates rfl) ?_
      simpa using bracketed.processes_append
        ((view.record time .regionEntry hash).toShort view.regions.length) rfl
  | exitShort known counted =>
      have fewer := formed.regions_le
      refine .of_exit ?_ (shortAfter alternates rfl) (by simpa using bracketed.processes)
      simpa using List.ne_nil_of_length_pos (by omega)
  | epoch => exact bracketed.epoch rfl rfl (by simp) (by simp) rfl rfl
  | dump => exact bracketed.dump rfl rfl rfl

/-- Before the first exit no region is known to be short. -/
def Unexited (view : LogView) (history : History) : Prop :=
  (∀ hash, history.exits hash = 0) → ∀ hash info, view.map hash = some info → info.isShort = false

theorem Unexited.reset {view : LogView} {history : History} (unexited : view.Unexited history)
    (none : ∀ hash, history.exits hash = 0) {hash : Nat} {info : RegionEnter}
    (found : view.reset.map hash = some info) : info.isShort = false := by
  by_cases empty : view.records = []
  · obtain ⟨_, old, stored, short, _⟩ := kept_of_empty empty found
    simp [unexited none _ old stored] at short
  · rw [reset_map_of_records empty] at found
    exact unexited none hash info found

theorem Unexited.step {view next : LogView} {history : History} {call : Call}
    (unexited : view.Unexited history) (step : Step view call next) :
    next.Unexited (history.next call) := by
  intro none hash info found
  have exited : ∀ {hash : Nat} {time : Time}, call ≠ .exit hash time := by
    rintro hash time rfl
    have counted := none hash
    simp [History.next] at counted
  cases step with
  | enterNew unknown =>
      obtain ⟨_, rfl⟩ | ⟨_, old⟩ := stored_of_update found
      · rfl
      · exact unexited.reset none old
  | enterKnown known =>
      obtain ⟨_, rfl⟩ | ⟨_, old⟩ := stored_of_update found
      · have short := unexited.reset none known
        exact short
      · exact unexited.reset none old
  | exitUnlogged _ => exact absurd rfl exited
  | exitEntered _ _ => exact absurd rfl exited
  | exitCarried _ => exact absurd rfl exited
  | exitShort _ _ => exact absurd rfl exited
  | epoch => exact unexited.reset none found
  | dump => exact unexited none hash info found

end LogView

namespace RecordLog

/-- A log that follows its producer. -/
structure Followed (log : RecordLog) (history : History) : Prop where
  sound : log.Sound
  configured : log.Configured
  bracketed : log.view.Bracketed history.inside
  unexited : log.view.Unexited history

theorem Followed.initial {process : Int} {timeZero : Time}
    (configured : (initial process timeZero).Configured) :
    (RecordLog.initial process timeZero).Followed History.empty where
  sound := initial_sound process timeZero
  configured := configured
  bracketed := by
    have kept : ∀ hash info, (RecordLog.initial process timeZero).view.reset.map hash ≠ some info := by
      intro hash info found
      obtain ⟨_, _, stored, _⟩ := LogView.kept_of_empty rfl found
      simp [view, RecordLog.initial] at stored
    exact ⟨fun _ _ inside => by simp [History.empty] at inside,
      fun _ _ _ inside => by simp [History.empty] at inside,
      fun hash info found => absurd found (kept hash info),
      fun hash info _ _ found => absurd found (kept hash info),
      fun _ member => by simp [view, RecordLog.initial, Layout.records] at member⟩
  unexited _ hash info found := by simp [view, RecordLog.initial] at found

/-- A call of a producer that keeps its calls bracketed is one step of the view. -/
theorem Followed.step {log : RecordLog} {history : History} {call : Call}
    (followed : log.Followed history) (space : log.NoOverflow call)
    (alternates : history.Alternates call) :
    ∃ next, log.call call = ⟨next, none⟩ ∧ LogView.Step log.view call next.view ∧
      next.Followed (history.next call) := by
  obtain ⟨sound, configured, bracketed, unexited⟩ := followed
  cases outcome : log.call call with
  | mk next thrown =>
      have result := outcome ▸ sound.call_result call
      cases result with
      | unset failed _ => exact absurd failed (configured.checkSetup _)
      | full _ _ => exact absurd (by rw [outcome]) space
      | done step nextSound =>
          refine ⟨next, rfl, step, nextSound, ?_, bracketed.step sound.wellFormed alternates step,
            unexited.step step⟩
          have process : next.process = log.process := step.process
          have timeZero : next.timeZero = log.timeZero := step.timeZero
          rwa [Configured, process, timeZero]

end RecordLog

end Geopm
