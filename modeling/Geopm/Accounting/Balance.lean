import Geopm.RegionAggregator
import Mathlib.Algebra.Group.Prod

namespace Geopm

open RecordLog (Call)

/-! The balance of one process.

If the records in the log were dumped and posted now, the account would show
the visits of the producer. The balance is stated up to the visits that were
missed before, so that it also holds where records were dropped.
-/

/-- The account that shows every record of the log, and what it owes to the producer. -/
structure Balanced (final : Account) (view : LogView) (history : History)
    (missed : Nat → Nat × Rat) : Prop where
  totals : ∀ hash, final.total hash + missed hash = history.total hash
  /-- A visit that will end in an exit record has its entry time in the account. -/
  entered : ∀ hash start, history.inside = some (hash, start) →
    (view.reset.map hash).any (·.isShort) = false →
    ∃ region, final hash = some region ∧ region.lastEntryTime = timeDiff view.timeZero start

namespace Balanced

variable {base final after : Account} {view next : LogView} {history : History}
  {missed : Nat → Nat × Rat} {hash : Nat} {time : Time}

/-- A visit ends, and is counted. -/
theorem of_exit (balanced : Balanced final view history missed) {start : Time}
    (inside : history.inside = some (hash, start))
    (counted : ∀ other, after.total other =
      (final.emplace hash (RegionInfo.add (timeDiff start time) 1)).total other) :
    Balanced after next (history.next (.exit hash time)) missed where
  totals other := by
    have elapsed : history.elapsed time = timeDiff start time := by
      simp [History.elapsed, inside]
    rw [counted, Account.total_add, History.total_exit, elapsed]
    by_cases same : other = hash
    · rw [if_pos same, if_pos same, same, add_right_comm, balanced.totals]
    · rw [if_neg same, if_neg same, balanced.totals]
  entered _ _ inside := by simp [History.next] at inside

/-- Records do not refer to a short region that is added after them. -/
theorem postAll_extended (formed : view.WellFormed)
    (posted : base.postAll view.regions view.records = .ok final) (region : ShortRegion) :
    base.postAll (view.regions ++ [region]) view.records = .ok final := by
  rw [← posted]
  refine Account.postAll_congr fun record member short => ?_
  rw [List.getElem?_append_left (formed.signal_lt member short)]

/-- Each call of the producer keeps the balance. -/
theorem step {call : Call} (formed : view.WellFormed) (bracketed : view.Bracketed history.inside)
    (alternates : history.Alternates call) (step : LogView.Step view call next)
    (producer : call ≠ .dump) (posted : base.postAll view.regions view.records = .ok final)
    (balanced : Balanced final view history missed) :
    ∃ after, base.postAll next.regions next.records = .ok after ∧
      Balanced after next (history.next call) missed := by
  cases step with
  | @enterNew hash time unknown =>
      refine ⟨_, (Account.postAll_concat (by simpa using posted) _).trans rfl, ?_, ?_⟩
      · simpa [LogView.record] using balanced.totals
      · intro other start inside _
        obtain ⟨rfl, rfl⟩ : hash = other ∧ time = start := by simpa [History.next] using inside
        refine ⟨_, Function.update_self _ _ _, ?_⟩
        simp [RegionInfo.enter, LogView.record]
  | @enterKnown hash time info known =>
      refine ⟨final, by simpa using posted, balanced.totals, fun other start inside unlogged => ?_⟩
      obtain ⟨rfl, rfl⟩ : hash = other ∧ time = start := by simpa [History.next] using inside
      rw [show history.inside = none from alternates] at bracketed
      have short := bracketed.isShort_of_outside known
      have kept := unlogged.symm.trans LogView.isShort_of_reset
      simp [short] at kept
  | @exitUnlogged hash time unknown =>
      obtain ⟨start, inside⟩ := alternates
      obtain ⟨region, known, entered⟩ := balanced.entered hash start inside (by simp [unknown])
      have exited : final.post view.regions (view.record time .regionExit hash) =
          .ok (final.emplace hash (RegionInfo.add (timeDiff start time) 1)) := by
        simp [Account.post, LogView.record, known, entered, timeDiff_sub]
      refine ⟨_, (Account.postAll_concat (by simpa using posted) _).trans ?_,
        balanced.of_exit inside fun _ => rfl⟩
      simpa using exited
  | @exitEntered hash index time start short known recorded =>
      obtain ⟨begun, inside⟩ := alternates
      obtain rfl : start = begun := bracketed.started hash begun _ inside known
      obtain ⟨unpaired, position, entryTime, same, found⟩ :=
        (formed.placed hash _ known).of_entered (by simp) rfl
      obtain rfl : index = position := by simpa using same
      have others := fun position record (after : index < position) =>
        bracketed.lastEntry hash _ position record known unpaired (by simpa using after)
      obtain ⟨after, converted, totals⟩ := Account.postAll_toShort
        (postAll_extended formed posted (LogView.visited hash (timeDiff start time))) found others
        List.getElem?_concat_length rfl
      refine ⟨after, by simpa using converted, balanced.of_exit inside fun other => ?_⟩
      simpa [LogView.visited, ShortRegion.complete] using totals other
  | @exitCarried hash time start short known =>
      obtain ⟨begun, inside⟩ := alternates
      obtain rfl : start = begun := bracketed.started hash begun _ inside known
      have added : (view.regions ++ [LogView.visited hash (timeDiff start time)])[
          view.regions.length]? = some (LogView.visited hash (timeDiff start time)) :=
        List.getElem?_concat_length
      refine ⟨_, (Account.postAll_concat (postAll_extended formed posted _) _).trans ?_,
        balanced.of_exit inside fun _ => rfl⟩
      simp only [Account.post, Record.toShort, added]
      simp [LogView.visited, ShortRegion.complete]
  | @exitShort hash index handle time start short known counted =>
      obtain ⟨begun, inside⟩ := alternates
      obtain rfl : start = begun := bracketed.started hash begun _ inside known
      obtain ⟨_, position, slot, entryTime, region, _, same, found, stored, named⟩ :=
        (formed.placed hash _ known).of_short (by simp)
      obtain rfl : handle = slot := by simpa using same
      have alone := fun place record (apart : place ≠ position) (there : view.records[place]? = some record) =>
        formed.signal_ne found there apart rfl
      have completed := Account.postAll_complete posted found alone stored (timeDiff start time)
      exact ⟨_, by simpa using completed, balanced.of_exit inside fun other => by rw [named]⟩
  | @epoch time =>
      refine ⟨final, (Account.postAll_concat (by simpa using posted) _).trans rfl,
        by simpa using balanced.totals, fun other start inside unlogged => ?_⟩
      rw [LogView.reset_map_of_records (by simp)] at unlogged
      simpa using balanced.entered other start inside unlogged
  | dump => exact absurd rfl producer

/-- So does a dump, where the records that it removes were posted. -/
theorem dump (bracketed : view.Bracketed history.inside)
    (balanced : Balanced final view history missed) :
    Balanced final { view with records := [], regions := [] } history missed := by
  refine ⟨balanced.totals, fun hash start inside unlogged => ?_⟩
  have entered := bracketed.entered hash start inside
  rw [← entered] at unlogged inside ⊢
  rw [LogView.isShort_of_dump view { view with records := [], regions := [] } rfl rfl] at unlogged
  exact balanced.entered view.entered start inside unlogged

end Balanced

end Geopm
