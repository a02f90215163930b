import Geopm.Accounting.Balance
import Geopm.Library.Run

namespace Geopm

open RecordLog (Call)

/-! A process whose entry record was dropped.

While it stays in its region nothing is posted for it. Its exit record cannot be
posted: the aggregator has no entry for the region.
-/

/-- The process is in a region that its account does not know. -/
structure Stranded (base : Account) (view : LogView) (history : History)
    (missed : Nat → Nat × Rat) : Prop where
  inside : ∃ hash start, history.inside = some (hash, start) ∧ base hash = none ∧
    view.reset.map hash = none
  epochs : ∀ record ∈ view.records, record.event = .epochCount
  totals : ∀ hash, base.total hash + missed hash = history.total hash

/-- The log holds an exit that cannot be posted. -/
def Broken (base : Account) (view : LogView) : Prop :=
  ∃ count, count ≤ view.records.length ∧
    (∀ record ∈ view.records.take count, record.event ≠ .regionEntry) ∧
    ∀ shortRegions, base.postAll shortRegions (view.records.take count) = .error .exitWithoutEntry

variable {base : Account} {view next : LogView} {history : History} {missed : Nat → Nat × Rat}

theorem postAll_epochs {records : List Record} {shortRegions : List ShortRegion}
    (epochs : ∀ record ∈ records, record.event = .epochCount) :
    base.postAll shortRegions records = .ok base := by
  induction records with
  | nil => rfl
  | cons record rest ih =>
      have first : base.post shortRegions record = .ok base := by
        simp only [Account.post, epochs record (by simp)]
      rw [Account.postAll_cons, first]
      exact ih fun other member => epochs other (by simp [member])

theorem Stranded.posted (stranded : Stranded base view history missed) :
    base.postAll view.regions view.records = .ok base :=
  postAll_epochs stranded.epochs

theorem Broken.posted (broken : Broken base view) :
    base.postAll view.regions view.records = .error .exitWithoutEntry := by
  obtain ⟨count, _, _, failed⟩ := broken
  rw [← List.take_append_drop count view.records, Account.postAll_append, failed]
  rfl

/-- The process can only leave its region, which breaks the log, or count epochs. -/
theorem Stranded.step {call : Call} (alternates : history.Alternates call)
    (step : LogView.Step view call next) (producer : call ≠ .dump)
    (stranded : Stranded base view history missed) :
    (Stranded base next (history.next call) missed ∧ (history.next call).exits = history.exits) ∨
      (Broken base next ∧ ∃ hash time, call = .exit hash time) := by
  obtain ⟨⟨hash, start, inside, unposted, unknown⟩, epochs, totals⟩ := stranded
  have named : ∀ {other : Nat} {time : Time}, history.Alternates (.exit other time) →
      other = hash := by
    rintro other time ⟨begun, same⟩
    rw [inside, Option.some.injEq, Prod.mk.injEq] at same
    exact same.1.symm
  cases step with
  | enterNew _ => simp [History.Alternates, inside] at alternates
  | enterKnown _ => simp [History.Alternates, inside] at alternates
  | @exitUnlogged other time _ =>
      obtain rfl := named alternates
      right
      refine ⟨⟨view.records.length + 1, by simp, ?_, ?_⟩, other, time, rfl⟩
      · intro record member
        rw [List.take_of_length_le (by simp), List.mem_append, List.mem_singleton] at member
        rcases member with old | rfl
        · simp [epochs record old]
        · simp [LogView.record]
      · intro shortRegions
        rw [List.take_of_length_le (by simp), Account.postAll_concat (postAll_epochs epochs)]
        simp [Account.post, LogView.record, unposted]
  | exitEntered known _ => simp [named alternates, unknown] at known
  | exitCarried known => simp [named alternates, unknown] at known
  | exitShort known _ => simp [named alternates, unknown] at known
  | epoch =>
      left
      refine ⟨⟨⟨hash, start, inside, unposted, ?_⟩, ?_, totals⟩, rfl⟩
      · rw [LogView.reset_map_of_records (by simp)]
        exact unknown
      · intro record member
        rcases List.mem_append.mp member with old | new
        · exact epochs record old
        · rw [List.mem_singleton.mp new]
          rfl
  | dump => exact absurd rfl producer

theorem Stranded.dump (stranded : Stranded base view history missed) :
    Stranded base { view with records := [], regions := [] } history missed := by
  obtain ⟨⟨hash, start, inside, unposted, unknown⟩, _, totals⟩ := stranded
  refine ⟨⟨hash, start, inside, unposted, ?_⟩, by simp, totals⟩
  apply Option.eq_none_iff_forall_ne_some.mpr
  intro info found
  obtain ⟨_, old, stored, _⟩ := @LogView.kept_of_dump view { view with records := [], regions := [] }
    hash info rfl rfl rfl found
  simp [unknown] at stored

/-- What the log holds before an entry record is not changed by a call. -/
theorem Broken.step {call : Call} (formed : view.WellFormed) (step : LogView.Step view call next)
    (producer : call ≠ .dump) (broken : Broken base view) : Broken base next := by
  obtain ⟨count, bound, noEntry, failed⟩ := broken
  have kept : next.records.take count = view.records.take count ∧
      view.records.length ≤ next.records.length := by
    cases step with
    | enterNew _ => exact ⟨List.take_append_of_le_length bound, by simp⟩
    | enterKnown _ => simp
    | exitUnlogged _ => exact ⟨List.take_append_of_le_length bound, by simp⟩
    | @exitEntered hash index time start short known _ =>
        obtain ⟨_, position, entryTime, same, found⟩ :=
          (formed.placed hash _ known).of_entered (by simp) rfl
        obtain rfl : index = position := by simpa using same
        have behind : count ≤ index := by
          by_contra before
          have entry := noEntry _ (List.mem_of_getElem?
            ((List.getElem?_take_of_lt (by omega)).trans found))
          exact entry rfl
        refine ⟨?_, by simp⟩
        rw [List.take_modify, List.modify_eq_self]
        rw [List.length_take]
        omega
    | exitCarried _ => exact ⟨List.take_append_of_le_length bound, by simp⟩
    | exitShort _ _ => simp
    | epoch => exact ⟨List.take_append_of_le_length bound, by simp⟩
    | dump => exact absurd rfl producer
  exact ⟨count, bound.trans kept.2, by rw [kept.1]; exact noEntry, by rw [kept.1]; exact failed⟩

/-- The calls hold an exit. -/
def Exits (events : List Call) : Prop := ∃ hash time, .exit hash time ∈ events

instance : ∀ events, Decidable (Exits events)
  | [] => .isFalse (by simp [Exits])
  | .exit hash time :: _ => .isTrue ⟨hash, time, by simp⟩
  | .enter hash time :: rest => @decidable_of_iff _ (Exits rest) (by simp [Exits])
      (instDecidableExits rest)
  | .epoch time :: rest => @decidable_of_iff _ (Exits rest) (by simp [Exits])
      (instDecidableExits rest)
  | .dump :: rest => @decidable_of_iff _ (Exits rest) (by simp [Exits]) (instDecidableExits rest)

namespace History

theorem exits_le_next (history : History) (call : Call) (hash : Nat) :
    history.exits hash ≤ (history.next call).exits hash := by
  cases call with
  | exit other time =>
      by_cases same : hash = other
      · subst same
        simp [History.next]
      · simp [History.next, same]
  | _ => exact Nat.le_refl _

theorem exits_le_run (history : History) (events : List Call) (hash : Nat) :
    history.exits hash ≤ (Transition.run History.next history events).exits hash := by
  induction events generalizing history with
  | nil => exact Nat.le_refl _
  | cons event rest ih => exact (history.exits_le_next event hash).trans (ih _)

theorem exits_lt_run {events : List Call} {hash : Nat} {time : Time} (history : History)
    (member : .exit hash time ∈ events) :
    history.exits hash < (Transition.run History.next history events).exits hash := by
  induction events generalizing history with
  | nil => simp at member
  | cons event rest ih =>
      rcases List.mem_cons.mp member with rfl | later
      · have counted : (history.next (.exit hash time)).exits hash = history.exits hash + 1 := by
          simp [History.next]
        have kept := exits_le_run (history.next (.exit hash time)) rest hash
        rw [Transition.run_cons]
        omega
      · exact (history.exits_le_next event hash).trans_lt (ih _ later)

/-- Without an exit nothing is counted. -/
theorem total_run {events : List Call} (history : History)
    (none : ¬ Exits events) :
    (Transition.run History.next history events).total = history.total := by
  induction events generalizing history with
  | nil => rfl
  | cons event rest ih =>
      have later : ¬ Exits rest := fun ⟨hash, time, member⟩ =>
        none ⟨hash, time, List.mem_cons_of_mem event member⟩
      rw [Transition.run_cons, ih _ later]
      cases event with
      | exit hash time => exact absurd ⟨hash, time, by simp⟩ none
      | _ => rfl

end History

end Geopm
