import Geopm.Accounting.Balance
import Geopm.Accounting.Monitor

namespace Geopm

open RecordLog (Call)

/-! What the aggregator shows after an update that follows a dump of all logs. -/

namespace Process

variable {State : Type} {process : Process State} {key : Int} {base final : Account}
  {history : History} {missed : Nat → Nat × Rat} {event : Call} {log : RecordLog}
  {valid : ValidateRecord}

/-- The account would be balanced if the log was posted to it. -/
def Balances (process : Process State) (base : Account) (history : History)
    (missed : Nat → Nat × Rat) : Prop :=
  ∃ final, base.postAll process.recordLog.view.regions process.recordLog.view.records = .ok final ∧
    Balanced final process.recordLog.view history missed

/-- The validator would accept the log. -/
def Accepts (process : Process State) (history : History) : Prop :=
  ∃ valid, process.valid.checkAll process.recordLog.view.records = .ok valid ∧
    valid.Tracks process.recordLog.view history

theorem Balances.call (balances : process.Balances base history missed)
    (follows : process.Follows key history) (behaves : history.Behaves event)
    (step : LogView.Step process.recordLog.view event log.view) :
    ({ process with recordLog := log } : Process State).Balances base (history.next event)
      missed := by
  obtain ⟨final, posted, balanced⟩ := balances
  exact balanced.step follows.followed.sound.wellFormed follows.followed.bracketed
    behaves.alternates step behaves.producer posted

theorem Balances.dumped (balances : process.Balances base history missed)
    (follows : process.Follows key history)
    (posted : base.postAll process.recordLog.view.regions process.recordLog.view.records =
      .ok final) : (process.dumped valid).Balances final history missed := by
  obtain ⟨other, same, balanced⟩ := balances
  obtain rfl := Except.ok.inj (same.symm.trans posted)
  exact ⟨other, rfl, balanced.dump follows.followed.bracketed⟩

/-- With an empty log the account itself is balanced. -/
theorem Balances.total (balances : process.Balances base history missed)
    (empty : process.recordLog.view.records = []) (hash : Nat) :
    base.total hash + missed hash = history.total hash := by
  obtain ⟨final, posted, balanced⟩ := balances
  rw [empty] at posted
  obtain rfl := Except.ok.inj posted
  exact balanced.totals hash

theorem Accepts.call (accepts : process.Accepts history) (follows : process.Follows key history)
    (behaves : history.Behaves event) (hashes : ValidateRecord.HashesValid event)
    (step : LogView.Step process.recordLog.view event log.view) :
    ({ process with recordLog := log } : Process State).Accepts (history.next event) := by
  obtain ⟨before, checked, tracks⟩ := accepts
  exact tracks.step follows.followed.sound.wellFormed follows.followed.bracketed
    behaves.alternates behaves.nondecreasing hashes step behaves.producer checked

theorem Accepts.dumped (accepts : process.Accepts history) (follows : process.Follows key history)
    (checked : process.valid.checkAll process.recordLog.view.records = .ok valid) :
    (process.dumped valid).Accepts history := by
  obtain ⟨final, accepted, tracks⟩ := accepts
  obtain rfl := Except.ok.inj (accepted.symm.trans checked)
  exact ⟨final, rfl, tracks.dump follows.followed.bracketed⟩

end Process

/-- Calls that the validator accepts as well. -/
def Regular (history : History) (event : Call) : Prop :=
  history.Behaves event ∧ ValidateRecord.HashesValid event

namespace Monitor

variable {State : Type} {monitor next : Monitor State} {actions : List Action} {keys : List Int}
  {timeZero : Int → Time}

/-- All hashes of the calls are valid. -/
def HashesValid (actions : List Action) : Prop :=
  ∀ key, ∀ event ∈ callsOf key actions, ValidateRecord.HashesValid event

/-- Only processes of the sampler make calls, and each behaves. -/
def Behaved (keys : List Int) (actions : List Action) : Prop :=
  Allowed keys (fun _ => History.Behaves) (fun _ => History.empty) actions

theorem lasting_balances : @Lasting State (fun _ => History.Behaves)
    fun _ process account history => process.Balances account history 0 where
  behaves behaves := behaves
  call follows behaves step balances := balances.call follows behaves step
  update follows _ posted balances := balances.dumped follows posted

theorem lasting_accepts : @Lasting State (fun _ => Regular)
    fun _ process account history => process.Balances account history 0 ∧ process.Accepts history where
  behaves regular := regular.1
  call follows regular step held :=
    ⟨held.1.call follows regular.1 step, held.2.call follows regular.1 regular.2 step⟩
  update follows checked posted held :=
    ⟨held.1.dumped follows posted, held.2.dumped follows checked⟩

theorem ready_accepts : @Ready State
    fun _ process account history => process.Balances account history 0 ∧ process.Accepts history := by
  rintro _ _ _ _ ⟨⟨final, posted, _⟩, valid, checked, _⟩
  exact ⟨⟨valid, checked⟩, final, posted⟩

theorem initial_holds (distinct : keys.Nodup)
    (configured : ∀ key ∈ keys, (RecordLog.initial key (timeZero key)).Configured) :
    (initial keys timeZero : Monitor State).Holds (fun _ => History.empty)
      fun _ process account history =>
        process.Balances account history 0 ∧ process.Accepts history := by
  refine ⟨⟨distinct, fun key member => ?_⟩, fun key _ => ⟨?_, ?_⟩⟩
  · exact ⟨rfl, .initial (configured key member), rfl⟩
  · have untouched : ∀ hash, Account.total (fun _ => none) hash = History.empty.total hash :=
      fun _ => rfl
    exact ⟨_, rfl, fun hash => (add_zero _).trans (untouched hash),
      fun _ _ inside => by simp [History.empty] at inside⟩
  · exact ⟨_, rfl, fun _ => rfl, fun nonempty => by simp [initial, ValidateRecord.new] at nonempty,
      fun nonempty => by simp [initial, ValidateRecord.new] at nonempty, rfl, rfl⟩

/-- After each update the aggregator shows the number of exits of each region
and the exact time between enter and exit, for every process. -/
theorem totals_run (distinct : keys.Nodup)
    (configured : ∀ key ∈ keys, (RecordLog.initial key (timeZero key)).Configured)
    (actions : List Action) (behaved : Behaved keys actions) :
    (∀ monitor, (initial keys timeZero : Monitor State).run (actions ++ [.update]) = .ok monitor →
      ∀ key ∈ keys, ∀ hash,
        (monitor.regionInfo key).total hash = (historyOf key actions).total hash) ∧
    (HashesValid actions →
      (∃ monitor, (initial keys timeZero : Monitor State).run (actions ++ [.update]) =
          .ok monitor) ∨
        (initial keys timeZero : Monitor State).run (actions ++ [.update]) =
          .error (.log .maximumRecords)) := by
  have start := @initial_holds State keys timeZero distinct configured
  constructor
  · intro monitor ran key member hash
    have balances : (initial keys timeZero : Monitor State).Holds (fun _ => History.empty)
        fun _ process account history => process.Balances account history 0 :=
      ⟨start.follows, fun key member => (start.each key member).1⟩
    rw [run_append] at ran
    obtain ⟨middle, before, last⟩ := Transition.ok_of_bind ran
    obtain ⟨sameKeys, held⟩ := balances.run lasting_balances behaved before
    obtain ⟨kept, after, drained⟩ := held.update lasting_balances (run_update.symm.trans last)
    have known : key ∈ monitor.sampler.keys := by
      rw [kept, sameKeys]
      exact member
    exact (add_zero _).symm.trans ((after.each key known).total (drained key known) hash)
  · intro valid
    have extended : Behaved keys (actions ++ [.update]) :=
      Allowed.append.mpr ⟨behaved, by simp, fun _ => trivial⟩
    have hashes : HashesValid (actions ++ [.update]) := by
      intro key event member
      exact valid key event (by simpa [callsOf] using member)
    exact start.run_exists lasting_accepts ready_accepts (extended.and hashes)

/-- Two processes, with visits that end before and after an update. -/
def straddling : List Action :=
  [.call 1 (.enter 7 ⟨2, 0⟩), .call 1 (.exit 7 ⟨3, 0⟩), .call 2 (.enter 7 ⟨3, 0⟩),
    .call 1 (.enter 7 ⟨4, 0⟩), .update, .call 1 (.exit 7 ⟨6, 0⟩), .call 2 (.exit 7 ⟨9, 0⟩)]

theorem totals_run_straddling :
    ∃ monitor, (initial [1, 2] (fun _ => ⟨1, 0⟩) : Monitor Unit).run
        (straddling ++ [.update]) = .ok monitor ∧
      (monitor.regionInfo 1).total 7 = (2, 3) ∧ (monitor.regionInfo 2).total 7 = (1, 6) := by
  have succeeds : ((initial [1, 2] (fun _ => ⟨1, 0⟩) : Monitor Unit).run
      (straddling ++ [.update])).isOk = true := by decide +kernel
  cases ran : (initial [1, 2] (fun _ => ⟨1, 0⟩) : Monitor Unit).run (straddling ++ [.update]) with
  | error reason => simp [ran, Except.isOk, Except.toBool] at succeeds
  | ok monitor =>
      have behaved : Behaved [1, 2] straddling :=
        .of_keys (by simp [straddling]) (by decide +kernel)
      have configured : ∀ key ∈ [1, 2], (RecordLog.initial key ⟨1, 0⟩).Configured := by
        simp only [List.forall_mem_cons, List.not_mem_nil, false_implies, implies_true, and_true]
        exact ⟨⟨by decide, by decide +kernel⟩, ⟨by decide, by decide +kernel⟩⟩
      have totals := (totals_run (by decide) configured straddling behaved).1 monitor ran
      exact ⟨monitor, rfl, (totals 1 (by decide) 7).trans (by decide +kernel),
        (totals 2 (by decide) 7).trans (by decide +kernel)⟩

end Monitor

end Geopm
