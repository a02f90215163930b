import Geopm.Accounting.Lost
import Geopm.Accounting.Totals

namespace Geopm

open RecordLog (Call)

/-! `Controller::run`, as far as it moves records from the logs to the report.

The sampler is updated before the loop, in each `walk_up` and after the loop;
only `walk_up` is followed by an update of the reporter. The reporter reads the
buffer of the sampler alone, so calls of the processes are placed relative to
the updates of the sampler.
-/

/-- A placement of the calls of the processes in one execution of `run`. -/
structure Execution where
  /-- before the first update of the sampler -/
  before : List (Int × Call)
  /-- for each step of the loop, before the update in its `walk_up` -/
  steps : List (List (Int × Call))
  /-- after the last step, before the last update -/
  last : List (Int × Call)

def calls (events : List (Int × Call)) : List Action :=
  events.map fun (key, event) => .call key event

namespace Monitor

variable {State : Type}

/-- `walk_up`: `m_application_sampler.update`, then `m_reporter->update`. -/
def walkUp (monitor : Monitor State) (window : List (Int × Call)) :
    Except MonitorError (Monitor State) := do
  let called ← monitor.run (calls window)
  let sampled ← called.sample
  sampled.aggregate

/-- `Controller::run`, up to the call of `generate`. -/
def controllerRun (monitor : Monitor State) (execution : Execution) :
    Except MonitorError (Monitor State) := do
  let connected ← monitor.run (calls execution.before)
  let started ← connected.sample
  let looped ← execution.steps.foldlM walkUp started
  let finished ← looped.run (calls execution.last)
  finished.sample

end Monitor

namespace Execution

/-- The loop as actions. -/
def loop (execution : Execution) : List Action :=
  execution.steps.flatMap fun window => calls window ++ [.update]

/-- All calls of the execution. -/
def actions (execution : Execution) : List Action :=
  calls execution.before ++ (execution.loop ++ calls execution.last)

end Execution

/-- Where a process stands whose first records were dumped and not posted. -/
inductive Recovers {State : Type} (started : History) (process : Process State)
    (account : Account) (history : History) : Prop where
  | balanced (balances : process.Balances account history started.total)
      (seen : started.inside = none ∨ ∃ hash, started.exits hash ≠ 0)
  | stranded (stranded : Stranded account process.recordLog.view history started.total)
      (inside : started.inside ≠ none) (same : history.exits = started.exits)
  | broken (broken : Broken account process.recordLog.view)
      (inside : started.inside ≠ none) (exited : ∃ hash, started.exits hash < history.exits hash)

namespace Recovers

variable {State : Type} {started history : History} {process : Process State} {key : Int}
  {account final : Account} {event : Call} {log : RecordLog} {valid : ValidateRecord}

/-- The dump before the loop: the process is balanced up to the visits that
were missed, unless its entry record was lost. -/
theorem of_dump (follows : process.Follows key started) (valid : ValidateRecord) :
    Recovers started (process.dumped valid) (fun _ => none) started := by
  have nothing : ∀ hash, Account.total (fun _ => none) hash + started.total hash =
      started.total hash := fun hash => zero_add _
  have after := follows.dumped valid
  have short : ∀ hash info,
      (process.dumped valid).recordLog.view.reset.map hash = some info → info.isShort = true := by
    intro hash info found
    obtain ⟨_, _, _, _, rfl⟩ := LogView.kept_of_empty rfl found
    rfl
  cases inside : started.inside with
  | none =>
      refine .balanced ⟨_, rfl, nothing, fun hash start same => ?_⟩ (.inl inside)
      simp [inside] at same
  | some visit =>
      obtain ⟨hash, start⟩ := visit
      cases found : (process.dumped valid).recordLog.view.reset.map hash with
      | none =>
          refine .stranded ⟨⟨hash, start, inside, rfl, found⟩, ?_, nothing⟩ (by simp [inside]) rfl
          intro record member
          exact absurd member (List.not_mem_nil)
      | some info =>
          have known := short hash info found
          have exited : ∃ hash, started.exits hash ≠ 0 := by
            by_contra none
            have unexited := after.followed.unexited.reset (by simpa using none) found
            simp [known] at unexited
          refine .balanced ⟨_, rfl, nothing, fun other begun same unlogged => ?_⟩ (.inr exited)
          rw [inside, Option.some.injEq, Prod.mk.injEq] at same
          simp [← same.1, found, known] at unlogged

theorem call (recovers : Recovers started process account history)
    (follows : process.Follows key history) (behaves : history.Behaves event)
    (step : LogView.Step process.recordLog.view event log.view) :
    Recovers started { process with recordLog := log } account (history.next event) := by
  cases recovers with
  | balanced balances seen => exact .balanced (balances.call follows behaves step) seen
  | stranded stranded inside same =>
      obtain ⟨after, kept⟩ | ⟨broken, hash, time, rfl⟩ :=
        stranded.step behaves.alternates step behaves.producer
      · exact .stranded after inside (kept.trans same)
      · refine .broken broken inside ⟨hash, ?_⟩
        simp [← same, History.next]
  | broken broken inside exited =>
      obtain ⟨hash, fewer⟩ := exited
      exact .broken (broken.step follows.followed.sound.wellFormed step behaves.producer) inside
        ⟨hash, fewer.trans_le (history.exits_le_next event hash)⟩

theorem update (recovers : Recovers started process account history)
    (follows : process.Follows key history)
    (posted : account.postAll process.recordLog.view.regions process.recordLog.view.records =
      .ok final) : Recovers started (process.dumped valid) final history := by
  cases recovers with
  | balanced balances seen => exact .balanced (balances.dumped follows posted) seen
  | stranded stranded inside same =>
      obtain rfl := Except.ok.inj (stranded.posted.symm.trans posted)
      exact .stranded stranded.dump inside same
  | broken broken _ _ => simp [broken.posted] at posted

/-- When the log is empty the account shows the visits that were not missed. A
process whose entry was lost has not left its region. -/
theorem total (recovers : Recovers started process account history)
    (empty : process.recordLog.view.records = []) :
    (∀ hash, account.total hash + started.total hash = history.total hash) ∧
      (started.inside ≠ none → (∀ hash, started.exits hash = 0) →
        history.exits = started.exits) := by
  cases recovers with
  | balanced balances seen =>
      refine ⟨balances.total empty, fun inside none => ?_⟩
      rcases seen with outside | ⟨hash, exited⟩
      · exact absurd outside inside
      · exact absurd (none hash) exited
  | stranded stranded _ same => exact ⟨stranded.totals, fun _ _ => same⟩
  | broken broken _ _ =>
      have posted := broken.posted
      simp [empty] at posted

/-- What the log holds can be posted unless an exit followed a lost entry. -/
theorem postable (recovers : Recovers started process account history)
    (stays : started.inside ≠ none → history.exits = started.exits) :
    ∃ final, account.postAll process.recordLog.view.regions process.recordLog.view.records =
      .ok final := by
  cases recovers with
  | balanced balances _ =>
      obtain ⟨final, posted, _⟩ := balances
      exact ⟨final, posted⟩
  | stranded stranded _ _ => exact ⟨_, stranded.posted⟩
  | broken _ inside exited =>
      obtain ⟨hash, fewer⟩ := exited
      rw [stays inside] at fewer
      exact absurd fewer (Nat.lt_irrefl _)

end Recovers

/-- A process that was in a region at the first update does not leave it. -/
def Stays (started history : History) (event : Call) : Prop :=
  Regular history event ∧ (started.inside ≠ none → ∀ hash time, event ≠ .exit hash time)

theorem lasting_recovers {State : Type} (started : Int → History) :
    @Lasting State (fun _ => Regular) fun key process account history =>
      Recovers (started key) process account history ∧ process.Accepts history where
  behaves regular := regular.1
  call follows regular step held :=
    ⟨held.1.call follows regular.1 step, held.2.call follows regular.1 regular.2 step⟩
  update follows checked posted held :=
    ⟨held.1.update follows posted, held.2.dumped follows checked⟩

theorem lasting_stays {State : Type} (started : Int → History) :
    @Lasting State (fun key => Stays (started key)) fun key process account history =>
      (Recovers (started key) process account history ∧ process.Accepts history) ∧
        ((started key).inside ≠ none → history.exits = (started key).exits) where
  behaves stays := stays.1.1
  call {_ _ _ _ event _} follows stays step held := by
    refine ⟨(lasting_recovers started).call follows stays.1 step held.1, fun inside => ?_⟩
    rw [← held.2 inside]
    cases event with
    | exit hash time => exact absurd rfl (stays.2 inside hash time)
    | _ => rfl
  update follows checked posted held :=
    ⟨(lasting_recovers started).update follows checked posted held.1, held.2⟩

theorem ready_stays {State : Type} (started : Int → History) :
    @Ready State fun key process account history =>
      (Recovers (started key) process account history ∧ process.Accepts history) ∧
        ((started key).inside ≠ none → history.exits = (started key).exits) := by
  rintro _ _ _ _ ⟨⟨recovers, valid, checked, _⟩, stays⟩
  exact ⟨⟨valid, checked⟩, recovers.postable stays⟩

namespace Monitor

variable {State : Type} {monitor next final : Monitor State} {histories : Int → History}
  {holds : Int → Process State → Account → History → Prop} {execution : Execution}
  {events : List (Int × Call)} {key : Int}

theorem run_calls (ran : monitor.run (calls events) = .ok next) :
    next.regionInfo = monitor.regionInfo := by
  induction events generalizing monitor with
  | nil =>
      obtain rfl := Except.ok.inj ran
      rfl
  | cons event rest ih =>
      obtain ⟨key, event⟩ := event
      rw [calls, List.map_cons, run_cons] at ran
      obtain ⟨middle, called, later⟩ := Transition.ok_of_bind ran
      rw [ih later]
      simp only [step, Monitor.call] at called
      split at called
      · simp at called
      · obtain rfl := Except.ok.inj called
        rfl

theorem foldlM_walkUp (steps : List (List (Int × Call))) :
    steps.foldlM walkUp monitor =
      monitor.run (steps.flatMap fun window => calls window ++ [.update]) := by
  induction steps generalizing monitor with
  | nil => rfl
  | cons window rest ih =>
      have first : walkUp monitor window = monitor.run (calls window ++ [.update]) := by
        rw [run_append]
        simp only [walkUp, bind, run_update]
        cases monitor.run (calls window) <;> rfl
      rw [List.foldlM_cons, List.flatMap_cons, run_append, first]
      simp only [bind, ih]

/-- The states between the parts of `run`. -/
structure Passed (monitor : Monitor State) (execution : Execution)
    (connected started looped finished final : Monitor State) : Prop where
  before : monitor.run (calls execution.before) = .ok connected
  first : connected.sample = .ok started
  loop : started.run execution.loop = .ok looped
  last : looped.run (calls execution.last) = .ok finished
  sample : finished.sample = .ok final

theorem passed_of_run (ran : monitor.controllerRun execution = .ok final) :
    ∃ connected started looped finished,
      monitor.Passed execution connected started looped finished final := by
  obtain ⟨connected, before, ran⟩ := Transition.ok_of_bind ran
  obtain ⟨started, first, ran⟩ := Transition.ok_of_bind ran
  obtain ⟨looped, loop, ran⟩ := Transition.ok_of_bind ran
  obtain ⟨finished, last, sample⟩ := Transition.ok_of_bind ran
  rw [foldlM_walkUp] at loop
  exact ⟨connected, started, looped, finished, before, first, loop, last, sample⟩

theorem controllerRun_eq : monitor.controllerRun execution =
    (monitor.run (calls execution.before)).bind fun connected =>
      connected.sample.bind fun started =>
        (started.run (execution.loop ++ calls execution.last)).bind sample := by
  simp only [controllerRun, foldlM_walkUp, run_append, bind, Execution.loop]
  congr 1
  funext connected
  congr 1
  funext started
  cases started.run (execution.steps.flatMap fun window => calls window ++ [.update]) <;> rfl

/-- The loop leaves the logs empty. -/
theorem Holds.loop {permit : Int → History → Call → Prop} (lasting : Lasting permit holds)
    (held : monitor.Holds histories holds) (drained : monitor.Drained)
    (allowed : Allowed monitor.sampler.keys permit histories execution.loop)
    (ran : monitor.run execution.loop = .ok next) :
    next.sampler.keys = monitor.sampler.keys ∧
      next.Holds (historiesAfter histories execution.loop) holds ∧ next.Drained := by
  obtain ⟨keys, after⟩ := held.run lasting allowed ran
  refine ⟨keys, after, ?_⟩
  rcases List.eq_nil_or_concat execution.steps with none | ⟨windows, window, split⟩
  · have empty : execution.loop = [] := by simp [Execution.loop, none]
    rw [empty] at ran
    obtain rfl := Except.ok.inj ran
    exact drained
  · have last : execution.loop =
        ((windows.flatMap fun window => calls window ++ [.update]) ++ calls window) ++
          [.update] := by simp [Execution.loop, split]
    rw [last] at allowed ran
    obtain ⟨middle, before, updated⟩ := Transition.ok_of_bind ((run_append _ _).symm.trans ran)
    obtain ⟨_, reached⟩ := held.run lasting (Allowed.append.mp allowed).1 before
    exact (reached.update lasting (run_update.symm.trans updated)).2.2

section

variable {keys : List Int} {timeZero : Int → Time} {connected started : Monitor State}

/-- What the first update of the sampler leaves. -/
theorem started_holds (distinct : keys.Nodup)
    (configured : ∀ key ∈ keys, (RecordLog.initial key (timeZero key)).Configured)
    (allowed : Allowed keys (fun _ => Regular) (fun _ => History.empty) (calls events))
    (before : (initial keys timeZero : Monitor State).run (calls events) = .ok connected)
    (first : connected.sample = .ok started) :
    started.sampler.keys = keys ∧ started.Drained ∧
      started.Holds (fun key => historyOf key (calls events)) fun key process account history =>
        (Recovers (historyOf key (calls events)) process account history ∧
          process.Accepts history) ∧
        ((historyOf key (calls events)).inside ≠ none →
          history.exits = (historyOf key (calls events)).exits) := by
  have start := @initial_holds State keys timeZero distinct configured
  obtain ⟨kept, held⟩ := start.run lasting_accepts allowed before
  obtain ⟨sameKeys, follows, dumped, _⟩ := held.sample first
  have unposted : started.regionInfo = fun _ _ => none :=
    (sample_regionInfo first).trans (run_calls before)
  refine ⟨sameKeys.trans kept, fun key member => ?_, follows, fun key member => ?_⟩
  · obtain ⟨valid, _, same⟩ := dumped key (sameKeys ▸ member)
    rw [same]
    rfl
  · have known : key ∈ connected.sampler.keys := sameKeys ▸ member
    obtain ⟨valid, checked, same⟩ := dumped key known
    rw [same, unposted]
    exact ⟨⟨.of_dump (held.follows.each key known) valid,
      (held.each key known).2.dumped (held.follows.each key known) checked⟩, fun _ => rfl⟩

end

/-- Every exit is counted when the report is generated. -/
def Complete (monitor : Monitor State) (execution : Execution) : Prop :=
  ∃ final, monitor.controllerRun execution = .ok final ∧
    ∀ key ∈ monitor.sampler.keys, ∀ hash,
      (final.regionInfo key).total hash = (historyOf key execution.actions).total hash

end Monitor

/-- No process leaves a region before the first update or after the last step
of the loop, and none leaves in the loop the region that it was in at the first
update. -/
def Reported (keys : List Int) (execution : Execution) : Prop :=
  ∀ key ∈ keys, ¬ Exits (callsOf key (calls execution.before)) ∧
    ¬ Exits (callsOf key (calls execution.last)) ∧
    ((historyOf key (calls execution.before)).inside ≠ none →
      ¬ Exits (callsOf key execution.loop))

instance (keys : List Int) (execution : Execution) : Decidable (Reported keys execution) :=
  inferInstanceAs (Decidable (∀ key ∈ keys, _ ∧ _ ∧ (_ → _)))

namespace Monitor

variable {State : Type} {keys : List Int} {timeZero : Int → Time} {execution : Execution}
  {key : Int} {connected started looped finished final : Monitor State}

/-- The visits up to the end of the loop. -/
def loopHistory (execution : Execution) (key : Int) : History :=
  Transition.run History.next (historyOf key (calls execution.before))
    (callsOf key execution.loop)

theorem historyOf_actions (execution : Execution) (key : Int) :
    historyOf key execution.actions =
      Transition.run History.next (loopHistory execution key)
        (callsOf key (calls execution.last)) := by
  simp only [Execution.actions, historyOf, loopHistory, callsOf_append, Transition.run_append]

/-- The report misses the visits that ended before the first update and those
that ended after the last step. -/
theorem Passed.total (distinct : keys.Nodup)
    (configured : ∀ key ∈ keys, (RecordLog.initial key (timeZero key)).Configured)
    (regular : Allowed keys (fun _ => Regular) (fun _ => History.empty) execution.actions)
    (passed : (initial keys timeZero : Monitor State).Passed execution connected started looped
      finished final) (known : key ∈ keys) :
    (∀ hash, (final.regionInfo key).total hash +
      (historyOf key (calls execution.before)).total hash = (loopHistory execution key).total hash) ∧
    ((historyOf key (calls execution.before)).inside ≠ none →
      (∀ hash, (historyOf key (calls execution.before)).exits hash = 0) →
      (loopHistory execution key).exits = (historyOf key (calls execution.before)).exits) := by
  obtain ⟨early, later⟩ := Allowed.append.mp regular
  obtain ⟨sameKeys, drained, held⟩ :=
    started_holds distinct configured early passed.before passed.first
  have recovers : started.Holds (fun key => historyOf key (calls execution.before))
      fun key process account history =>
        Recovers (historyOf key (calls execution.before)) process account history ∧
          process.Accepts history :=
    ⟨held.follows, fun key member => (held.each key member).1⟩
  have inLoop : Allowed started.sampler.keys (fun _ => Regular)
      (fun key => historyOf key (calls execution.before)) execution.loop :=
    sameKeys ▸ (Allowed.append.mp later).1
  obtain ⟨kept, after, empty⟩ := recovers.loop (lasting_recovers _) drained inLoop passed.loop
  have member : key ∈ looped.sampler.keys := by
    rw [kept, sameKeys]
    exact known
  have unchanged : final.regionInfo = looped.regionInfo :=
    (sample_regionInfo passed.sample).trans (run_calls passed.last)
  rw [unchanged]
  exact (after.each key member).1.total (empty key member)

theorem reported_of_complete (distinct : keys.Nodup)
    (configured : ∀ key ∈ keys, (RecordLog.initial key (timeZero key)).Configured)
    (regular : Allowed keys (fun _ => Regular) (fun _ => History.empty) execution.actions)
    (complete : (initial keys timeZero : Monitor State).Complete execution) :
    Reported keys execution := by
  obtain ⟨final, ran, counted⟩ := complete
  obtain ⟨_, _, _, _, passed⟩ := passed_of_run ran
  intro key known
  obtain ⟨posted, stays⟩ := passed.total distinct configured regular known
  have equal : ∀ hash, (historyOf key (calls execution.before)).exits hash = 0 ∧
      (historyOf key execution.actions).exits hash = (loopHistory execution key).exits hash := by
    intro hash
    have shown := congrArg Prod.fst (posted hash)
    rw [counted key known hash] at shown
    have later := (loopHistory execution key).exits_le_run (callsOf key (calls execution.last)) hash
    rw [← historyOf_actions] at later
    simp only [History.total, Prod.fst_add] at shown
    omega
  refine ⟨?_, ?_, ?_⟩
  · rintro ⟨hash, time, member⟩
    have fewer : _ < (historyOf key (calls execution.before)).exits hash :=
      History.empty.exits_lt_run member
    rw [(equal hash).1] at fewer
    exact absurd fewer (Nat.not_lt_zero _)
  · rintro ⟨hash, time, member⟩
    have fewer := (loopHistory execution key).exits_lt_run member
    rw [← historyOf_actions, (equal hash).2] at fewer
    exact absurd fewer (Nat.lt_irrefl _)
  · rintro inside ⟨hash, time, member⟩
    have fewer : _ < (loopHistory execution key).exits hash :=
      (historyOf key (calls execution.before)).exits_lt_run member
    rw [stays inside fun hash => (equal hash).1] at fewer
    exact absurd fewer (Nat.lt_irrefl _)

/-- A process that stays in the region of its first update does not break the run. -/
theorem controllerRun_of_reported (distinct : keys.Nodup)
    (configured : ∀ key ∈ keys, (RecordLog.initial key (timeZero key)).Configured)
    (regular : Allowed keys (fun _ => Regular) (fun _ => History.empty) execution.actions)
    (reported : Reported keys execution) :
    (∃ final, (initial keys timeZero : Monitor State).controllerRun execution = .ok final) ∨
      (initial keys timeZero : Monitor State).controllerRun execution =
        .error (.log .maximumRecords) := by
  obtain ⟨early, later⟩ := Allowed.append.mp regular
  have start := @initial_holds State keys timeZero distinct configured
  rw [controllerRun_eq]
  obtain ⟨connected, before⟩ | full := start.run_exists lasting_accepts ready_accepts early
  · obtain ⟨_, reached⟩ := start.run lasting_accepts early before
    obtain ⟨started, first⟩ := reached.sample_exists ready_accepts
    obtain ⟨sameKeys, _, held⟩ := started_holds distinct configured early before first
    have stays : Allowed started.sampler.keys
        (fun key => Stays (historyOf key (calls execution.before)))
        (fun key => historyOf key (calls execution.before))
        (execution.loop ++ calls execution.last) := by
      rw [sameKeys]
      refine later.and fun key event member inside hash time same => ?_
      obtain ⟨_, late, unmoved⟩ := reported key (later.known key event (mem_callsOf member))
      rw [callsOf_append, List.mem_append, same] at member
      rcases member with inLoop | after
      · exact unmoved inside ⟨hash, time, inLoop⟩
      · exact late ⟨hash, time, after⟩
    simp only [before, first, Except.bind]
    obtain ⟨finished, ran⟩ | full := held.run_exists (lasting_stays _) (ready_stays _) stays
    · obtain ⟨_, last⟩ := held.run (lasting_stays _) stays ran
      obtain ⟨final, sampled⟩ := last.sample_exists (ready_stays _)
      left
      exact ⟨final, by simp only [ran, sampled]⟩
    · right
      simp only [full]
  · right
    simp only [full, Except.bind]

theorem complete_of_reported (distinct : keys.Nodup)
    (configured : ∀ key ∈ keys, (RecordLog.initial key (timeZero key)).Configured)
    (regular : Allowed keys (fun _ => Regular) (fun _ => History.empty) execution.actions)
    (space : (initial keys timeZero : Monitor State).controllerRun execution ≠
      .error (.log .maximumRecords)) (reported : Reported keys execution) :
    (initial keys timeZero : Monitor State).Complete execution := by
  obtain ⟨final, ran⟩ :=
    (controllerRun_of_reported distinct configured regular reported).resolve_right space
  refine ⟨final, ran, fun key known hash => ?_⟩
  obtain ⟨_, _, _, _, passed⟩ := passed_of_run ran
  obtain ⟨posted, _⟩ := passed.total distinct configured regular known
  obtain ⟨early, late, _⟩ := reported key known
  have missed : (historyOf key (calls execution.before)).total = 0 :=
    History.empty.total_run early
  rw [historyOf_actions, History.total_run _ late, ← posted hash, missed]
  exact (add_zero _).symm

/-- The updates before and after the loop are not followed by an update of the
reporter: the report is complete only where they find no exit, and no exit of a
visit whose entry they found comes later. -/
theorem complete_iff_reported (distinct : keys.Nodup)
    (configured : ∀ key ∈ keys, (RecordLog.initial key (timeZero key)).Configured)
    (behaved : Behaved keys execution.actions) (valid : HashesValid execution.actions)
    (space : (initial keys timeZero : Monitor State).controllerRun execution ≠
      .error (.log .maximumRecords)) :
    (initial keys timeZero : Monitor State).Complete execution ↔ Reported keys execution :=
  ⟨reported_of_complete distinct configured (behaved.and valid),
    complete_of_reported distinct configured (behaved.and valid) space⟩

/-- A process that enters a region before the controller is ready, and one that
visits it in the loop. -/
def attached : Execution where
  before := [(2, .enter 7 ⟨2, 0⟩)]
  steps := [[(1, .enter 7 ⟨3, 0⟩)], [(1, .exit 7 ⟨4, 0⟩), (1, .epoch ⟨5, 0⟩)]]
  last := [(1, .enter 7 ⟨6, 0⟩)]

theorem complete_attached :
    (initial [1, 2] (fun _ => ⟨1, 0⟩) : Monitor Unit).Complete attached := by
  have configured : ∀ key ∈ [1, 2], (RecordLog.initial key ⟨1, 0⟩).Configured := by
    simp only [List.forall_mem_cons, List.not_mem_nil, false_implies, implies_true, and_true]
    exact ⟨⟨by decide, by decide +kernel⟩, ⟨by decide, by decide +kernel⟩⟩
  have behaved : Behaved [1, 2] attached.actions :=
    .of_keys (by simp [Execution.actions, Execution.loop, attached, calls]) (by decide +kernel)
  have valid : HashesValid attached.actions := by
    intro key event member
    have called := mem_callsOf member
    simp only [Execution.actions, Execution.loop, attached, calls, List.map_cons, List.map_nil,
      List.flatMap_cons, List.flatMap_nil, List.cons_append, List.nil_append, List.mem_cons,
      Action.call.injEq, List.not_mem_nil, or_false, reduceCtorEq, false_or] at called
    rcases called with ⟨_, rfl⟩ | ⟨_, rfl⟩ | ⟨_, rfl⟩ | ⟨_, rfl⟩ | ⟨_, rfl⟩ <;> decide +kernel
  have succeeds : ((initial [1, 2] (fun _ => ⟨1, 0⟩) : Monitor Unit).controllerRun
      attached).isOk = true := by decide +kernel
  have space : (initial [1, 2] (fun _ => ⟨1, 0⟩) : Monitor Unit).controllerRun attached ≠
      .error (.log .maximumRecords) := by
    intro full
    simp [full, Except.isOk, Except.toBool] at succeeds
  have reported : Reported [1, 2] attached := by decide +kernel
  exact (complete_iff_reported (by decide) configured behaved valid space).mpr reported

/-- The second visit ends after the last step of the loop. -/
def shutdown : Execution where
  before := []
  steps := [[(1, .enter 7 ⟨2, 0⟩), (1, .exit 7 ⟨3, 0⟩)]]
  last := [(1, .enter 7 ⟨4, 0⟩), (1, .exit 7 ⟨5, 0⟩)]

theorem not_complete_shutdown :
    ¬ (initial [1] (fun _ => ⟨1, 0⟩) : Monitor Unit).Complete shutdown := by
  rintro ⟨final, ran, counted⟩
  have shown : ((initial [1] (fun _ => ⟨1, 0⟩) : Monitor Unit).controllerRun shutdown).map
      (fun final => (final.regionInfo 1).total 7) = .ok (1, 1) := by decide +kernel
  have visits : (historyOf 1 shutdown.actions).total 7 = (2, 2) := by decide +kernel
  rw [ran, Except.map, counted 1 (by simp [initial]) 7, visits] at shown
  simp at shown

end Monitor

end Geopm
