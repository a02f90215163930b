import Geopm.ApplicationSampler
import Geopm.RecordLog.History
import Geopm.Library.Run

namespace Geopm

open RecordLog (Call)

/-! Region accounting end to end: the logs of all processes, the sampler that
dumps them and the aggregator that posts what the sampler holds.
-/

inductive MonitorError where
  | log (reason : LogError)
  | valid (reason : ValidateError)
  | aggregator (reason : AggregatorError)
deriving Repr, DecidableEq

/-- The sampler with the logs of its processes, and `m_region_info`. -/
structure Monitor (State : Type) where
  sampler : ApplicationSampler State
  regionInfo : RegionMap

/-- A call of a process on its own log, or an update of the controller. -/
inductive Action where
  | call (key : Int) (call : Call)
  | update
deriving Repr, DecidableEq

/-- What one process does. -/
def callsOf (key : Int) (actions : List Action) : List Call :=
  actions.filterMap fun
    | .call other call => if other = key then some call else none
    | .update => none

/-- The visits of one process. -/
def historyOf (key : Int) (actions : List Action) : History :=
  Transition.run History.next History.empty (callsOf key actions)

/-- A producer's call that keeps `enter` and `exit` strictly alternating, with
nondecreasing times. Only the sampler dumps. -/
structure History.Behaves (history : History) (call : Call) : Prop where
  producer : call ≠ .dump
  alternates : history.Alternates call
  nondecreasing : history.Nondecreasing call

instance (history : History) (call : Call) : Decidable (history.Behaves call) :=
  decidable_of_iff (call ≠ .dump ∧ history.Alternates call ∧ history.Nondecreasing call)
    ⟨fun ⟨producer, alternates, ordered⟩ => ⟨producer, alternates, ordered⟩,
      fun ⟨producer, alternates, ordered⟩ => ⟨producer, alternates, ordered⟩⟩

namespace ApplicationSampler

/-- The log of one process after a call. -/
def setLog {State : Type} (sampler : ApplicationSampler State) (key : Int) (log : RecordLog) :
    ApplicationSampler State :=
  let process := { sampler.processMap key with recordLog := log }
  { sampler with processMap := Function.update sampler.processMap key process }

end ApplicationSampler

namespace Monitor

variable {State : Type}

/-- No call has been made, no filter is set. -/
def initial (keys : List Int) (timeZero : Int → Time) : Monitor State where
  sampler := {
    keys
    processMap := fun key => ⟨none, ValidateRecord.new, RecordLog.initial key (timeZero key)⟩
    recordBuffer := []
    shortRegionBuffer := [] }
  regionInfo := fun _ _ => none

/-- A call of a process. An exception that it throws ends the run. -/
def call (monitor : Monitor State) (key : Int) (call : Call) :
    Except MonitorError (Monitor State) :=
  let outcome := (monitor.sampler.processMap key).recordLog.call call
  match outcome.thrown with
  | some reason => .error (.log reason)
  | none => .ok { monitor with sampler := monitor.sampler.setLog key outcome.log }

/-- `ApplicationSampler::update`. -/
def sample (monitor : Monitor State) : Except MonitorError (Monitor State) :=
  match monitor.sampler.update with
  | .error reason => .error (.valid reason)
  | .ok sampler => .ok { monitor with sampler }

/-- `ProcessRegionAggregator::update`. -/
def aggregate (monitor : Monitor State) : Except MonitorError (Monitor State) :=
  match monitor.regionInfo.update monitor.sampler.recordBuffer
      monitor.sampler.shortRegionBuffer with
  | .error reason => .error (.aggregator reason)
  | .ok regionInfo => .ok { monitor with regionInfo }

def step (monitor : Monitor State) : Action → Except MonitorError (Monitor State)
  | .call key call => monitor.call key call
  | .update => monitor.sample.bind aggregate

def run (monitor : Monitor State) (actions : List Action) : Except MonitorError (Monitor State) :=
  actions.foldlM step monitor

end Monitor

namespace Process

variable {State : Type} {process : Process State} {key : Int} {history : History} {event : Call}

/-- A process without a filter, whose log follows its producer. -/
structure Follows (process : Process State) (key : Int) (history : History) : Prop where
  unfiltered : process.filter = none
  followed : process.recordLog.Followed history
  named : process.recordLog.process = key

theorem Follows.dumpable (follows : process.Follows key history) : process.Dumpable key where
  unfiltered := follows.unfiltered
  wellFormed := follows.followed.sound.wellFormed
  named record member := (follows.followed.bracketed.processes record member).trans follows.named

/-- A call of the producer that does not find the log full. -/
theorem Follows.call (follows : process.Follows key history) (behaves : history.Behaves event)
    (space : process.recordLog.NoOverflow event) :
    ∃ log, process.recordLog.call event = ⟨log, none⟩ ∧
      LogView.Step process.recordLog.view event log.view ∧
      ({ process with recordLog := log } : Process State).Follows key (history.next event) := by
  obtain ⟨unfiltered, followed, named⟩ := follows
  obtain ⟨log, done, step, after⟩ := followed.step space behaves.alternates
  exact ⟨log, done, step, unfiltered, after, step.process.trans named⟩

theorem Follows.dumped (follows : process.Follows key history) (valid : ValidateRecord) :
    (process.dumped valid).Follows key history := by
  obtain ⟨unfiltered, followed, named⟩ := follows
  have space : process.recordLog.NoOverflow .dump := by
    simp [RecordLog.NoOverflow, RecordLog.call]
  obtain ⟨log, done, _, after⟩ := followed.step space trivial
  obtain rfl : process.recordLog.cleared = log := congrArg Outcome.log done
  exact ⟨unfiltered, after, named⟩

end Process

/-- A property of a process and its account that lasts over the calls of the
producer that are permitted, and over the updates that succeed. -/
structure Lasting {State : Type} (permit : Int → History → Call → Prop)
    (holds : Int → Process State → Account → History → Prop) : Prop where
  behaves : ∀ {key history event}, permit key history event → history.Behaves event
  call : ∀ {key process account history event log}, process.Follows key history →
    permit key history event → LogView.Step process.recordLog.view event log.view →
    holds key process account history →
    holds key { process with recordLog := log } account (history.next event)
  update : ∀ {key process account history valid final}, process.Follows key history →
    process.valid.checkAll process.recordLog.view.records = .ok valid →
    account.postAll process.recordLog.view.regions process.recordLog.view.records = .ok final →
    holds key process account history → holds key (process.dumped valid) final history

/-- Where the property holds, an update succeeds. -/
def Ready {State : Type} (holds : Int → Process State → Account → History → Prop) : Prop :=
  ∀ key process account history, holds key process account history →
    (∃ valid, process.valid.checkAll process.recordLog.view.records = .ok valid) ∧
    ∃ final, account.postAll process.recordLog.view.regions process.recordLog.view.records =
      .ok final

namespace ApplicationSampler

variable {State : Type} {sampler after : ApplicationSampler State} {histories : Int → History}

/-- Every process of the sampler follows its producer. -/
structure Follows (sampler : ApplicationSampler State) (histories : Int → History) : Prop where
  distinct : sampler.keys.Nodup
  each : ∀ key ∈ sampler.keys, (sampler.processMap key).Follows key (histories key)

/-- `update` without a failed check: each log is dumped, and the buffers hold
what would be posted from each log. -/
theorem Follows.update (follows : sampler.Follows histories) (updated : sampler.update = .ok after) :
    after.keys = sampler.keys ∧ after.Follows histories ∧
      (∀ key ∈ sampler.keys, ∃ valid, (sampler.processMap key).valid.checkAll
          (sampler.processMap key).recordLog.view.records = .ok valid ∧
        after.processMap key = (sampler.processMap key).dumped valid) ∧
      ∀ regions : RegionMap, regions.update after.recordBuffer after.shortRegionBuffer =
        settle sampler.processMap sampler.keys regions := by
  have collected : Collected { sampler with recordBuffer := [], shortRegionBuffer := [] } after
      sampler.keys := collected_of_loop follows.distinct
    (fun key member => (follows.each key member).dumpable) updated
  obtain ⟨records, shortRegions, recordBuffer, shortRegionBuffer, posted⟩ := collected.posted
  refine ⟨collected.keys_eq, ⟨collected.keys_eq ▸ follows.distinct, fun key member => ?_⟩,
    collected.dumped, fun regions => ?_⟩
  · rw [collected.keys_eq] at member
    obtain ⟨valid, _, dumped⟩ := collected.dumped key member
    rw [dumped]
    exact (follows.each key member).dumped valid
  · rw [recordBuffer, List.nil_append]
    exact posted after.shortRegionBuffer List.prefix_rfl regions

theorem Follows.update_exists (follows : sampler.Follows histories)
    (accepted : ∀ key ∈ sampler.keys, ∃ valid, (sampler.processMap key).valid.checkAll
      (sampler.processMap key).recordLog.view.records = .ok valid) :
    ∃ after, sampler.update = .ok after :=
  loop_of_valid follows.distinct (fun key member => (follows.each key member).dumpable) accepted

/-- What holds of every process holds after a call of one, if it does of that one. -/
theorem forall_setLog (property : Int → Process State → History → Prop) {key : Int}
    {history : History} {log : RecordLog}
    (each : ∀ other ∈ sampler.keys, property other (sampler.processMap other) (histories other))
    (next : property key { sampler.processMap key with recordLog := log } history) :
    ∀ other ∈ sampler.keys, property other ((sampler.setLog key log).processMap other)
      (Function.update histories key history other) := by
  intro other member
  by_cases same : other = key
  · subst same
    simpa [setLog] using next
  · simpa [setLog, same] using each other member

end ApplicationSampler

theorem callsOf_append (key : Int) (left right : List Action) :
    callsOf key (left ++ right) = callsOf key left ++ callsOf key right :=
  List.filterMap_append

theorem mem_callsOf {key : Int} {event : Call} {actions : List Action}
    (member : event ∈ callsOf key actions) : .call key event ∈ actions := by
  obtain ⟨action, present, same⟩ := List.mem_filterMap.mp member
  cases action with
  | update => simp at same
  | call other called =>
      simp only [Option.ite_none_right_eq_some, Option.some.injEq] at same
      obtain ⟨rfl, rfl⟩ := same
      exact present

/-- The visits of each process after more actions. -/
def historiesAfter (histories : Int → History) (actions : List Action) (key : Int) : History :=
  Transition.run History.next (histories key) (callsOf key actions)

section

variable {histories : Int → History} {permit : Int → History → Call → Prop} {keys : List Int}
  {actions left right : List Action} {key : Int} {event : Call}

theorem historiesAfter_call : historiesAfter histories (.call key event :: actions) =
    historiesAfter (Function.update histories key ((histories key).next event)) actions := by
  funext other
  by_cases same : other = key
  · subst same
    simp [historiesAfter, callsOf]
  · have apart : key ≠ other := fun reversed => same reversed.symm
    simp [historiesAfter, callsOf, same, apart]

/-- Only processes of the sampler make calls, and each makes permitted calls. -/
structure Allowed (keys : List Int) (permit : Int → History → Call → Prop)
    (histories : Int → History) (actions : List Action) : Prop where
  known : ∀ key event, .call key event ∈ actions → key ∈ keys
  permitted : ∀ key, Transition.Permitted History.next (permit key) (histories key)
    (callsOf key actions)

theorem Allowed.append : Allowed keys permit histories (left ++ right) ↔
    Allowed keys permit histories left ∧
      Allowed keys permit (historiesAfter histories left) right := by
  constructor
  · intro ⟨known, permitted⟩
    have split := fun key => Transition.permitted_append.mp
      (callsOf_append key left right ▸ permitted key)
    exact ⟨⟨fun key event member => known key event (List.mem_append_left _ member),
        fun key => (split key).1⟩,
      fun key event member => known key event (List.mem_append_right _ member),
      fun key => (split key).2⟩
  · intro ⟨⟨knownLeft, permittedLeft⟩, knownRight, permittedRight⟩
    refine ⟨fun key event member => ?_, fun key => ?_⟩
    · rcases List.mem_append.mp member with old | new
      · exact knownLeft key event old
      · exact knownRight key event new
    · rw [callsOf_append, Transition.permitted_append]
      exact ⟨permittedLeft key, permittedRight key⟩

theorem Allowed.call (allowed : Allowed keys permit histories (.call key event :: actions)) :
    key ∈ keys ∧ permit key (histories key) event ∧
      Allowed keys permit (Function.update histories key ((histories key).next event)) actions := by
  obtain ⟨known, permitted⟩ := allowed
  have own := permitted key
  simp only [callsOf, List.filterMap_cons, if_true, Transition.Permitted] at own
  refine ⟨known key event (by simp), own.1, fun other event member =>
    known other event (List.mem_cons_of_mem _ member), fun other => ?_⟩
  by_cases same : other = key
  · subst same
    simpa [callsOf] using own.2
  · have apart : key ≠ other := fun reversed => same reversed.symm
    simpa [callsOf, same, apart] using permitted other

theorem Allowed.update (allowed : Allowed keys permit histories (.update :: actions)) :
    Allowed keys permit histories actions :=
  ⟨fun key event member => allowed.known key event (List.mem_cons_of_mem _ member),
    allowed.permitted⟩

theorem Allowed.and {property : Int → Call → Prop} (allowed : Allowed keys permit histories actions)
    (each : ∀ key, ∀ event ∈ callsOf key actions, property key event) :
    Allowed keys (fun key history event => permit key history event ∧ property key event) histories
      actions :=
  ⟨allowed.known, fun key => Transition.permitted_and (allowed.permitted key) (each key)⟩

/-- It is enough to look at the processes of the sampler. -/
theorem Allowed.of_keys
    (known : ∀ action ∈ actions, ∀ key event, action = .call key event → key ∈ keys)
    (permitted : ∀ key ∈ keys, Transition.Permitted History.next (permit key) (histories key)
      (callsOf key actions)) : Allowed keys permit histories actions where
  known key event member := known _ member key event rfl
  permitted key := by
    by_cases member : key ∈ keys
    · exact permitted key member
    · have silent : callsOf key actions = [] := by
        apply List.filterMap_eq_nil_iff.mpr
        intro action present
        cases action with
        | update => rfl
        | call other event =>
            have different : other ≠ key := fun same =>
              member (same ▸ known _ present other event rfl)
            simp [different]
      rw [silent]
      trivial

end

namespace Monitor

variable {State : Type} {monitor next : Monitor State} {histories : Int → History}
  {permit : Int → History → Call → Prop}
  {holds : Int → Process State → Account → History → Prop} {actions : List Action} {key : Int}
  {event : Call}

/-- Every process follows its producer, and has the property. -/
structure Holds (monitor : Monitor State) (histories : Int → History)
    (holds : Int → Process State → Account → History → Prop) : Prop where
  follows : monitor.sampler.Follows histories
  each : ∀ key ∈ monitor.sampler.keys,
    holds key (monitor.sampler.processMap key) (monitor.regionInfo key) (histories key)

/-- Every process has an empty log. -/
def Drained (monitor : Monitor State) : Prop :=
  ∀ key ∈ monitor.sampler.keys, (monitor.sampler.processMap key).recordLog.view.records = []

theorem run_cons (action : Action) :
    monitor.run (action :: actions) = (monitor.step action).bind (·.run actions) := by
  simp only [run, List.foldlM_cons]
  rfl

theorem run_append (left right : List Action) :
    monitor.run (left ++ right) = (monitor.run left).bind (·.run right) :=
  List.foldlM_append

theorem run_update : monitor.run [.update] = monitor.step .update := by
  rw [run_cons]
  cases monitor.step .update <;> rfl

/-- A call is kept in the log of its process, or finds the log full. -/
theorem Holds.call (lasting : Lasting permit holds) (held : monitor.Holds histories holds)
    (known : key ∈ monitor.sampler.keys) (permitted : permit key (histories key) event) :
    (∃ next, monitor.call key event = .ok next ∧ next.sampler.keys = monitor.sampler.keys ∧
      next.Holds (Function.update histories key ((histories key).next event)) holds) ∨
    monitor.call key event = .error (.log .maximumRecords) := by
  by_cases full : (monitor.sampler.processMap key).recordLog.NoOverflow event
  · left
    have follows := held.follows.each key known
    obtain ⟨log, done, step, after⟩ := follows.call (lasting.behaves permitted) full
    refine ⟨{ monitor with sampler := monitor.sampler.setLog key log },
      by simp only [Monitor.call, done], rfl, ⟨held.follows.distinct, ?_⟩, ?_⟩
    · exact ApplicationSampler.forall_setLog
        (fun other process history => process.Follows other history) held.follows.each after
    · exact ApplicationSampler.forall_setLog
        (fun other process history => holds other process (monitor.regionInfo other) history)
        held.each (lasting.call follows permitted step (held.each key known))
  · right
    simp only [RecordLog.NoOverflow, not_not] at full
    simp only [Monitor.call, full]

theorem sample_regionInfo (sampled : monitor.sample = .ok next) :
    next.regionInfo = monitor.regionInfo := by
  unfold Monitor.sample at sampled
  split at sampled
  · simp at sampled
  · obtain rfl := Except.ok.inj sampled
    rfl

/-- The sampler empties the logs. Its buffers hold what they held. -/
theorem Holds.sample (held : monitor.Holds histories holds) (sampled : monitor.sample = .ok next) :
    next.sampler.keys = monitor.sampler.keys ∧ next.sampler.Follows histories ∧
      (∀ key ∈ monitor.sampler.keys, ∃ valid, (monitor.sampler.processMap key).valid.checkAll
          (monitor.sampler.processMap key).recordLog.view.records = .ok valid ∧
        next.sampler.processMap key = (monitor.sampler.processMap key).dumped valid) ∧
      ∀ regions : RegionMap,
        regions.update next.sampler.recordBuffer next.sampler.shortRegionBuffer =
          ApplicationSampler.settle monitor.sampler.processMap monitor.sampler.keys regions := by
  unfold Monitor.sample at sampled
  cases updated : monitor.sampler.update with
  | error reason => simp [updated] at sampled
  | ok sampler =>
      simp only [updated, Except.ok.injEq] at sampled
      subst sampled
      obtain ⟨sameKeys, follows, dumped, posted⟩ := held.follows.update updated
      exact ⟨sameKeys, follows, dumped, posted⟩

/-- An update that succeeds empties the logs. -/
theorem Holds.update (lasting : Lasting permit holds) (held : monitor.Holds histories holds)
    (updated : monitor.step .update = .ok next) :
    next.sampler.keys = monitor.sampler.keys ∧ next.Holds histories holds ∧ next.Drained := by
  obtain ⟨middle, sampled, aggregated⟩ := Transition.ok_of_bind updated
  obtain ⟨sameKeys, follows, dumped, posted⟩ := held.sample sampled
  simp only [aggregate, posted, sample_regionInfo sampled] at aggregated
  cases settled : ApplicationSampler.settle monitor.sampler.processMap monitor.sampler.keys
      monitor.regionInfo with
  | error reason => simp [settled] at aggregated
  | ok regionInfo =>
      simp only [settled, Except.ok.injEq] at aggregated
      subst aggregated
      obtain ⟨each, _⟩ := ApplicationSampler.settle_posted held.follows.distinct settled
      refine ⟨sameKeys, ⟨follows, fun key member => ?_⟩, fun key member => ?_⟩
      · have known : key ∈ monitor.sampler.keys := sameKeys ▸ member
        obtain ⟨valid, checked, same⟩ := dumped key known
        simp only [same]
        exact lasting.update (held.follows.each key known) checked (each key known)
          (held.each key known)
      · obtain ⟨valid, _, same⟩ := dumped key (sameKeys ▸ member)
        simp only [same]
        rfl

theorem Holds.sample_exists (ready : Ready holds) (held : monitor.Holds histories holds) :
    ∃ next, monitor.sample = .ok next := by
  obtain ⟨sampler, sampled⟩ := held.follows.update_exists fun key known =>
    (ready _ _ _ _ (held.each key known)).1
  exact ⟨{ monitor with sampler }, by simp only [Monitor.sample, sampled]⟩

theorem Holds.update_exists (ready : Ready holds) (held : monitor.Holds histories holds) :
    ∃ next, monitor.step .update = .ok next := by
  obtain ⟨middle, sampled⟩ := held.sample_exists ready
  obtain ⟨_, _, _, posted⟩ := held.sample sampled
  obtain ⟨regionInfo, settled⟩ := ApplicationSampler.settle_exists held.follows.distinct
    fun key known => (ready _ _ _ _ (held.each key known)).2
  exact ⟨{ middle with regionInfo }, by simp only [step, sampled, Except.bind, aggregate, posted,
    sample_regionInfo sampled, settled]⟩

/-- A property that lasts holds after every run that does not fail. -/
theorem Holds.run (lasting : Lasting permit holds) (held : monitor.Holds histories holds)
    (allowed : Allowed monitor.sampler.keys permit histories actions)
    (ran : monitor.run actions = .ok next) :
    next.sampler.keys = monitor.sampler.keys ∧
      next.Holds (historiesAfter histories actions) holds := by
  induction actions generalizing monitor histories with
  | nil =>
      obtain rfl := Except.ok.inj ran
      exact ⟨rfl, held⟩
  | cons action rest ih =>
      rw [run_cons] at ran
      obtain ⟨middle, stepped, later⟩ := Transition.ok_of_bind ran
      cases action with
      | call key event =>
          obtain ⟨known, permitted, others⟩ := allowed.call
          rw [historiesAfter_call]
          obtain ⟨reached, called, keys, after⟩ | full := held.call lasting known permitted
          · obtain rfl := Except.ok.inj (called.symm.trans stepped)
            rw [← keys] at others ⊢
            exact ih after others later
          · exact absurd (full.symm.trans stepped) (by simp)
      | update =>
          obtain ⟨keys, after, _⟩ := held.update lasting stepped
          have others := allowed.update
          rw [← keys] at others ⊢
          exact ih after others later

/-- Where the property makes updates succeed, a run ends early only at a full log. -/
theorem Holds.run_exists (lasting : Lasting permit holds) (ready : Ready holds)
    (held : monitor.Holds histories holds)
    (allowed : Allowed monitor.sampler.keys permit histories actions) :
    (∃ next, monitor.run actions = .ok next) ∨
      monitor.run actions = .error (.log .maximumRecords) := by
  induction actions generalizing monitor histories with
  | nil => exact .inl ⟨monitor, rfl⟩
  | cons action rest ih =>
      rw [run_cons]
      cases action with
      | call key event =>
          obtain ⟨known, permitted, later⟩ := allowed.call
          obtain ⟨middle, called, keys, after⟩ | full := held.call lasting known permitted
          · rw [show monitor.step (.call key event) = .ok middle from called]
            exact ih after (keys ▸ later)
          · right
            rw [show monitor.step (.call key event) = .error _ from full]
            rfl
      | update =>
          obtain ⟨middle, updated⟩ := held.update_exists ready
          obtain ⟨keys, after, _⟩ := held.update lasting updated
          rw [updated]
          exact ih after (keys ▸ allowed.update)

end Monitor

end Geopm
