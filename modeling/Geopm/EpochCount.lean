import Geopm.EpochIOGroup

namespace Geopm

/-! The epochs of the processes, from their logs through the sampler to the signals of `EpochIOGroup`. -/

namespace EpochCount

open EpochIOGroup (countsOf countOn)
open RecordLog (Call)

inductive EpochError where
  | log (reason : LogError)
  | valid (reason : ValidateError)
  | signal (reason : EpochSignalError)
deriving Repr, DecidableEq

/-- The sampler with the logs of its processes, and the group that reads what the sampler holds. -/
structure EpochMonitor (State : Type) where
  sampler : ApplicationSampler State
  group : EpochIOGroup
  /-- `per_cpu_process` -/
  perCpuProcess : List Int

inductive Action where
  | enter (key : Int) (hash : Nat) (time : Time)
  | exit (key : Int) (hash : Nat) (time : Time)
  | epoch (key : Int) (time : Time)
  | push (signalName : String) (domainType : Domain) (domainIdx : Int)
  | update
  | readBatch
deriving Repr, DecidableEq

namespace EpochMonitor

variable {State : Type}

/-- What `connect` makes: a log for each process that has a CPU. -/
def initial (perCpuProcess : List Int) (timeZero : Int → Time) : EpochMonitor State where
  sampler := {
    keys := ((perCpuProcess.filter (· ≠ -1)).dedup).insertionSort (· ≤ ·)
    processMap := fun key => ⟨none, ValidateRecord.new, RecordLog.initial key (timeZero key)⟩
    recordBuffer := []
    shortRegionBuffer := [] }
  group := .new perCpuProcess.length
  perCpuProcess

/-- A call of a process. An exception that it throws ends the run. -/
def call (monitor : EpochMonitor State) (key : Int) (call : Call) : Except EpochError (EpochMonitor State) :=
  let process := monitor.sampler.processMap key
  let outcome := process.recordLog.call call
  match outcome.thrown with
  | some reason => .error (.log reason)
  | none => .ok { monitor with
      sampler := { monitor.sampler with
        processMap := Function.update monitor.sampler.processMap key { process with recordLog := outcome.log } } }

def step (monitor : EpochMonitor State) : Action → Except EpochError (EpochMonitor State)
  | .enter key hash time => monitor.call key (.enter hash time)
  | .exit key hash time => monitor.call key (.exit hash time)
  | .epoch key time => monitor.call key (.epoch time)
  | .push signalName domainType domainIdx =>
      match monitor.group.pushSignal signalName domainType domainIdx with
      | .error reason => .error (.signal reason)
      | .ok (_, group) => .ok { monitor with group }
  | .update =>
      match monitor.sampler.update with
      | .error reason => .error (.valid reason)
      | .ok sampler => .ok { monitor with sampler }
  | .readBatch =>
      match monitor.group.readBatch monitor.perCpuProcess monitor.sampler.recordBuffer with
      | .error reason => .error (.signal reason)
      | .ok group => .ok { monitor with group }

def run (monitor : EpochMonitor State) (actions : List Action) : Except EpochError (EpochMonitor State) :=
  actions.foldlM step monitor

end EpochMonitor

/-- The epochs of one process: how many there were, the count of the last one that is in the log, that of the last one
in the buffer of the sampler, and the count that is shown. -/
structure Epochs where
  called : Nat
  logged : Option Nat
  buffered : Option Nat
  shown : Nat
deriving Repr, DecidableEq

namespace Epochs

def none : Epochs := ⟨0, .none, .none, 0⟩

/-- An update takes what is in the log, also nothing. What is shown stays while there is no epoch in the buffer. -/
def next (key : Int) (epochs : Epochs) : Action → Epochs
  | .epoch other _ =>
      if other = key then { epochs with called := epochs.called + 1, logged := some (epochs.called + 1) } else epochs
  | .update => { epochs with logged := .none, buffered := epochs.logged }
  | .readBatch => { epochs with shown := epochs.buffered.getD epochs.shown }
  | _ => epochs

/-- The epochs of a process after the actions. -/
def after (key : Int) (actions : List Action) : Epochs := Transition.run (next key) none actions

end Epochs

namespace Epochs

variable {key : Int} {epochs : Epochs} {calls : List Action}

/-- How often a process has called `epoch`. -/
def count (key : Int) (actions : List Action) : Nat :=
  actions.countP fun
    | .epoch other _ => other = key
    | _ => false

/-- A call of a process. -/
def IsCall : Action → Prop
  | .enter _ _ _ => True
  | .exit _ _ _ => True
  | .epoch _ _ => True
  | _ => False

theorem run_calls (only : ∀ action ∈ calls, IsCall action) :
    Transition.run (next key) epochs calls = { epochs with
      called := epochs.called + count key calls
      logged := if count key calls = 0 then epochs.logged else some (epochs.called + count key calls) } := by
  induction calls generalizing epochs with
  | nil => simp [count]
  | cons action rest ih =>
      rw [List.forall_mem_cons] at only
      rw [Transition.run_cons, ih only.2]
      cases action with
      | enter other hash time => simp [count, next]
      | exit other hash time => simp [count, next]
      | epoch other time =>
          by_cases same : other = key
          · have more : count key (.epoch other time :: rest) = count key rest + 1 := by simp [count, same]
            simp only [next, if_pos same, more]
            by_cases last : count key rest = 0
            · simp [last]
            · simp [last, Nat.add_assoc, Nat.add_comm 1]
          · have others : count key (.epoch other time :: rest) = count key rest := by simp [count, same]
            simp only [next, if_neg same, others]
      | push signalName domainType domainIdx => exact only.1.elim
      | update => exact only.1.elim
      | readBatch => exact only.1.elim

/-- One step of the controller after the calls of the processes. -/
theorem run_stretch (only : ∀ action ∈ calls, IsCall action) (dumped : epochs.logged = .none) :
    let next := Transition.run (next key) epochs (calls ++ [.update, .readBatch])
    next.called = epochs.called + count key calls ∧ next.logged = .none ∧
      next.shown = if count key calls = 0 then epochs.shown else epochs.called + count key calls := by
  intro after
  have same : after = Transition.run (next key) _ [.update, .readBatch] :=
    Transition.run_append.trans (by rw [run_calls only])
  rw [same]
  refine ⟨rfl, rfl, ?_⟩
  by_cases quiet : count key calls = 0
  · simp [next, quiet, dumped]
  · simp [next, quiet]

theorem run_stretches {windows : List (List Action)} (only : ∀ calls ∈ windows, ∀ action ∈ calls, IsCall action)
    (dumped : epochs.logged = .none) :
    (Transition.run (next key) epochs (windows.flatMap (· ++ [.update, .readBatch]))).shown =
      if count key windows.flatten = 0 then epochs.shown else epochs.called + count key windows.flatten := by
  induction windows generalizing epochs with
  | nil => simp [count]
  | cons calls rest ih =>
      rw [List.forall_mem_cons] at only
      obtain ⟨called, logged, shown⟩ := @run_stretch key _ _ only.1 dumped
      have total : count key (calls :: rest).flatten = count key calls + count key rest.flatten := List.countP_append
      rw [List.flatMap_cons, Transition.run_append, ih only.2 logged, shown, called, total]
      by_cases quiet : count key rest.flatten = 0
      · simp [quiet]
      · simp [quiet, Nat.add_assoc]

/-- In the order of `Controller::run` every epoch is counted, once there is one after the update before the loop. -/
theorem shown_controller {before : List Action} {windows : List (List Action)} (first : ∀ action ∈ before, IsCall action)
    (only : ∀ calls ∈ windows, ∀ action ∈ calls, IsCall action) :
    (after key (before ++ .update :: windows.flatMap (· ++ [.update, .readBatch]))).shown =
      if count key windows.flatten = 0 then 0 else count key before + count key windows.flatten := by
  rw [after, Transition.run_append, run_calls first, Transition.run_cons, run_stretches only rfl]
  simp [next, none]

end Epochs

section

variable {State : Type} {key other : Int} {records : List Record} {record : Record} {index : Nat}

theorem countsOf_concat (plain : record.event ≠ .epochCount) :
    countsOf key (records ++ [record]) = countsOf key records := by
  rw [EpochIOGroup.countsOf_append]
  simp [countsOf, plain]

/-- An entry that is converted is no epoch. -/
theorem countsOf_modify (handle : Nat) (found : records[index]? = some record) (plain : record.event ≠ .epochCount) :
    countsOf key (records.modify index (Record.toShort handle)) = countsOf key records := by
  conv_rhs => rw [Table.split_of_getElem? found]
  rw [Table.modify_of_getElem? found, EpochIOGroup.countsOf_append, EpochIOGroup.countsOf_append]
  simp [countsOf, Record.toShort, plain]

theorem countsOf_shift (offset : Nat) : countsOf key (records.map (Record.shift offset)) = countsOf key records := by
  rw [countsOf, countsOf, List.filterMap_map]
  congr 1
  funext record
  by_cases short : record.event = .shortRegion
  · simp [Record.shift, short]
  · simp [Record.shift, short]

theorem countsOf_other (named : ∀ record ∈ records, record.process = other) (apart : key ≠ other) :
    countsOf key records = [] := by
  rw [countsOf, List.filterMap_eq_nil_iff]
  intro record member
  rw [named record member, if_neg fun epoch => apart epoch.2.symm]

/-- What the loop of `update` leaves in the buffer of each process. -/
theorem countsOf_loop {keys : List Int} {before after : ApplicationSampler State} (distinct : keys.Nodup)
    (dumpable : ∀ key ∈ keys, (before.processMap key).Dumpable key)
    (updated : keys.foldlM ApplicationSampler.updateProcess before = .ok after) (key : Int) :
    countsOf key after.recordBuffer = countsOf key before.recordBuffer ++
      if key ∈ keys then countsOf key (before.processMap key).recordLog.view.records else [] := by
  induction keys generalizing before with
  | nil =>
      cases updated
      simp
  | cons first rest ih =>
      rw [List.foldlM_cons] at updated
      obtain ⟨middle, done, updated⟩ := Transition.ok_of_bind updated
      have fresh := (List.nodup_cons.mp distinct).1
      have here := dumpable first List.mem_cons_self
      have unchanged : ∀ other ∈ rest, middle.processMap other = before.processMap other :=
        fun other member => ApplicationSampler.updateProcess_other here done fun same => fresh (same ▸ member)
      have later := ih (List.nodup_cons.mp distinct).2
        (fun other member => (unchanged other member).symm ▸ dumpable other (List.mem_cons_of_mem _ member)) updated
      obtain ⟨valid, checked, buffer⟩ := ApplicationSampler.updateProcess_ok here done
      rw [later, buffer, EpochIOGroup.countsOf_append, countsOf_shift]
      by_cases same : key = first
      · subst same
        simp [fresh]
      · rw [countsOf_other here.named same, List.append_nil]
        by_cases member : key ∈ rest
        · rw [← buffer, unchanged key member]
          simp [member]
        · simp [member, same]

end

/-- The log of a process holds its records, and the epochs that have not been dumped. -/
structure Logged {State : Type} (process : Process State) (key : Int) (epochs : Epochs) : Prop where
  unfiltered : process.filter = none
  sound : process.recordLog.Sound
  owner : process.recordLog.process = key
  named : ∀ record ∈ process.recordLog.view.records, record.process = key
  called : process.recordLog.epochCount = epochs.called
  logged : (countsOf key process.recordLog.view.records).getLast? = epochs.logged

/-- What is done with a group keeps the signals that were pushed. -/
structure Keeps (before after : EpochIOGroup) : Prop where
  mapped : ∀ cpu index, before.cpuSignalMap cpu = some index → after.cpuSignalMap cpu = some index
  read : before.isBatchRead = true → after.isBatchRead = true

/-- The group shows the counts, or has not been initialized. -/
def Displays (group : EpochIOGroup) (perCpuProcess : List Int) (shown : Int → Nat) : Prop :=
  if group.isInitialized then group.Shows perCpuProcess shown
  else group.Shows [] (fun _ => 0) ∧ shown = fun _ => 0

/-- Every process, the buffer and the group are where the epochs say. -/
structure Follows {State : Type} (monitor : EpochMonitor State) (epochs : Int → Epochs) : Prop where
  distinct : monitor.sampler.keys.Nodup
  keys : ∀ key, key ∈ monitor.sampler.keys ↔ key ≠ -1 ∧ key ∈ monitor.perCpuProcess
  logged : ∀ key ∈ monitor.sampler.keys, Logged (monitor.sampler.processMap key) key (epochs key)
  buffered : ∀ key ∈ monitor.sampler.keys, (countsOf key monitor.sampler.recordBuffer).getLast? = (epochs key).buffered
  displays : Displays monitor.group monitor.perCpuProcess fun key => (epochs key).shown
  numCpu : monitor.group.numCpu = monitor.perCpuProcess.length
  placed : ∀ cpu index, monitor.group.cpuSignalMap cpu = some index → monitor.group.activeSignal[index]? = some cpu
  read : monitor.group.isBatchRead = true → monitor.group.isInitialized = true

section

variable {State : Type} {process : Process State} {key : Int} {epochs : Epochs} {log : RecordLog} {hash : Nat}
  {time : Time} {view next : LogView} {call : Call}

theorem processes_concat {record : Record} (processes : ∀ record ∈ view.records, record.process = view.process)
    (same : record.process = view.process) : ∀ other ∈ view.records ++ [record], other.process = view.process :=
  List.forall_mem_append.mpr ⟨processes, List.forall_mem_singleton.mpr same⟩

theorem processes_step (step : LogView.Step view call next)
    (processes : ∀ record ∈ view.records, record.process = view.process) :
    ∀ record ∈ next.records, record.process = next.process := by
  rw [step.process]
  cases step with
  | enterNew unknown => exact processes_concat processes rfl
  | enterKnown known => simpa using processes
  | exitUnlogged unknown => exact processes_concat processes rfl
  | exitEntered known recorded => exact Table.forall_mem_modify processes fun record same => same
  | exitCarried known => exact processes_concat processes rfl
  | exitShort known counted => simpa using processes
  | epoch => exact processes_concat processes rfl
  | dump => exact fun _ member => nomatch member

/-- A call other than `epoch` and `dump` leaves the epochs. -/
theorem countsOf_step (step : LogView.Step view call next) (formed : view.WellFormed) (notEpoch : ∀ time, call ≠ .epoch time)
    (notDump : call ≠ .dump) :
    next.epochCount = view.epochCount ∧ countsOf key next.records = countsOf key view.records := by
  cases step with
  | enterNew unknown => exact ⟨by simp, countsOf_concat (by simp [LogView.record])⟩
  | enterKnown known => exact ⟨by simp, by simp⟩
  | exitUnlogged unknown => exact ⟨by simp, countsOf_concat (by simp [LogView.record])⟩
  | exitEntered known recorded =>
      refine ⟨by simp, ?_⟩
      cases formed.placed _ _ known with
      | entered time found => exact countsOf_modify _ found (by simp)
  | exitCarried known => exact ⟨by simp, countsOf_concat (by simp [LogView.record, Record.toShort])⟩
  | exitShort known counted => exact ⟨by simp, by simp⟩
  | epoch => exact absurd rfl (notEpoch _)
  | dump => exact absurd rfl notDump

/-- A call that does not throw. -/
theorem Logged.steps {outcome : Outcome} (logged : Logged process key epochs) (outcome_eq : process.recordLog.call call = outcome)
    (done : outcome.thrown = none) :
    LogView.Step process.recordLog.view call outcome.log.view ∧ outcome.log.Sound ∧ outcome.log.process = key ∧
      ∀ record ∈ outcome.log.view.records, record.process = key := by
  have result := outcome_eq ▸ logged.sound.call_result call
  cases result with
  | unset failed named => cases done
  | full full overflow => cases done
  | done step sound =>
      have owner := (show _ = process.recordLog.process from step.process).trans logged.owner
      refine ⟨step, sound, owner, ?_⟩
      have processes := processes_step step fun record member => (logged.named record member).trans logged.owner.symm
      exact fun record member => (processes record member).trans owner

theorem Logged.plain {outcome : Outcome} (logged : Logged process key epochs) (outcome_eq : process.recordLog.call call = outcome)
    (done : outcome.thrown = none) (notEpoch : ∀ time, call ≠ .epoch time) (notDump : call ≠ .dump) :
    Logged { process with recordLog := outcome.log } key epochs := by
  obtain ⟨step, sound, owner, named⟩ := logged.steps outcome_eq done
  have kept := @countsOf_step key _ _ _ step logged.sound.wellFormed notEpoch notDump
  exact ⟨logged.unfiltered, sound, owner, named, kept.1.trans logged.called, by rw [← logged.logged, ← kept.2]⟩

theorem Logged.epoch {outcome : Outcome} (logged : Logged process key epochs)
    (outcome_eq : process.recordLog.call (.epoch time) = outcome) (done : outcome.thrown = none) :
    Logged { process with recordLog := outcome.log } key (epochs.next key (.epoch key time)) := by
  obtain ⟨step, sound, owner, named⟩ := logged.steps outcome_eq done
  rw [Epochs.next, if_pos rfl, ← logged.called]
  generalize same : outcome.log.view = after at step
  cases step
  have called : outcome.log.epochCount = process.recordLog.epochCount + 1 := congrArg LogView.epochCount same
  refine ⟨logged.unfiltered, sound, owner, named, called, ?_⟩
  change (countsOf key outcome.log.view.records).getLast? = _
  rw [same]
  have mine : process.recordLog.view.process = key := logged.owner
  simp [countsOf, LogView.record, mine]
  rfl

/-- An update leaves the logs empty. -/
theorem Logged.dumped (logged : Logged process key epochs) (valid : ValidateRecord) :
    Logged (process.dumped valid) key (epochs.next key .update) where
  unfiltered := logged.unfiltered
  sound := by
    have space : process.recordLog.NoOverflow .dump := by simp [RecordLog.NoOverflow, RecordLog.call]
    exact logged.sound.step space
  owner := logged.owner
  named := fun _ member => nomatch member
  called := logged.called
  logged := rfl

end

section

variable {group after : EpochIOGroup} {perCpuProcess : List Int} {shown : Int → Nat} {signalName : String}
  {domainType : Domain} {domainIdx : Int} {index : Nat} {records : List Record}

theorem Keeps.refl (group : EpochIOGroup) : Keeps group group := ⟨fun _ _ mapped => mapped, id⟩

theorem Keeps.trans {first second third : EpochIOGroup} (before : Keeps first second) (after : Keeps second third) :
    Keeps first third :=
  ⟨fun cpu index mapped => after.mapped cpu index (before.mapped cpu index mapped), after.read ∘ before.read⟩

/-- A signal that is pushed again keeps its place, a new one is the last. -/
theorem pushSignal_ok (pushed : group.pushSignal signalName domainType domainIdx = .ok (index, after)) :
    after = group ∧ group.cpuSignalMap domainIdx.toNat = some index ∨
      group.cpuSignalMap domainIdx.toNat = none ∧ index = group.activeSignal.length ∧
        after = { group with
          activeSignal := group.activeSignal ++ [domainIdx.toNat]
          cpuSignalMap := Function.update group.cpuSignalMap domainIdx.toNat (some index) } := by
  rw [EpochIOGroup.pushSignal] at pushed
  by_cases name : ¬validEpochSignal signalName = true
  · rw [if_pos name] at pushed
    cases pushed
  rw [if_neg name] at pushed
  by_cases type : domainType ≠ .cpu
  · rw [if_pos type] at pushed
    cases pushed
  rw [if_neg type] at pushed
  by_cases outside : domainIdx < 0 ∨ domainIdx ≥ group.numCpu
  · rw [if_pos outside] at pushed
    cases pushed
  rw [if_neg outside] at pushed
  by_cases read : group.isBatchRead = true
  · rw [if_pos read] at pushed
    cases pushed
  rw [if_neg read] at pushed
  cases mapped : group.cpuSignalMap domainIdx.toNat with
  | some result =>
      simp only [mapped] at pushed
      cases pushed
      exact .inl ⟨rfl, rfl⟩
  | none =>
      simp only [mapped] at pushed
      cases pushed
      exact .inr ⟨rfl, rfl, rfl⟩

theorem pushSignal_keeps (pushed : group.pushSignal signalName domainType domainIdx = .ok (index, after)) :
    Keeps group after ∧ after.cpuSignalMap domainIdx.toNat = some index := by
  obtain ⟨rfl, mapped⟩ | ⟨fresh, rfl, rfl⟩ := pushSignal_ok pushed
  · exact ⟨.refl after, mapped⟩
  · refine ⟨⟨fun cpu index old => ?_, id⟩, Function.update_self _ _ _⟩
    have other : cpu ≠ domainIdx.toNat := by
      intro same
      rw [same, fresh] at old
      cases old
    exact (Function.update_of_ne other _ _).trans old

theorem pushSignal_placed (pushed : group.pushSignal signalName domainType domainIdx = .ok (index, after))
    (placed : ∀ cpu index, group.cpuSignalMap cpu = some index → group.activeSignal[index]? = some cpu) :
    ∀ cpu index, after.cpuSignalMap cpu = some index → after.activeSignal[index]? = some cpu := by
  obtain ⟨rfl, mapped⟩ | ⟨fresh, rfl, rfl⟩ := pushSignal_ok pushed
  · exact placed
  · intro cpu index found
    change Function.update group.cpuSignalMap domainIdx.toNat _ cpu = _ at found
    by_cases same : cpu = domainIdx.toNat
    · rw [same, Function.update_self] at found
      cases found
      rw [same]
      exact List.getElem?_concat_length
    · rw [Function.update_of_ne same] at found
      have active := placed cpu index found
      exact (List.getElem?_append_left (List.getElem?_eq_some_iff.mp active).1).trans active

theorem Displays.congr (displays : Displays group perCpuProcess shown) (count : after.perCpuCount = group.perCpuCount)
    (map : after.processCpuMap = group.processCpuMap) (numCpu : after.numCpu = group.numCpu)
    (started : after.isInitialized = group.isInitialized) : Displays after perCpuProcess shown := by
  have shows : ∀ {perCpuProcess shown}, group.Shows perCpuProcess shown → after.Shows perCpuProcess shown :=
    fun shows => ⟨map ▸ shows.cpus, by rw [count, numCpu]; exact shows.counts, by rw [count, numCpu]; exact shows.length⟩
  rw [Displays] at displays ⊢
  rw [started]
  by_cases initialized : group.isInitialized = true
  · rw [if_pos initialized] at displays ⊢
    exact shows displays
  · rw [if_neg initialized] at displays ⊢
    exact ⟨shows displays.1, displays.2⟩

/-- What a read starts with. -/
theorem Displays.started (displays : Displays group perCpuProcess shown) (numCpu : group.numCpu = perCpuProcess.length) :
    let started := if group.isInitialized then group else group.init perCpuProcess
    started.Shows perCpuProcess shown ∧ started.isInitialized = true ∧ started.numCpu = group.numCpu ∧
      started.cpuSignalMap = group.cpuSignalMap ∧ started.activeSignal = group.activeSignal := by
  intro started
  rw [Displays] at displays
  by_cases initialized : group.isInitialized = true
  · have same : started = group := if_pos initialized
    rw [if_pos initialized] at displays
    rw [same]
    exact ⟨displays, initialized, rfl, rfl, rfl⟩
  · have same : started = group.init perCpuProcess := if_neg initialized
    rw [if_neg initialized] at displays
    rw [same]
    obtain ⟨shows, rfl⟩ := displays
    obtain ⟨shows, cpus⟩ := shows.init_loop numCpu.ge
    have signals := EpochIOGroup.init_signals group perCpuProcess
    exact ⟨{ shows with }, rfl, cpus, signals.1, signals.2⟩

/-- A read shows what is in the buffer, if there is something. -/
theorem Displays.readBatch (displays : Displays group perCpuProcess shown) (numCpu : group.numCpu = perCpuProcess.length)
    (read : group.readBatch perCpuProcess records = .ok after) :
    Displays after perCpuProcess (fun key => ((countsOf key records).getLast?).getD (shown key)) ∧
      after.isBatchRead = true ∧ after.isInitialized = true ∧ after.numCpu = group.numCpu ∧
      after.cpuSignalMap = group.cpuSignalMap ∧ after.activeSignal = group.activeSignal := by
  obtain ⟨shows, initialized, cpus, mapped, active⟩ := displays.started numCpu
  obtain ⟨last, done, read⟩ := Transition.ok_of_bind read
  obtain ⟨⟨counts, rfl⟩, shows⟩ := shows.readRecords done
  cases read
  rw [Displays, if_pos initialized]
  exact ⟨{ shows with }, rfl, initialized, cpus, mapped, active⟩

end

namespace Follows

variable {State : Type} {monitor after : EpochMonitor State} {epochs : Int → Epochs} {key : Int} {call : Call}
  {action : Action} {actions : List Action} {perCpuProcess : List Int}

theorem call_ok (done : monitor.call key call = .ok after) :
    ∃ outcome, (monitor.sampler.processMap key).recordLog.call call = outcome ∧ outcome.thrown = none ∧
      after = { monitor with
        sampler := { monitor.sampler with
          processMap := Function.update monitor.sampler.processMap key
            { monitor.sampler.processMap key with recordLog := outcome.log } } } := by
  rw [EpochMonitor.call] at done
  cases thrown : ((monitor.sampler.processMap key).recordLog.call call).thrown with
  | some reason =>
      simp only [thrown] at done
      cases done
  | none =>
      simp only [thrown] at done
      cases done
      exact ⟨_, rfl, thrown, rfl⟩

/-- What one process does is seen in its own log alone. -/
theorem logs (follows : Follows monitor epochs) {process : Process State} {others : Int → Epochs}
    (logged : key ∈ monitor.sampler.keys → Logged process key (others key))
    (apart : ∀ other, other ≠ key → others other = epochs other)
    (buffered : ∀ other, (others other).buffered = (epochs other).buffered)
    (shown : ∀ other, (others other).shown = (epochs other).shown) :
    Follows { monitor with
      sampler := { monitor.sampler with
        processMap := Function.update monitor.sampler.processMap key process } } others := by
  refine { follows with logged := fun other member => ?_, buffered := fun other member => ?_, displays := ?_ }
  · change Logged (Function.update monitor.sampler.processMap key process other) other (others other)
    by_cases same : other = key
    · subst same
      rw [Function.update_self]
      exact logged member
    · rw [Function.update_of_ne same, apart other same]
      exact follows.logged other member
  · rw [buffered]
    exact follows.buffered other member
  · simpa only [shown] using follows.displays

theorem plain (follows : Follows monitor epochs) (done : monitor.call key call = .ok after)
    (notEpoch : ∀ time, call ≠ .epoch time) (notDump : call ≠ .dump) :
    Follows after epochs ∧ Keeps monitor.group after.group ∧ after.perCpuProcess = monitor.perCpuProcess := by
  obtain ⟨outcome, same, thrown, rfl⟩ := call_ok done
  refine ⟨?_, .refl _, rfl⟩
  exact follows.logs (fun member => (follows.logged key member).plain same thrown notEpoch notDump)
    (fun _ _ => rfl) (fun _ => rfl) fun _ => rfl

theorem update (follows : Follows monitor epochs) {sampler : ApplicationSampler State}
    (updated : monitor.sampler.update = .ok sampler) :
    Follows { monitor with sampler } fun key => (epochs key).next key .update := by
  have dumpable : ∀ key ∈ monitor.sampler.keys, (monitor.sampler.processMap key).Dumpable key := fun key member =>
    have logged := follows.logged key member
    ⟨logged.unfiltered, logged.sound.wellFormed, logged.named⟩
  have collected := ApplicationSampler.collected_of_loop follows.distinct (by exact dumpable) updated
  have counts := countsOf_loop follows.distinct (by exact dumpable) updated
  have keys : sampler.keys = monitor.sampler.keys := collected.keys_eq
  refine { follows with
    distinct := keys ▸ follows.distinct
    keys := fun key => keys ▸ follows.keys key
    logged := fun key member => ?_
    buffered := fun key member => ?_ }
  · obtain ⟨valid, _, dumped⟩ := collected.dumped key (keys ▸ member)
    rw [dumped]
    exact (follows.logged key (keys ▸ member)).dumped valid
  · rw [counts key, if_pos (keys ▸ member)]
    exact (follows.logged key (keys ▸ member)).logged

theorem readBatch (follows : Follows monitor epochs) {group : EpochIOGroup}
    (read : monitor.group.readBatch monitor.perCpuProcess monitor.sampler.recordBuffer = .ok group) :
    Follows { monitor with group } fun key => (epochs key).next key .readBatch := by
  obtain ⟨displays, isRead, initialized, cpus, mapped, active⟩ := follows.displays.readBatch follows.numCpu read
  refine { follows with
    logged := fun key member => { follows.logged key member with }
    displays := ?_
    numCpu := cpus.trans follows.numCpu
    placed := by rw [mapped, active]; exact follows.placed
    read := fun _ => initialized }
  rw [Displays, if_pos initialized] at displays ⊢
  refine ⟨displays.cpus, fun cpu inside => ?_, displays.length⟩
  rw [displays.counts cpu inside]
  cases on : monitor.perCpuProcess[cpu]? with
  | none => rfl
  | some process =>
      rw [countOn, countOn]
      by_cases absent : process = -1
      · rw [if_pos absent, if_pos absent]
      · have member := (follows.keys process).mpr ⟨absent, List.mem_of_getElem? on⟩
        rw [if_neg absent, if_neg absent, follows.buffered process member]
        rfl

theorem step (follows : Follows monitor epochs) (done : monitor.step action = .ok after) :
    Follows after (fun key => (epochs key).next key action) ∧ Keeps monitor.group after.group ∧
      after.perCpuProcess = monitor.perCpuProcess := by
  cases action with
  | enter key hash time => exact follows.plain done (fun _ => by simp) (by simp)
  | exit key hash time => exact follows.plain done (fun _ => by simp) (by simp)
  | epoch key time =>
      obtain ⟨outcome, same, thrown, rfl⟩ := call_ok done
      refine ⟨?_, .refl _, rfl⟩
      have others : ∀ other, other ≠ key → (epochs other).next other (.epoch key time) = epochs other :=
        fun other apart => if_neg fun reversed => apart reversed.symm
      apply follows.logs (fun member => (follows.logged key member).epoch same thrown) others
      · intro other
        by_cases here : key = other
        · rw [Epochs.next, if_pos here]
        · rw [Epochs.next, if_neg here]
      · intro other
        by_cases here : key = other
        · rw [Epochs.next, if_pos here]
        · rw [Epochs.next, if_neg here]
  | push signalName domainType domainIdx =>
      rw [EpochMonitor.step] at done
      cases pushed : monitor.group.pushSignal signalName domainType domainIdx with
      | error reason =>
          rw [pushed] at done
          cases done
      | ok found =>
          obtain ⟨index, group⟩ := found
          rw [pushed] at done
          cases done
          refine ⟨?_, (pushSignal_keeps pushed).1, rfl⟩
          have placed := pushSignal_placed pushed follows.placed
          obtain ⟨rfl, _⟩ | ⟨_, rfl, rfl⟩ := pushSignal_ok pushed
          · exact follows
          · exact { follows with displays := follows.displays.congr rfl rfl rfl rfl, placed := placed }
  | update =>
      rw [EpochMonitor.step] at done
      cases updated : monitor.sampler.update with
      | error reason =>
          rw [updated] at done
          cases done
      | ok sampler =>
          rw [updated] at done
          cases done
          exact ⟨follows.update updated, .refl _, rfl⟩
  | readBatch =>
      rw [EpochMonitor.step] at done
      cases read : monitor.group.readBatch monitor.perCpuProcess monitor.sampler.recordBuffer with
      | error reason =>
          rw [read] at done
          cases done
      | ok group =>
          rw [read] at done
          cases done
          obtain ⟨_, isRead, _, _, mapped, _⟩ := follows.displays.readBatch follows.numCpu read
          exact ⟨follows.readBatch read, ⟨fun cpu index old => by rwa [mapped], fun _ => isRead⟩, rfl⟩

theorem run (follows : Follows monitor epochs) (done : monitor.run actions = .ok after) :
    Follows after (fun key => Transition.run (Epochs.next key) (epochs key) actions) ∧
      Keeps monitor.group after.group ∧ after.perCpuProcess = monitor.perCpuProcess := by
  induction actions generalizing monitor epochs with
  | nil =>
      cases done
      exact ⟨follows, .refl _, rfl⟩
  | cons action rest ih =>
      rw [EpochMonitor.run, List.foldlM_cons] at done
      obtain ⟨middle, first, later⟩ := Transition.ok_of_bind done
      obtain ⟨follows, keeps, same⟩ := follows.step first
      obtain ⟨final, others, all⟩ := ih follows later
      exact ⟨final, keeps.trans others, all.trans same⟩

/-- After a read the signals can be sampled. -/
theorem isRead (follows : Follows monitor epochs) (done : monitor.run actions = .ok after)
    (read : .readBatch ∈ actions) : after.group.isBatchRead = true := by
  induction actions generalizing monitor epochs with
  | nil => exact nomatch read
  | cons action rest ih =>
      rw [EpochMonitor.run, List.foldlM_cons] at done
      obtain ⟨middle, first, later⟩ := Transition.ok_of_bind done
      obtain ⟨next, _, _⟩ := follows.step first
      rcases List.mem_cons.mp read with rfl | inside
      · obtain ⟨_, keeps, _⟩ := next.run later
        refine keeps.read ?_
        rw [EpochMonitor.step] at first
        cases found : monitor.group.readBatch monitor.perCpuProcess monitor.sampler.recordBuffer with
        | error reason =>
            rw [found] at first
            cases first
        | ok group =>
            rw [found] at first
            cases first
            exact (follows.displays.readBatch follows.numCpu found).2.1
      · exact ih next later inside

theorem initial (perCpuProcess : List Int) (timeZero : Int → Time) :
    Follows (EpochMonitor.initial perCpuProcess timeZero : EpochMonitor State) fun _ => .none where
  distinct := (List.perm_insertionSort _ _).nodup_iff.mpr (List.nodup_dedup _)
  keys key := by
    change key ∈ ((perCpuProcess.filter (· ≠ -1)).dedup).insertionSort (· ≤ ·) ↔ key ≠ -1 ∧ key ∈ perCpuProcess
    rw [List.mem_insertionSort, List.mem_dedup, List.mem_filter]
    simp [and_comm]
  logged key member := {
    unfiltered := rfl
    sound := RecordLog.initial_sound key (timeZero key)
    owner := rfl
    named := fun _ member => nomatch member
    called := rfl
    logged := rfl }
  buffered key member := rfl
  displays := ⟨EpochIOGroup.shows_fresh rfl rfl fun _ => rfl, rfl⟩
  numCpu := rfl
  placed cpu index found := nomatch found
  read isRead := nomatch isRead

end Follows

section

variable {State : Type} {perCpuProcess : List Int} {timeZero : Int → Time} {before later : List Action}
  {middle : EpochMonitor State} {group : EpochIOGroup} {cpu index : Nat} {process : Int} {signalName : String}

theorem sample_displayed {monitor : EpochMonitor State} {epochs : Int → Epochs} (follows : Follows monitor epochs)
    (read : monitor.group.isBatchRead = true) (mapped : monitor.group.cpuSignalMap cpu = some index)
    (on : monitor.perCpuProcess[cpu]? = some process) :
    monitor.group.sample index = .ok (if process = -1 then .nan else .value (epochs process).shown) := by
  have displays := follows.displays
  rw [Displays, if_pos (follows.read read)] at displays
  have inside : cpu < monitor.group.numCpu := follows.numCpu ▸ (List.getElem?_eq_some_iff.mp on).1
  have count := displays.counts cpu inside
  rw [on, countOn] at count
  have natural : ¬(index : Int) < 0 := by omega
  rw [EpochIOGroup.sample, if_neg (not_not.mpr read), if_neg natural, Int.toNat_natCast, follows.placed cpu index mapped]
  simp only [List.getD_eq_getElem?_getD, count, Option.getD_some]

/-- Whatever the order of the calls of the processes, the updates and the reads, the signal that was pushed for a CPU
has the count of the last epoch of its process that a read has found in the buffer of the sampler, or no number
without a process. -/
theorem sample_epochs (reached : (EpochMonitor.initial perCpuProcess timeZero).run before = .ok middle)
    (pushed : middle.group.pushSignal signalName .cpu cpu = .ok (index, group))
    (ran : (middle.run (.push signalName .cpu cpu :: later)).isOk = true) (read : .readBatch ∈ later)
    (on : perCpuProcess[cpu]? = some process) :
    (middle.run (.push signalName .cpu cpu :: later)).map (fun final => final.group.sample index) =
      .ok (.ok (if process = -1 then .nan else .value (Epochs.after process (before ++ later)).shown)) := by
  obtain ⟨start, _, processes⟩ := (Follows.initial perCpuProcess timeZero).run reached
  obtain ⟨_, mapped⟩ := pushSignal_keeps pushed
  have here : middle.step (.push signalName .cpu cpu) = .ok { middle with group } := by rw [EpochMonitor.step, pushed]
  have split : middle.run (.push signalName .cpu cpu :: later) = ({ middle with group } : EpochMonitor State).run later := by
    rw [EpochMonitor.run, List.foldlM_cons, here]
    rfl
  rw [split] at ran ⊢
  cases done : ({ middle with group } : EpochMonitor State).run later with
  | error reason =>
      rw [done] at ran
      cases ran
  | ok final =>
      obtain ⟨next, _, _⟩ := start.step here
      obtain ⟨follows, keeps, same⟩ := next.run done
      have sampled := sample_displayed follows (next.isRead done read) (keeps.mapped cpu index mapped)
        ((congrArg (fun processes => processes[cpu]?) (same.trans processes)).trans on)
      rw [Except.map, sampled, Epochs.after, Transition.run_append]
      rfl

/-- One epoch before the first update, which nobody reads, and one after it. -/
theorem sample_epochs_second :
    ((EpochMonitor.initial [7, -1, 7] (fun _ => ⟨1, 0⟩) : EpochMonitor Unit).run
        [.push "EPOCH_COUNT" .cpu 2, .epoch 7 ⟨2, 0⟩, .update, .epoch 7 ⟨3, 0⟩, .update, .readBatch]).map
      (fun final => final.group.sample 0) = .ok (.ok (.value (2 : Nat))) := by
  have reached : (EpochMonitor.initial [7, -1, 7] (fun _ => ⟨1, 0⟩) : EpochMonitor Unit).run [] =
      .ok (.initial [7, -1, 7] fun _ => ⟨1, 0⟩) := rfl
  have ran : ((EpochMonitor.initial [7, -1, 7] (fun _ => ⟨1, 0⟩) : EpochMonitor Unit).run
      [.push "EPOCH_COUNT" .cpu 2, .epoch 7 ⟨2, 0⟩, .update, .epoch 7 ⟨3, 0⟩, .update, .readBatch]).isOk = true := by
    decide +kernel
  exact sample_epochs reached rfl ran (by decide) rfl

end

end EpochCount

end Geopm
