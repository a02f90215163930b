import Geopm.ApplicationSampler
import Geopm.Library.Number
import Geopm.PlatformTopo

namespace Geopm

/-! `EpochIOGroup`: the number of epochs of the process on each CPU. -/

inductive EpochSignalError where
  /-- "signal_name " and the name " not valid for EpochIOGroup" -/
  | signalName (name : String)
  /-- "signals not defined for domain " -/
  | domainType (domainType : Domain)
  /-- "invalid domain index: " -/
  | domainIdx (domainIdx : Int)
  /-- "cannot push signal after call to read_batch()." -/
  | pushAfterRead
  /-- "signal has not been read" -/
  | notRead
  /-- "batch_idx out of range" -/
  | batchIdx
  /-- The exception of `std::map::at`. -/
  | unknownProcess (process : Int)
deriving Repr, DecidableEq

/-- `m_valid_signal_name`. -/
def validEpochSignal (signalName : String) : Bool := signalName = "EPOCH::EPOCH_COUNT" ∨ signalName = "EPOCH_COUNT"

structure EpochIOGroup where
  numCpu : Nat
  perCpuCount : List Number
  /-- A process that is not in the map has no CPUs. -/
  processCpuMap : Int → List Nat
  isBatchRead : Bool
  isInitialized : Bool
  cpuSignalMap : Nat → Option Nat
  activeSignal : List Nat

namespace EpochIOGroup

/-- The constructor. -/
def new (numCpu : Nat) : EpochIOGroup where
  numCpu
  perCpuCount := List.replicate numCpu .nan
  processCpuMap _ := []
  isBatchRead := false
  isInitialized := false
  cpuSignalMap _ := none
  activeSignal := []

/-- The body of the loop of `init`. -/
def initCpu (group : EpochIOGroup) (entry : Int × Nat) : EpochIOGroup :=
  if entry.1 = -1 then group
  else { group with
    processCpuMap :=
      Function.update group.processCpuMap entry.1 (group.processCpuMap entry.1 ++ [entry.2])
    perCpuCount := group.perCpuCount.set entry.2 (.value 0) }

/-- `init`. -/
def init (group : EpochIOGroup) (perCpuProcess : List Int) : EpochIOGroup :=
  { perCpuProcess.zipIdx.foldl initCpu group with isInitialized := true }

/-- `push_signal`. -/
def pushSignal (group : EpochIOGroup) (signalName : String) (domainType : Domain) (domainIdx : Int) :
    Except EpochSignalError (Nat × EpochIOGroup) :=
  if ¬validEpochSignal signalName then .error (.signalName signalName)
  else if domainType ≠ .cpu then .error (.domainType domainType)
  else if domainIdx < 0 ∨ domainIdx ≥ group.numCpu then .error (.domainIdx domainIdx)
  else if group.isBatchRead then .error .pushAfterRead
  else match group.cpuSignalMap domainIdx.toNat with
    | some result => .ok (result, group)
    | none =>
        let result := group.activeSignal.length
        .ok (result, { group with
          activeSignal := group.activeSignal ++ [domainIdx.toNat]
          cpuSignalMap := Function.update group.cpuSignalMap domainIdx.toNat (some result) })

/-- The body of the loop of `read_batch`. -/
def readRecord (group : EpochIOGroup) (record : Record) : Except EpochSignalError EpochIOGroup :=
  if record.event = .epochCount then
    match group.processCpuMap record.process with
    | [] => .error (.unknownProcess record.process)
    | cpuSet => .ok { group with
        perCpuCount := cpuSet.foldl (fun count cpu => count.set cpu (.value record.signal)) group.perCpuCount }
  else .ok group

/-- `read_batch`, with what `per_cpu_process` and `get_records` return. -/
def readBatch (group : EpochIOGroup) (perCpuProcess : List Int) (records : List Record) :
    Except EpochSignalError EpochIOGroup := do
  let started := if group.isInitialized then group else group.init perCpuProcess
  let read ← records.foldlM readRecord started
  return { read with isBatchRead := true }

/-- `sample`. -/
def sample (group : EpochIOGroup) (batchIdx : Int) : Except EpochSignalError Number :=
  if ¬group.isBatchRead then .error .notRead
  else if batchIdx < 0 then .error .batchIdx
  else match group.activeSignal[batchIdx.toNat]? with
    | none => .error .batchIdx
    | some cpu => .ok (group.perCpuCount.getD cpu .nan)

/-- The counts of the epochs of a process, by their records. -/
def countsOf (process : Int) (records : List Record) : List Nat :=
  records.filterMap fun record =>
    if record.event = .epochCount ∧ record.process = process then some record.signal else none

/-- The count of the process on a CPU, if there is one. -/
def countOn (shown : Int → Nat) : Option Int → Number
  | none => .nan
  | some process => if process = -1 then .nan else .value (shown process)

/-- Each CPU is in the set of its process and has the count that is shown of it. -/
structure Shows (group : EpochIOGroup) (perCpuProcess : List Int) (shown : Int → Nat) : Prop where
  cpus : ∀ process cpu, cpu ∈ group.processCpuMap process ↔ process ≠ -1 ∧ perCpuProcess[cpu]? = some process
  counts : ∀ cpu < group.numCpu, group.perCpuCount[cpu]? = some (countOn shown perCpuProcess[cpu]?)
  length : group.perCpuCount.length = group.numCpu

section

variable {group next : EpochIOGroup} {perCpuProcess : List Int} {process : Int} {cpu index : Nat} {record : Record}
  {records : List Record} {counts : List Number} {value : Number}

theorem countsOf_append (left right : List Record) :
    countsOf process (left ++ right) = countsOf process left ++ countsOf process right := List.filterMap_append

theorem length_foldl_set (cpuSet : List Nat) :
    (cpuSet.foldl (fun count cpu => count.set cpu value) counts).length = counts.length := by
  induction cpuSet generalizing counts with
  | nil => rfl
  | cons first rest ih => rw [List.foldl_cons, ih, List.length_set]

theorem getElem?_foldl_set (cpuSet : List Nat) (inside : cpu < counts.length) :
    (cpuSet.foldl (fun count cpu => count.set cpu value) counts)[cpu]? =
      if cpu ∈ cpuSet then some value else counts[cpu]? := by
  induction cpuSet generalizing counts with
  | nil => rfl
  | cons first rest ih =>
      rw [List.foldl_cons, ih (by rwa [List.length_set]), List.getElem?_set]
      by_cases later : cpu ∈ rest
      · simp [later]
      · by_cases same : first = cpu
        · subst same
          simp [inside]
        · have other : cpu ≠ first := fun reversed => same reversed.symm
          simp [later, same, other]

theorem shows_fresh {numCpu : Nat} (fresh : group.perCpuCount = List.replicate numCpu .nan) (cpus : group.numCpu = numCpu)
    (none : ∀ process, group.processCpuMap process = []) : group.Shows [] fun _ => 0 where
  cpus process cpu := by simp [none]
  counts cpu inside := by
    rw [cpus] at inside
    simp [fresh, inside, countOn]
  length := by rw [fresh, cpus, List.length_replicate]

/-- One more CPU. -/
theorem Shows.initCpu (shows : group.Shows perCpuProcess fun _ => 0) (room : perCpuProcess.length < group.numCpu) :
    (group.initCpu (process, perCpuProcess.length)).Shows (perCpuProcess ++ [process]) fun _ => 0 := by
  have before : ∀ cpu, cpu ≠ perCpuProcess.length → (perCpuProcess ++ [process])[cpu]? = perCpuProcess[cpu]? := by
    intro cpu other
    by_cases inside : cpu < perCpuProcess.length
    · rw [List.getElem?_append_left inside]
    · rw [List.getElem?_eq_none (by simp; omega), List.getElem?_eq_none (by omega)]
  have last : (perCpuProcess ++ [process])[perCpuProcess.length]? = some process := List.getElem?_concat_length
  have unset : perCpuProcess[perCpuProcess.length]? = none := List.getElem?_eq_none (Nat.le_refl _)
  rw [EpochIOGroup.initCpu]
  by_cases absent : process = -1
  · rw [if_pos absent]
    refine ⟨fun other cpu => ?_, fun cpu inside => ?_, shows.length⟩
    · rw [shows.cpus]
      by_cases here : cpu = perCpuProcess.length
      · rw [here, last, unset]
        simp [absent, eq_comm]
      · rw [before cpu here]
    · rw [shows.counts cpu inside]
      by_cases here : cpu = perCpuProcess.length
      · rw [here, last, unset, countOn, countOn, if_pos absent]
      · rw [before cpu here]
  · rw [if_neg absent]
    refine ⟨fun other cpu => ?_, fun cpu inside => ?_, ?_⟩
    · change cpu ∈ Function.update group.processCpuMap process
        (group.processCpuMap process ++ [perCpuProcess.length]) other ↔ _
      by_cases same : other = process
      · subst same
        rw [Function.update_self, List.mem_append, List.mem_singleton, shows.cpus]
        by_cases here : cpu = perCpuProcess.length
        · rw [here, last]
          simp [absent]
        · rw [before cpu here]
          simp [here]
      · rw [Function.update_of_ne same, shows.cpus]
        by_cases here : cpu = perCpuProcess.length
        · have reversed : ¬process = other := fun equal => same equal.symm
          rw [here, last, unset]
          simp [reversed]
        · rw [before cpu here]
    · rw [List.getElem?_set]
      by_cases here : perCpuProcess.length = cpu
      · subst here
        rw [if_pos rfl, if_pos (shows.length.symm ▸ room), last, countOn, if_neg absent]
        rfl
      · rw [if_neg here, shows.counts cpu inside, before cpu fun reversed => here reversed.symm]
    · rw [List.length_set, shows.length]

theorem numCpu_initCpu (entry : Int × Nat) : (group.initCpu entry).numCpu = group.numCpu := by
  rw [EpochIOGroup.initCpu]
  by_cases absent : entry.1 = -1
  · rw [if_pos absent]
  · rw [if_neg absent]

theorem Shows.init_loop (shows : group.Shows [] fun _ => 0) (few : perCpuProcess.length ≤ group.numCpu) :
    (perCpuProcess.zipIdx.foldl EpochIOGroup.initCpu group).Shows perCpuProcess (fun _ => 0) ∧
      (perCpuProcess.zipIdx.foldl EpochIOGroup.initCpu group).numCpu = group.numCpu := by
  induction perCpuProcess using List.reverseRecOn with
  | nil => exact ⟨shows, rfl⟩
  | append_singleton front process ih =>
      rw [List.length_append, List.length_singleton] at few
      obtain ⟨earlier, same⟩ := ih (by omega)
      rw [List.zipIdx_append, List.foldl_append]
      simp only [Nat.zero_add, List.zipIdx_singleton, List.foldl_cons, List.foldl_nil]
      exact ⟨earlier.initCpu (by omega), (numCpu_initCpu _).trans same⟩

theorem init_signals (group : EpochIOGroup) (perCpuProcess : List Int) :
    (group.init perCpuProcess).cpuSignalMap = group.cpuSignalMap ∧
      (group.init perCpuProcess).activeSignal = group.activeSignal := by
  have loop : ∀ (entries : List (Int × Nat)) (group : EpochIOGroup),
      (entries.foldl EpochIOGroup.initCpu group).cpuSignalMap = group.cpuSignalMap ∧
        (entries.foldl EpochIOGroup.initCpu group).activeSignal = group.activeSignal := by
    intro entries
    induction entries with
    | nil => exact fun group => ⟨rfl, rfl⟩
    | cons entry rest ih =>
        intro group
        rw [List.foldl_cons, (ih _).1, (ih _).2, EpochIOGroup.initCpu]
        by_cases absent : entry.1 = -1
        · rw [if_pos absent]
          exact ⟨rfl, rfl⟩
        · rw [if_neg absent]
          exact ⟨rfl, rfl⟩
  exact loop _ group

variable {shown : Int → Nat}

/-- A record sets the count on each CPU of its process. -/
theorem Shows.readRecord (shows : group.Shows perCpuProcess shown) (read : group.readRecord record = .ok next) :
    (∃ counts, next = { group with perCpuCount := counts }) ∧
      next.Shows perCpuProcess fun process => ((countsOf process [record]).getLast?).getD (shown process) := by
  rw [EpochIOGroup.readRecord] at read
  by_cases epoch : record.event = .epochCount
  · rw [if_pos epoch] at read
    cases found : group.processCpuMap record.process with
    | nil =>
        rw [found] at read
        cases read
    | cons first rest =>
        simp only [found] at read
        cases read
        rw [← found]
        refine ⟨⟨_, rfl⟩, shows.cpus, fun cpu inside => ?_, ?_⟩
        · rw [getElem?_foldl_set _ (shows.length.symm ▸ inside)]
          simp only [shows.cpus, shows.counts cpu inside]
          cases on : perCpuProcess[cpu]? with
          | none => simp [countOn]
          | some process =>
              by_cases absent : process = -1
              · rw [countOn, countOn, if_pos absent, if_pos absent]
                simp [absent, eq_comm]
              · by_cases same : process = record.process
                · subst same
                  simp [countOn, absent, countsOf, epoch]
                · have reversed : ¬record.process = process := fun equal => same equal.symm
                  simp [countOn, same, countsOf, reversed]
        · rw [length_foldl_set, shows.length]
  · rw [if_neg epoch] at read
    cases read
    have nothing : ∀ process, countsOf process [record] = [] := by
      intro process
      simp [countsOf, epoch]
    exact ⟨⟨_, rfl⟩, by simpa only [nothing, List.getLast?_nil, Option.getD_none] using shows⟩

theorem Shows.readRecords (shows : group.Shows perCpuProcess shown)
    (read : records.foldlM EpochIOGroup.readRecord group = .ok next) :
    (∃ counts, next = { group with perCpuCount := counts }) ∧
      next.Shows perCpuProcess fun process => ((countsOf process records).getLast?).getD (shown process) := by
  induction records generalizing group shown with
  | nil =>
      cases read
      exact ⟨⟨_, rfl⟩, shows⟩
  | cons record rest ih =>
      rw [List.foldlM_cons] at read
      obtain ⟨middle, first, read⟩ := Transition.ok_of_bind read
      obtain ⟨⟨_, rfl⟩, shows⟩ := shows.readRecord first
      obtain ⟨⟨counts, rfl⟩, shows⟩ := ih shows read
      refine ⟨⟨counts, rfl⟩, ?_⟩
      have last : ∀ process, ((countsOf process (record :: rest)).getLast?).getD (shown process) =
          ((countsOf process rest).getLast?).getD (((countsOf process [record]).getLast?).getD (shown process)) := by
        intro process
        rw [← List.singleton_append, countsOf_append, List.getLast?_append]
        cases (countsOf process rest).getLast? with
        | none => rfl
        | some count => rfl
      simpa only [last] using shows

end

end EpochIOGroup

end Geopm
