import Geopm.ApplicationStatus
import Geopm.Library.Assoc
import Geopm.Library.Number
import Geopm.Library.Stateful
import Geopm.PlatformTopo

namespace Geopm

/-! `ProfileIOGroup`: what the CPUs are running, as signals that are read one by one or in a batch. -/

/-- `get_progress_cpu`. -/
def ApplicationStatus.getProgressCpu (status : ApplicationStatus) (cpu : Int) : Except StatusError Number :=
  status.checked cpu <|
    let totalWork := (status.cache cpu).totalWork.toInt
    .ok (if totalWork ≠ 0 then .value ((status.cache cpu).completedWork.toNat / totalWork) else .nan)

inductive ProfileSignalError where
  /-- "cannot read process info before connect()." -/
  | notConnected
  /-- "cpu_idx is out of range: " -/
  | cpuOutOfRange (cpu : Int)
  /-- "hint is invalid: " -/
  | hintInvalid (hint : BitVec 64)
  | status (reason : StatusError)
  /-- "ProfileIOGroup::push_signal: cannot push signal after call to read_batch()." -/
  | pushAfterRead
  /-- "ProfileIOGroup::check_signal(): signal_name .. not valid for ProfileIOGroup" -/
  | signalNameInvalid (name : String)
  /-- "ProfileIOGroup::check_signal(): non-CPU domains are not supported" -/
  | nonCpuDomain
  /-- "ProfileIOGroup::check_signal(): domain index out of range" -/
  | domainIdxOutOfRange
  /-- "ProfileIOGroup::signal_type_to_hint(): signal_type must be a M_SIGNAL_TIME_HINT type" -/
  | notTimeHint
  /-- "ProfileIOGroup::sample(): signal_idx out of range" -/
  | signalIdxOutOfRange
  /-- "ProfileIOGroup::sample(): signal has not been read" -/
  | notRead
deriving Repr, DecidableEq

/-- What `ApplicationSampler` tells about the CPUs. -/
structure CpuSampler where
  numCpu : Nat
  /-- set by `connect` -/
  status : Option ApplicationStatus
  hintTime : Int → BitVec 64 → Option Number
  isCpuActive : Int → Bool

namespace CpuSampler

/-- A getter of the status, once there is one. -/
def connected {Value : Type} (sampler : CpuSampler) (getter : ApplicationStatus → Except StatusError Value) :
    Except ProfileSignalError Value :=
  match sampler.status with
  | none => .error .notConnected
  | some status => (getter status).mapError .status

def cpuRegionHash (sampler : CpuSampler) (cpu : Int) : Except ProfileSignalError (BitVec 64) :=
  sampler.connected fun status => status.getHash cpu

def cpuHint (sampler : CpuSampler) (cpu : Int) : Except ProfileSignalError (BitVec 64) :=
  sampler.connected fun status => status.getHint cpu

def cpuProgress (sampler : CpuSampler) (cpu : Int) : Except ProfileSignalError Number :=
  sampler.connected fun status => status.getProgressCpu cpu

def cpuHintTime (sampler : CpuSampler) (cpu : Int) (hint : BitVec 64) : Except ProfileSignalError Number :=
  if cpu < 0 ∨ cpu ≥ sampler.numCpu then .error (.cpuOutOfRange cpu)
  else if sampler.isCpuActive cpu then
    match sampler.hintTime cpu hint with
    | none => .error (.hintInvalid hint)
    | some result => .ok result
  else .ok .nan

end CpuSampler

/-- `m_signal_type`. -/
inductive ProfileSignal where
  | regionHash
  | regionHint
  | threadProgress
  | timeHintUnset
  | timeHintUnknown
  | timeHintCompute
  | timeHintMemory
  | timeHintNetwork
  | timeHintIo
  | timeHintSerial
  | timeHintParallel
  | timeHintIgnore
deriving Repr, DecidableEq

/-- A `double` from an integer. -/
def signalOf (value : BitVec 64) : Number := .value value.toNat

namespace ProfileSignal

/-- The types in their order. -/
def all : List ProfileSignal :=
  [.regionHash, .regionHint, .threadProgress, .timeHintUnset, .timeHintUnknown, .timeHintCompute,
    .timeHintMemory, .timeHintNetwork, .timeHintIo, .timeHintSerial, .timeHintParallel, .timeHintIgnore]

/-- `m_signal_idx_map`, without the prefix of the plugin. -/
def aliases : List (String × ProfileSignal) :=
  [("REGION_HASH", .regionHash), ("REGION_HINT", .regionHint), ("REGION_PROGRESS", .threadProgress),
    ("TIME_HINT_UNKNOWN", .timeHintUnknown), ("TIME_HINT_UNSET", .timeHintUnset),
    ("TIME_HINT_COMPUTE", .timeHintCompute), ("TIME_HINT_MEMORY", .timeHintMemory),
    ("TIME_HINT_NETWORK", .timeHintNetwork), ("TIME_HINT_IO", .timeHintIo),
    ("TIME_HINT_SERIAL", .timeHintSerial), ("TIME_HINT_PARALLEL", .timeHintParallel),
    ("TIME_HINT_IGNORE", .timeHintIgnore)]

/-- `m_signal_idx_map`. -/
def ofName (name : String) : Option ProfileSignal :=
  Assoc.lookup name (aliases ++ aliases.map fun entry => ("PROFILE::" ++ entry.1, entry.2))

/-- `hash_to_signal`. -/
def hashToSignal (hash : BitVec 64) : Number :=
  if hash = BitVec.ofNat 64 regionHashInvalid then .nan else signalOf hash

/-- `hint_to_signal`. -/
def hintToSignal (hint : BitVec 64) : Number :=
  if hint = regionHintInactive then .nan else signalOf hint

/-- `signal_type_to_hint`. -/
def toHint : ProfileSignal → Except ProfileSignalError (BitVec 64)
  | .timeHintUnset => .ok regionHintUnset
  | .timeHintUnknown => .ok regionHintUnknown
  | .timeHintCompute => .ok regionHintCompute
  | .timeHintMemory => .ok regionHintMemory
  | .timeHintNetwork => .ok regionHintNetwork
  | .timeHintIo => .ok regionHintIo
  | .timeHintSerial => .ok regionHintSerial
  | .timeHintParallel => .ok regionHintParallel
  | .timeHintIgnore => .ok regionHintIgnore
  | .regionHash | .regionHint | .threadProgress => .error .notTimeHint

/-- What `read_batch` reads for a CPU. -/
def batchValue (sampler : CpuSampler) (cpu : Int) (signalType : ProfileSignal) :
    Except ProfileSignalError Number :=
  match signalType with
  | .regionHash => (sampler.cpuRegionHash cpu).map hashToSignal
  | .regionHint => (sampler.cpuHint cpu).map hintToSignal
  | .threadProgress => sampler.cpuProgress cpu
  | other => do
      let hint ← other.toHint
      sampler.cpuHintTime cpu hint

/-- The switch of `read_signal`. -/
def directValue (sampler : CpuSampler) (cpu : Int) : ProfileSignal → Except ProfileSignalError Number
  | .regionHash => (sampler.cpuRegionHash cpu).map signalOf
  | .regionHint => (sampler.cpuHint cpu).map signalOf
  | .threadProgress => sampler.cpuProgress cpu
  | .timeHintUnset => sampler.cpuHintTime cpu regionHintUnset
  | .timeHintUnknown => sampler.cpuHintTime cpu regionHintUnknown
  | .timeHintCompute => sampler.cpuHintTime cpu regionHintCompute
  | .timeHintMemory => sampler.cpuHintTime cpu regionHintMemory
  | .timeHintNetwork => sampler.cpuHintTime cpu regionHintNetwork
  | .timeHintIo => sampler.cpuHintTime cpu regionHintIo
  | .timeHintSerial => sampler.cpuHintTime cpu regionHintSerial
  | .timeHintParallel => sampler.cpuHintTime cpu regionHintParallel
  | .timeHintIgnore => sampler.cpuHintTime cpu regionHintIgnore

end ProfileSignal

/-- `m_signal_config`; the domain is that of the CPUs. -/
structure SignalConfig where
  signalType : ProfileSignal
  domainIdx : Int
deriving Repr, DecidableEq

structure ProfileIOGroup where
  numCpu : Nat
  doRead : ProfileSignal → Bool
  isBatchRead : Bool
  isPushed : Bool
  activeSignal : List SignalConfig
  perCpuSample : ProfileSignal → Nat → Number
  inRange : ∀ config ∈ activeSignal, 0 ≤ config.domainIdx ∧ config.domainIdx < numCpu
  reads : ∀ config ∈ activeSignal, doRead config.signalType = true

namespace ProfileIOGroup

abbrev ProfileM := EStateM ProfileSignalError ProfileIOGroup

/-- The constructor. -/
def new (numCpu : Nat) : ProfileIOGroup where
  numCpu
  doRead _ := false
  isBatchRead := false
  isPushed := false
  activeSignal := []
  perCpuSample signalType _ :=
    if signalType = .regionHash ∨ signalType = .regionHint then .nan else .value 0
  inRange _ member := absurd member List.not_mem_nil
  reads _ member := absurd member List.not_mem_nil

/-- `check_signal`. -/
def checkSignal (group : ProfileIOGroup) (signalName : String) (domainType : Domain) (domainIdx : Int) :
    Except ProfileSignalError ProfileSignal :=
  match ProfileSignal.ofName signalName with
  | none => .error (.signalNameInvalid signalName)
  | some signalType =>
      if domainType ≠ .cpu then .error .nonCpuDomain
      else if domainIdx < 0 ∨ domainIdx ≥ group.numCpu then .error .domainIdxOutOfRange
      else .ok signalType

/-- The last active signal that is the same. -/
def find (config : SignalConfig) (activeSignal : List SignalConfig) : Option Nat :=
  (List.range activeSignal.length).foldl
    (fun result idx => if activeSignal[idx]? = some config then some idx else result) none

/-- A signal of a CPU is read from now on. -/
def activate (config : SignalConfig) (group : ProfileIOGroup)
    (inside : 0 ≤ config.domainIdx ∧ config.domainIdx < group.numCpu) : ProfileIOGroup :=
  { group with
    activeSignal := group.activeSignal ++ [config]
    doRead := Function.update group.doRead config.signalType true
    inRange := by
      intro other member
      rcases List.mem_append.mp member with old | new
      · exact group.inRange other old
      · rwa [List.mem_singleton.mp new]
    reads := by
      intro other member
      rcases List.mem_append.mp member with old | new
      · by_cases same : other.signalType = config.signalType
        · rw [same, Function.update_self]
        · rw [Function.update_of_ne same]
          exact group.reads other old
      · rw [List.mem_singleton.mp new, Function.update_self] }

/-- The rest of `push_signal` for a signal that `check_signal` has accepted. -/
def pushConfig (config : SignalConfig) : ProfileM Nat := do
  let group ← get
  match find config group.activeSignal with
  | some result => pure result
  | none =>
      -- `check_signal` has made sure of it
      if inside : 0 ≤ config.domainIdx ∧ config.domainIdx < group.numCpu then
        set (group.activate config inside)
      pure group.activeSignal.length

def pushSignal (signalName : String) (domainType : Domain) (domainIdx : Int) : ProfileM Nat := do
  if (← get).isBatchRead then
    throw .pushAfterRead
  modify fun group => { group with isPushed := true }
  let group ← get
  let signalType ← Stateful.ofExcept (group.checkSignal signalName domainType domainIdx)
  pushConfig ⟨signalType, domainIdx⟩

/-- An assignment to `m_per_cpu_sample`. -/
def record (signalType : ProfileSignal) (idx : Nat) (value : Number) (group : ProfileIOGroup) : ProfileIOGroup :=
  { group with
    perCpuSample := Function.update group.perCpuSample signalType
      (Function.update (group.perCpuSample signalType) idx value) }

/-- The loop over the CPUs for a signal. -/
def readCpus (sampler : CpuSampler) (numCpu : Nat) (signalType : ProfileSignal) : ProfileM Unit :=
  (List.range numCpu).forM fun idx => do
    let value ← Stateful.ofExcept (signalType.batchValue sampler idx)
    modify (record signalType idx value)

def readBatch (sampler : CpuSampler) : ProfileM Unit := do
  let group ← get
  if group.isPushed then
    ProfileSignal.all.forM fun signalType =>
      if group.doRead signalType then readCpus sampler group.numCpu signalType else pure ()
    modify fun group => { group with isBatchRead := true }

def sample (signalIdx : Int) : ProfileM Number := do
  let group ← get
  if signalIdx < 0 ∨ signalIdx ≥ group.activeSignal.length then
    throw .signalIdxOutOfRange
  if !group.isBatchRead then
    throw .notRead
  match group.activeSignal[signalIdx.toNat]? with
  | none => throw .signalIdxOutOfRange
  | some config => pure (group.perCpuSample config.signalType config.domainIdx.toNat)

def readSignal (sampler : CpuSampler) (group : ProfileIOGroup) (signalName : String) (domainType : Domain)
    (domainIdx : Int) : Except ProfileSignalError Number := do
  let signalType ← group.checkSignal signalName domainType domainIdx
  signalType.directValue sampler domainIdx

/-- A signal is pushed, the batch is read and the signal is sampled. -/
def readInBatch (sampler : CpuSampler) (signalName : String) (domainType : Domain) (domainIdx : Int) :
    ProfileM Number := do
  let signalIdx ← pushSignal signalName domainType domainIdx
  readBatch sampler
  sample signalIdx

variable {sampler : CpuSampler} {group pushed : ProfileIOGroup} {config : SignalConfig}
  {signalType other : ProfileSignal} {idx index numCpu : Nat} {signalName : String} {domainType : Domain}
  {domainIdx : Int} {value : ProfileSignal → Nat → Number}

theorem find_some {activeSignal : List SignalConfig} (found : find config activeSignal = some index) :
    activeSignal[index]? = some config := by
  have loop : ∀ (indices : List Nat) (start : Option Nat),
      (∀ place, start = some place → activeSignal[place]? = some config) →
      ∀ place, indices.foldl (fun result idx =>
        if activeSignal[idx]? = some config then some idx else result) start = some place →
          activeSignal[place]? = some config := by
    intro indices
    induction indices with
    | nil => exact fun start known => known
    | cons head rest ih =>
        intro start known
        apply ih
        intro place same
        dsimp only at same
        split at same
        case isTrue here =>
            cases same
            exact here
        case isFalse => exact known place same
  exact loop _ none (fun place same => by cases same) index found

/-- The loop over the CPUs writes all the values of a signal. -/
theorem readCpus_ok (each : ∀ idx < numCpu, signalType.batchValue sampler idx = .ok (value signalType idx)) :
    (readCpus sampler numCpu signalType).run group = .ok () { group with
      perCpuSample := fun other idx =>
        if other = signalType ∧ idx < numCpu then value other idx else group.perCpuSample other idx } := by
  have passes : ∀ idx ∈ List.range numCpu, ∀ state : ProfileIOGroup,
      EStateM.run (do
        let value ← Stateful.ofExcept (signalType.batchValue sampler idx)
        modify (record signalType idx value) : ProfileM Unit) state =
        .ok () (record signalType idx (value signalType idx) state) := by
    intro idx member state
    rw [Stateful.run_bind_ok (Stateful.run_ofExcept_ok (each idx (List.mem_range.mp member)))]
    rfl
  rw [readCpus, Stateful.forM_returns passes]
  congr 1
  clear each passes
  induction numCpu with
  | zero => simp
  | succ numCpu ih =>
      rw [List.range_succ, List.foldl_append, ih, List.foldl_cons, List.foldl_nil, record]
      congr 1
      funext other idx
      by_cases same : other = signalType
      · subst same
        rw [Function.update_self]
        by_cases last : idx = numCpu
        · subst last
          simp
        · rw [Function.update_of_ne last]
          simp only [true_and]
          exact if_congr (by omega) rfl rfl
      · rw [Function.update_of_ne same]
        simp [same]

theorem readCpus_error {reason : ProfileSignalError} (inside : idx < numCpu)
    (failed : signalType.batchValue sampler idx = .error reason) (state : ProfileIOGroup) :
    ∃ reason after, (readCpus sampler numCpu signalType).run state = .error reason after := by
  apply Stateful.forM_throws (List.mem_range.mpr inside)
  intro state
  rw [EStateM.run_bind, Stateful.run_ofExcept_error failed]
  exact ⟨reason, state, rfl⟩

/-- All signals of the batch can be read for all CPUs. -/
def Readable (sampler : CpuSampler) (group : ProfileIOGroup) : Prop :=
  ∀ signalType, group.doRead signalType = true → ∀ idx < group.numCpu,
    ∃ value, signalType.batchValue sampler idx = .ok value

/-- What is read of a signal and a CPU. -/
def valueOf (sampler : CpuSampler) (signalType : ProfileSignal) (idx : Nat) : Number :=
  match signalType.batchValue sampler idx with
  | .ok value => value
  | .error _ => .nan

theorem mem_all : signalType ∈ ProfileSignal.all := by
  cases signalType <;> decide

theorem readTypes_ok (readable : group.Readable sampler) :
    (ProfileSignal.all.forM fun signalType =>
      if group.doRead signalType then readCpus sampler group.numCpu signalType else pure ()).run group =
      .ok () { group with
        perCpuSample := fun signalType idx =>
          if group.doRead signalType = true ∧ idx < group.numCpu then valueOf sampler signalType idx
          else group.perCpuSample signalType idx } := by
  have loop : ∀ (types : List ProfileSignal) (samples : ProfileSignal → Nat → Number),
      (types.forM fun signalType =>
        if group.doRead signalType then readCpus sampler group.numCpu signalType else pure ()).run
          { group with perCpuSample := samples } = .ok () { group with
            perCpuSample := fun signalType idx =>
              if signalType ∈ types ∧ group.doRead signalType = true ∧ idx < group.numCpu
              then valueOf sampler signalType idx else samples signalType idx } := by
    intro types
    induction types with
    | nil => intro samples; simp [EStateM.run, pure, EStateM.pure]
    | cons head rest ih =>
        intro samples
        rw [List.forM_eq_forM, List.forM_cons, EStateM.run_bind]
        by_cases chosen : group.doRead head = true
        case pos =>
            have each : ∀ idx < group.numCpu,
                head.batchValue sampler idx = .ok (valueOf sampler head idx) := by
              intro idx inside
              obtain ⟨value, read⟩ := readable head chosen idx inside
              rw [valueOf, read]
            rw [if_pos chosen, readCpus_ok each]
            refine (ih _).trans ?_
            congr 2
            funext signalType idx
            by_cases same : signalType = head
            · subst same
              by_cases inside : idx < group.numCpu <;> simp [chosen, inside]
            · simp [same]
        case neg =>
            rw [if_neg chosen]
            refine (ih samples).trans ?_
            congr 2
            funext signalType idx
            by_cases same : signalType = head
            · subst same
              simp [chosen]
            · simp [same]
  have whole := loop ProfileSignal.all group.perCpuSample
  simp only [mem_all, true_and] at whole
  exact whole

theorem readBatch_ok (pushed : group.isPushed = true) (readable : group.Readable sampler) :
    (readBatch sampler).run group = .ok () { group with
      isBatchRead := true
      perCpuSample := fun signalType idx =>
        if group.doRead signalType = true ∧ idx < group.numCpu then valueOf sampler signalType idx
        else group.perCpuSample signalType idx } := by
  rw [readBatch, Stateful.run_bind_ok (EStateM.run_get group)]
  rw [if_pos pushed, Stateful.run_bind_ok (readTypes_ok readable)]
  rfl

theorem readBatch_error (pushed : group.isPushed = true) (unreadable : ¬group.Readable sampler) :
    ∃ reason after, (readBatch sampler).run group = .error reason after := by
  simp only [Readable, not_forall] at unreadable
  obtain ⟨signalType, chosen, idx, inside, failed⟩ := unreadable
  have thrown : ∃ reason, signalType.batchValue sampler idx = .error reason := by
    cases read : signalType.batchValue sampler idx with
    | error reason => exact ⟨reason, rfl⟩
    | ok value => exact absurd ⟨value, read⟩ failed
  obtain ⟨reason, thrown⟩ := thrown
  rw [readBatch, Stateful.run_bind_ok (EStateM.run_get group)]
  rw [if_pos pushed, EStateM.run_bind]
  obtain ⟨reason, after, stopped⟩ := @Stateful.forM_throws ProfileSignalError ProfileIOGroup group _
    ProfileSignal.all (fun signalType =>
      if group.doRead signalType then readCpus sampler group.numCpu signalType else pure ()) signalType mem_all
    fun state => by
      simp only [chosen, if_true]
      exact readCpus_error inside thrown state
  rw [stopped]
  exact ⟨reason, after, rfl⟩

theorem checkSignal_inside (accepted : group.checkSignal signalName domainType domainIdx = .ok signalType) :
    0 ≤ domainIdx ∧ domainIdx < group.numCpu := by
  rw [checkSignal] at accepted
  split at accepted
  · cases accepted
  · split at accepted
    · cases accepted
    · split at accepted
      · cases accepted
      · omega

/-- A signal is active and read once it is pushed. -/
theorem pushConfig_ok (inside : 0 ≤ config.domainIdx ∧ config.domainIdx < group.numCpu) :
    ∃ index pushed, (pushConfig config).run group = .ok index pushed ∧
      pushed.activeSignal[index]? = some config ∧ pushed.isPushed = group.isPushed ∧
      pushed.numCpu = group.numCpu ∧ pushed.doRead = Function.update group.doRead config.signalType true := by
  rw [pushConfig, Stateful.run_bind_ok (EStateM.run_get group)]
  cases found : find config group.activeSignal with
  | some index =>
      refine ⟨index, group, rfl, find_some found, rfl, rfl, ?_⟩
      funext other
      by_cases same : other = config.signalType
      · rw [same, Function.update_self]
        exact group.reads _ (List.mem_of_getElem? (find_some found))
      · rw [Function.update_of_ne same]
  | none =>
      refine ⟨group.activeSignal.length, group.activate config inside, ?_, ?_, rfl, rfl, rfl⟩
      · simp only [dif_pos inside]
        rfl
      · rw [activate, List.getElem?_append_right (Nat.le_refl _), Nat.sub_self]
        rfl

theorem pushSignal_eq (fresh : group.isBatchRead = false) :
    (pushSignal signalName domainType domainIdx).run group =
      (Stateful.ofExcept (group.checkSignal signalName domainType domainIdx) >>= fun signalType =>
        pushConfig ⟨signalType, domainIdx⟩ : ProfileM Nat).run { group with isPushed := true } := by
  have first : ¬group.isBatchRead = true := by simp [fresh]
  rw [pushSignal, Stateful.run_bind_ok (EStateM.run_get group)]
  dsimp only
  rw [if_neg first]
  rfl

theorem directValue_error_iff {reason : ProfileSignalError} :
    signalType.directValue sampler domainIdx = .error reason ↔
      signalType.batchValue sampler domainIdx = .error reason := by
  have mapped {Value Result : Type} (result : Except ProfileSignalError Value) (change : Value → Result) :
      result.map change = .error reason ↔ result = .error reason := by
    cases result <;> simp [Except.map]
  cases signalType
  case regionHash => simp only [ProfileSignal.directValue, ProfileSignal.batchValue, mapped]
  case regionHint => simp only [ProfileSignal.directValue, ProfileSignal.batchValue, mapped]
  all_goals rfl

/-- The value of a signal that only the batch takes for none. -/
def Special (sampler : CpuSampler) (domainIdx : Int) (signalType : ProfileSignal) : Prop :=
  (signalType = .regionHash ∧ sampler.cpuRegionHash domainIdx = .ok (BitVec.ofNat 64 regionHashInvalid)) ∨
    (signalType = .regionHint ∧ sampler.cpuHint domainIdx = .ok regionHintInactive)

/-- The two switches give the same just for values that are not special. -/
theorem same_value_iff : signalType.directValue sampler domainIdx = signalType.batchValue sampler domainIdx ↔
    ¬Special sampler domainIdx signalType := by
  have differs {hash special : BitVec 64} : signalOf hash = (if hash = special then .nan else signalOf hash) ↔
      ¬hash = special := by
    by_cases same : hash = special <;> simp [same, signalOf]
  cases signalType
  case regionHash =>
      simp only [ProfileSignal.directValue, ProfileSignal.batchValue, Special]
      cases sampler.cpuRegionHash domainIdx with
      | error reason => simp [Except.map]
      | ok hash => simp [Except.map, ProfileSignal.hashToSignal, differs]
  case regionHint =>
      simp only [ProfileSignal.directValue, ProfileSignal.batchValue, Special]
      cases sampler.cpuHint domainIdx with
      | error reason => simp [Except.map]
      | ok hint => simp [Except.map, ProfileSignal.hintToSignal, differs]
  all_goals exact iff_of_true rfl (by simp [Special])

/-- The sampler throws for the signal and the CPU. -/
def Throws (sampler : CpuSampler) (domainIdx : Int) (signalType : ProfileSignal) : Prop :=
  ∃ reason, signalType.batchValue sampler domainIdx = .error reason

theorem readable_iff : group.Readable sampler ↔
    ∀ signalType, group.doRead signalType = true → ∀ idx < group.numCpu, ¬Throws sampler idx signalType := by
  have value_iff (signalType : ProfileSignal) (idx : Nat) :
      (∃ value, signalType.batchValue sampler idx = .ok value) ↔ ¬Throws sampler idx signalType := by
    rw [Throws]
    cases signalType.batchValue sampler idx <;> simp
  simp only [Readable, value_iff]

/-- Once the signal is pushed, the batch gives what it reads of the signal, or throws where it cannot read
some signal for some CPU. -/
theorem readInBatch_eq (fresh : group.isBatchRead = false)
    (accepted : group.checkSignal signalName domainType domainIdx = .ok signalType) :
    ((∀ other, other = signalType ∨ group.doRead other = true → ∀ idx < group.numCpu, ¬Throws sampler idx other) →
        (readInBatch sampler signalName domainType domainIdx).run' group =
          (signalType.batchValue sampler domainIdx).toOption) ∧
      (¬(∀ other, other = signalType ∨ group.doRead other = true → ∀ idx < group.numCpu,
          ¬Throws sampler idx other) →
        (readInBatch sampler signalName domainType domainIdx).run' group = none) := by
  have inside := checkSignal_inside accepted
  obtain ⟨index, pushed, done, active, isPushed, numCpu, doRead⟩ :=
    @pushConfig_ok { group with isPushed := true } ⟨signalType, domainIdx⟩ inside
  have began : (readInBatch sampler signalName domainType domainIdx).run group =
      (readBatch sampler >>= fun _ => sample index).run pushed := by
    rw [readInBatch, EStateM.run_bind, pushSignal_eq fresh,
      Stateful.run_bind_ok (Stateful.run_ofExcept_ok accepted), done]
  have chosen (other : ProfileSignal) : pushed.doRead other = true ↔
      other = signalType ∨ group.doRead other = true := by
    rw [doRead]
    by_cases same : other = signalType
    · simp [same]
    · simp [same]
  have readable : pushed.Readable sampler ↔ ∀ other, other = signalType ∨ group.doRead other = true →
      ∀ idx < group.numCpu, ¬Throws sampler idx other := by
    rw [readable_iff, numCpu]
    simp only [chosen]
  rw [← readable]
  constructor
  · intro read
    have length := (List.getElem?_eq_some_iff.mp active).1
    obtain ⟨value, batch⟩ := read signalType ((chosen signalType).mpr (.inl rfl)) domainIdx.toNat
      (by rw [numCpu]; dsimp only; omega)
    have place : (domainIdx.toNat : Int) = domainIdx := Int.toNat_of_nonneg inside.1
    rw [place] at batch
    have known : pushed.doRead signalType = true ∧ domainIdx.toNat < pushed.numCpu := by
      rw [chosen, numCpu]
      exact ⟨.inl rfl, by dsimp only; omega⟩
    have sampled : (readInBatch sampler signalName domainType domainIdx).run group = .ok value { pushed with
        isBatchRead := true
        perCpuSample := fun signalType idx =>
          if pushed.doRead signalType = true ∧ idx < pushed.numCpu then valueOf sampler signalType idx
          else pushed.perCpuSample signalType idx } := by
      rw [began, Stateful.run_bind_ok (readBatch_ok isPushed read), sample,
        Stateful.run_bind_ok (EStateM.run_get _)]
      dsimp only
      rw [if_neg (by omega), if_neg (by simp), Int.toNat_natCast, active]
      dsimp only
      rw [if_pos known, valueOf, place, batch]
      rfl
    rw [Stateful.value_of_ok sampled, batch]
    rfl
  · intro unread
    obtain ⟨reason, after, thrown⟩ := readBatch_error isPushed unread
    have stopped : (readInBatch sampler signalName domainType domainIdx).run group = .error reason after := by
      rw [began, EStateM.run_bind, thrown]
    exact Stateful.value_of_error stopped

theorem readInBatch_refused {reason : ProfileSignalError} (fresh : group.isBatchRead = false)
    (refused : group.checkSignal signalName domainType domainIdx = .error reason) :
    (readInBatch sampler signalName domainType domainIdx).run' group = none := by
  have stopped : (readInBatch sampler signalName domainType domainIdx).run group =
      .error reason { group with isPushed := true } := by
    rw [readInBatch, EStateM.run_bind, pushSignal_eq fresh, EStateM.run_bind,
      Stateful.run_ofExcept_error refused]
  exact Stateful.value_of_error stopped

/-- Both paths give the same for an accepted signal: the sampler throws for it, or the value is not special
and the sampler throws for none of the signals in the batch. -/
def Agrees (sampler : CpuSampler) (group : ProfileIOGroup) (domainIdx : Int) (signalType : ProfileSignal) : Prop :=
  Throws sampler domainIdx signalType ∨ (¬Special sampler domainIdx signalType ∧
    ∀ other, other = signalType ∨ group.doRead other = true → ∀ idx < group.numCpu, ¬Throws sampler idx other)

/-- A signal is the same when it is read at once and when it is pushed, read in a batch and sampled, just
when it is not accepted or the paths agree on it. -/
theorem readSignal_eq_readInBatch_iff (sampler : CpuSampler) (group : ProfileIOGroup)
    (fresh : group.isBatchRead = false) (signalName : String) (domainType : Domain) (domainIdx : Int) :
    (group.readSignal sampler signalName domainType domainIdx).toOption =
        (readInBatch sampler signalName domainType domainIdx).run' group ↔
      ∀ signalType, group.checkSignal signalName domainType domainIdx = .ok signalType →
        Agrees sampler group domainIdx signalType := by
  cases accepted : group.checkSignal signalName domainType domainIdx with
  | error reason =>
      rw [readInBatch_refused fresh accepted, readSignal, accepted]
      simp [bind, Except.bind, Except.toOption]
  | ok signalType =>
      have direct : group.readSignal sampler signalName domainType domainIdx =
          signalType.directValue sampler domainIdx := by
        rw [readSignal, accepted]
        rfl
      have here := checkSignal_inside accepted
      have place : (domainIdx.toNat : Int) = domainIdx := Int.toNat_of_nonneg here.1
      have others := @readInBatch_eq sampler group signalType signalName domainType domainIdx fresh accepted
      simp only [Except.ok.injEq, forall_eq']
      rw [direct, Agrees]
      cases batch : signalType.batchValue sampler domainIdx with
      | error reason =>
          have throws : Throws sampler domainIdx signalType := ⟨reason, batch⟩
          have stopped : ¬∀ other, other = signalType ∨ group.doRead other = true → ∀ idx < group.numCpu,
              ¬Throws sampler idx other := by
            intro none
            apply none signalType (.inl rfl) domainIdx.toNat (by omega)
            rwa [place]
          rw [others.2 stopped, directValue_error_iff.mpr batch]
          simp [throws, Except.toOption]
      | ok value =>
          have returned : ∃ other, signalType.directValue sampler domainIdx = .ok other := by
            cases result : signalType.directValue sampler domainIdx with
            | error reason =>
                rw [directValue_error_iff, batch] at result
                cases result
            | ok other => exact ⟨other, rfl⟩
          obtain ⟨other, result⟩ := returned
          have calm : ¬Throws sampler domainIdx signalType := by
            rintro ⟨reason, thrown⟩
            rw [batch] at thrown
            cases thrown
          by_cases readable : ∀ other, other = signalType ∨ group.doRead other = true → ∀ idx < group.numCpu,
              ¬Throws sampler idx other
          · rw [others.1 readable, ← same_value_iff, result, batch]
            constructor
            · intro same
              exact .inr ⟨congrArg Except.ok (Option.some.inj same), readable⟩
            · rintro (throws | ⟨same, _⟩)
              · exact absurd throws calm
              · rw [same]
          · rw [others.2 readable, result]
            simp only [Except.toOption, reduceCtorEq, calm, readable, and_false, or_self]

/-- A node of two CPUs of which the first is in a region and the second is not used. -/
def halfUsed : CpuSampler where
  numCpu := 2
  status := some ⟨2, fun _ => ⟨-1, 0, 0, 0, 0⟩,
    fun cpu => if cpu = 0 then ⟨0, 2, 7, 10, 5⟩ else ⟨-1, 256, 0, 0, 0⟩⟩
  hintTime _ _ := some (.value 1)
  isCpuActive cpu := cpu = 0

theorem halfUsed_region : ((new 2).readSignal halfUsed "REGION_HASH" .cpu 0).toOption =
    (readInBatch halfUsed "REGION_HASH" .cpu 0).run' (new 2) :=
  (readSignal_eq_readInBatch_iff halfUsed (new 2) rfl "REGION_HASH" .cpu 0).mpr (by
    intro signalType accepted
    have hash : signalType = .regionHash := by
      have checked : (new 2).checkSignal "REGION_HASH" .cpu 0 = .ok .regionHash := by decide +kernel
      rw [checked] at accepted
      exact (Except.ok.inj accepted).symm
    subst hash
    refine .inr ⟨?_, ?_⟩
    · rintro (⟨_, unused⟩ | ⟨other, _⟩)
      · exact absurd unused (by decide +kernel)
      · cases other
    · rintro other (rfl | read) idx inside ⟨reason, thrown⟩
      · have both : idx = 0 ∨ idx = 1 := by
          change idx < 2 at inside
          omega
        rcases both with rfl | rfl
        · cases thrown
        · cases thrown
      · cases read)

/-- The region hash of an unused CPU is zero when it is read at once. -/
theorem not_readSignal_eq_readInBatch :
    ¬∀ (sampler : CpuSampler) (group : ProfileIOGroup), group.isBatchRead = false →
      ∀ (signalName : String) (domainType : Domain) (domainIdx : Int),
        (group.readSignal sampler signalName domainType domainIdx).toOption =
          (readInBatch sampler signalName domainType domainIdx).run' group := by
  intro all
  have same := all halfUsed (new 2) rfl "REGION_HASH" .cpu 1
  exact absurd same (by decide +kernel)

end ProfileIOGroup

end Geopm
