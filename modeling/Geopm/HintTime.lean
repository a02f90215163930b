import Geopm.ApplicationSampler
import Geopm.ApplicationStatus
import Geopm.Library.Assoc
import Geopm.Library.Number
import Geopm.Library.Stateful

namespace Geopm

/-! The time that `ApplicationSampler` credits to the hints of each CPU. -/

/-- The keys of `m_hint_time_init`. -/
def regionHints : List (BitVec 64) :=
  [regionHintUnset, regionHintUnknown, regionHintCompute, regionHintMemory, regionHintNetwork,
    regionHintIo, regionHintSerial, regionHintParallel, regionHintIgnore, regionHintInactive]

/-- `m_hint_time_init`. -/
def hintTimeInit : List (BitVec 64 × ℚ) := regionHints.map fun hint => (hint, 0)

inductive SamplerError where
  /-- "cannot read process info before connect()." -/
  | beforeConnect
  /-- `std::out_of_range`, of the hints of a CPU. -/
  | outOfRange
  /-- "cpu_idx is out of range: ". -/
  | cpuOutOfRange (cpu : Int)
  /-- "hint is invalid: ". -/
  | invalidHint (hint : BitVec 64)
  | status (reason : StatusError)
  | record (reason : ValidateError)
deriving Repr, DecidableEq

/-- `ApplicationSamplerImp`, with what its updates read and write of the hints. -/
structure HintSampler (State : Type) where
  numCpu : Nat
  status : Option ApplicationStatus
  hintTime : Nat → List (BitVec 64 × ℚ)
  isCpuActive : Nat → Bool
  updateTime : Time
  isFirstUpdate : Bool
  hintLast : Nat → BitVec 64
  records : ApplicationSampler State

namespace HintSampler

variable {State : Type}

/-- The constructor. -/
def new (numCpu : Nat) (status : Option ApplicationStatus) (isCpuActive : Nat → Bool)
    (records : ApplicationSampler State) : HintSampler State where
  numCpu
  status
  hintTime _ := hintTimeInit
  isCpuActive
  updateTime := ⟨0, 0⟩
  isFirstUpdate := true
  hintLast _ := regionHintUnset
  records

/-- The assignment of `get_hint` to `m_hint_last`. -/
def takeHint (status : ApplicationStatus) (cpu : Nat) : EStateM SamplerError (HintSampler State) Unit :=
  match status.getHint cpu with
  | .error reason => throw (.status reason)
  | .ok hint => modify fun sampler =>
      { sampler with hintLast := Function.update sampler.hintLast cpu hint }

/-- `m_hint_time[cpu_idx].at(m_hint_last[cpu_idx]) += time_delta`. -/
def creditHint (timeDelta : ℚ) (cpu : Nat) : EStateM SamplerError (HintSampler State) Unit := do
  let sampler ← get
  match Assoc.lookup (sampler.hintLast cpu) (sampler.hintTime cpu) with
  | none => throw .outOfRange
  | some _ =>
      let credited := Assoc.adjust (sampler.hintLast cpu) (· + timeDelta) (sampler.hintTime cpu)
      set { sampler with hintTime := Function.update sampler.hintTime cpu credited }

/-- The part of `update` for the records of one process. What it has dumped before a check throws is left
out. -/
def updateProcess (key : Int) : EStateM SamplerError (HintSampler State) Unit := do
  let sampler ← get
  match sampler.records.updateProcess key with
  | .error reason => throw (.record reason)
  | .ok records => set { sampler with records }

/-- The record part of `update`. -/
def updateRecords : EStateM SamplerError (HintSampler State) Unit := do
  modify fun sampler => { sampler with
    records := { sampler.records with recordBuffer := [], shortRegionBuffer := [] } }
  let sampler ← get
  sampler.records.keys.forM updateProcess

/-- The part of `update` for the hints. -/
def updateHints (status : ApplicationStatus) (currTime : Time) :
    EStateM SamplerError (HintSampler State) Unit := do
  let sampler ← get
  if sampler.isFirstUpdate then
    (List.range sampler.numCpu).forM (takeHint status)
  else
    let timeDelta := timeDiff sampler.updateTime currTime
    (List.range sampler.numCpu).forM fun cpu => do
      creditHint timeDelta cpu
      takeHint status cpu

/-- The part of `update` after the check of the status, whose cache is up to date. -/
def updateConnected (status : ApplicationStatus) (currTime : Time) :
    EStateM SamplerError (HintSampler State) Unit := do
  modify fun sampler => { sampler with status := some status }
  updateHints status currTime
  modify fun sampler => { sampler with isFirstUpdate := false, updateTime := currTime }
  updateRecords

/-- `update`. -/
def update (currTime : Time) : EStateM SamplerError (HintSampler State) Unit := do
  let sampler ← get
  match sampler.status with
  | none => throw .beforeConnect
  | some status => updateConnected status.updateCache currTime

/-- `cpu_hint_time`. -/
def cpuHintTime (cpu : Int) (hint : BitVec 64) (sampler : HintSampler State) :
    Except SamplerError Number :=
  if cpu < 0 ∨ cpu ≥ sampler.numCpu then .error (.cpuOutOfRange cpu)
  else if sampler.isCpuActive cpu.toNat then
    match Assoc.lookup hint (sampler.hintTime cpu.toNat) with
    | none => .error (.invalidHint hint)
    | some time => .ok (.value time)
  else .ok .nan

/-- A call of `update`, with what the application has left in its shared memory. -/
structure UpdateCall where
  currTime : Time
  buffer : Int → CpuStatus
  logs : Int → RecordLog

/-- The hint that a CPU has in the shared memory. -/
def UpdateCall.hintOf (cpu : Nat) (call : UpdateCall) : BitVec 64 :=
  (call.buffer cpu).hint.setWidth 64 <<< 32

/-- The shared memory at the time of a call. -/
def share (call : UpdateCall) (sampler : HintSampler State) : HintSampler State :=
  { sampler with
    status := sampler.status.map fun status => { status with buffer := call.buffer }
    records := { sampler.records with processMap := fun key =>
      { sampler.records.processMap key with recordLog := call.logs key } } }

/-- The sampler after a call, which may have thrown. -/
def afterCall (sampler : HintSampler State) (call : UpdateCall) : HintSampler State :=
  Stateful.leaves (update call.currTime) (sampler.share call)

/-- The time between calls during which a hint was in force. It is in force from the call that reads it to
the next one. -/
def timeIn (cpu : Nat) (hint : BitVec 64) : List UpdateCall → ℚ
  | prev :: next :: rest =>
      (if prev.hintOf cpu = hint then timeDiff prev.currTime next.currTime else 0) +
        timeIn cpu hint (next :: rest)
  | _ => 0

section Lists

variable {calls : List UpdateCall} {first last prev next : UpdateCall} {cpu : Nat} {hint : BitVec 64}

theorem timeIn_concat (latest : calls.getLast? = some prev) :
    timeIn cpu hint (calls ++ [next]) = timeIn cpu hint calls +
      if prev.hintOf cpu = hint then timeDiff prev.currTime next.currTime else 0 := by
  induction calls with
  | nil => cases latest
  | cons head rest ih =>
      cases rest with
      | nil =>
          rw [List.getLast?_singleton, Option.some.injEq] at latest
          simp [latest, timeIn]
      | cons second rest =>
          rw [List.cons_append, List.cons_append, timeIn, ← List.cons_append, ih latest, timeIn, add_assoc]

/-- One of the hints has the whole of an interval. -/
theorem sum_single {hints : List (BitVec 64)} (amount : ℚ) (distinct : hints.Nodup) (member : hint ∈ hints) :
    (hints.map fun other => if hint = other then amount else 0).sum = amount := by
  induction hints with
  | nil => cases member
  | cons head rest ih =>
      rw [List.nodup_cons] at distinct
      rw [List.map_cons, List.sum_cons]
      by_cases same : hint = head
      · have others : rest.map (fun other => if hint = other then amount else 0) = rest.map fun _ => 0 := by
          apply List.map_congr_left
          intro other later
          rw [if_neg]
          intro equal
          rw [← same, equal] at distinct
          exact distinct.1 later
        rw [if_pos same, others]
        simp
      · rw [if_neg same, zero_add, ih distinct.2 ((List.mem_cons.mp member).resolve_left same)]

/-- The hints share the time from the first call to the last. -/
theorem sum_timeIn (valid : ∀ call ∈ calls, call.hintOf cpu ∈ regionHints)
    (begins : calls.head? = some first) (ends : calls.getLast? = some last) :
    (regionHints.map fun hint => timeIn cpu hint calls).sum = timeDiff first.currTime last.currTime := by
  induction calls using List.reverseRecOn generalizing last with
  | nil => cases begins
  | append_singleton calls call ih =>
      obtain rfl : call = last := by simpa using ends
      cases latest : calls.getLast? with
      | none =>
          obtain rfl := List.getLast?_eq_none_iff.mp latest
          obtain rfl : call = first := by simpa using begins
          simp [timeIn, timeDiff]
      | some prev =>
          have some_before : calls ≠ [] := List.ne_nil_of_mem (List.mem_of_getLast? latest)
          have earlier := ih (fun other member => valid other (List.mem_append_left _ member))
            (by rw [← begins, List.head?_append_of_ne_nil _ some_before]) latest
          have member : prev.hintOf cpu ∈ regionHints :=
            valid prev (List.mem_append_left _ (List.mem_of_getLast? latest))
          have whole := sum_single (timeDiff prev.currTime call.currTime) (by decide : regionHints.Nodup) member
          simp only [timeIn_concat latest, List.sum_map_add, earlier, whole]
          rw [← timeDiff_sub ⟨0, 0⟩, ← timeDiff_sub ⟨0, 0⟩ prev.currTime, ← timeDiff_sub ⟨0, 0⟩ first.currTime]
          ring

end Lists

section Steps

variable {State : Type} {sampler before after : HintSampler State} {status : ApplicationStatus} {cpu numCpu : Nat}
  {call : UpdateCall} {calls : List UpdateCall} {hint : BitVec 64} {isCpuActive : Nat → Bool}

theorem regionHints_masked : ∀ hint ∈ regionHints, hint &&& ~~~regionHintMask = 0 := by
  simp only [regionHints, List.forall_mem_cons, List.not_mem_nil, false_imp_iff, implies_true, and_true]
  decide

theorem getHint_eq (known : cpu < status.numCpu)
    (valid : (status.cache cpu).hint.setWidth 64 <<< 32 ∈ regionHints) :
    status.getHint cpu = .ok ((status.cache cpu).hint.setWidth 64 <<< 32) := by
  rw [ApplicationStatus.getHint, ApplicationStatus.checked_known ⟨by omega, by omega⟩]
  exact if_neg (not_not.mpr (regionHints_masked _ valid))

/-- The records leave the hints as they are. -/
def SameHints (before after : HintSampler State) : Prop := ∃ records, after = { before with records }

theorem updateProcess_ok {key : Int} {next : ApplicationSampler State}
    (updated : sampler.records.updateProcess key = .ok next) :
    (updateProcess key).run sampler = .ok () { sampler with records := next } := by
  change (match sampler.records.updateProcess key with
    | .error reason => throw (.record reason)
    | .ok records => set { sampler with records } : EStateM SamplerError (HintSampler State) Unit).run
      sampler = _
  rw [updated]
  rfl

theorem updateProcess_error {key : Int} {reason : ValidateError}
    (thrown : sampler.records.updateProcess key = .error reason) :
    (updateProcess key).run sampler = .error (.record reason) sampler := by
  change (match sampler.records.updateProcess key with
    | .error reason => throw (.record reason)
    | .ok records => set { sampler with records } : EStateM SamplerError (HintSampler State) Unit).run
      sampler = _
  rw [thrown]
  rfl

theorem updateProcess_frame {key : Int} (same : SameHints before sampler) :
    SameHints before (Stateful.leaves (updateProcess key) sampler) := by
  obtain ⟨records, rfl⟩ := same
  cases updated : records.updateProcess key with
  | error reason =>
      rw [Stateful.leaves_of_error (updateProcess_error updated)]
      exact ⟨records, rfl⟩
  | ok next =>
      rw [Stateful.leaves_of_ok (updateProcess_ok updated)]
      exact ⟨next, rfl⟩

theorem updateProcesses_frame {keys : List Int} (same : SameHints before sampler) :
    SameHints before (Stateful.leaves (keys.forM updateProcess) sampler) := by
  induction keys generalizing sampler with
  | nil => exact same
  | cons key rest ih =>
      rw [List.forM_eq_forM, List.forM_cons]
      exact Stateful.leaves_bind (SameHints before) (updateProcess_frame same)
        fun _ _ _ framed => ih framed

theorem updateRecords_frame : SameHints sampler (Stateful.leaves updateRecords sampler) := by
  apply Stateful.leaves_bind (SameHints sampler)
  · exact ⟨_, rfl⟩
  · intro _ middle _ framed
    exact Stateful.leaves_bind (SameHints sampler) framed fun _ _ _ framed => updateProcesses_frame framed

/-- Where no check throws, the records are those of `ApplicationSampler.update`. -/
theorem updateRecords_ok {records : ApplicationSampler State} (updated : sampler.records.update = .ok records) :
    updateRecords.run sampler = .ok () { sampler with records } := by
  have loop : ∀ (keys : List Int) (start : ApplicationSampler State),
      keys.foldlM ApplicationSampler.updateProcess start = .ok records →
        (keys.forM updateProcess).run { sampler with records := start } = .ok () { sampler with records } := by
    intro keys
    induction keys with
    | nil =>
        intro start done
        cases done
        rfl
    | cons key rest ih =>
        intro start done
        rw [List.foldlM_cons] at done
        obtain ⟨next, first, others⟩ := Transition.ok_of_bind done
        have ran := @updateProcess_ok _ { sampler with records := start } _ _ first
        rw [Stateful.run_forM_cons ran]
        exact ih next others
  exact loop _ _ updated

/-- The hints that a call takes from the status of each CPU. -/
def taken (status : ApplicationStatus) (cpu : Nat) : BitVec 64 := (status.cache cpu).hint.setWidth 64 <<< 32

/-- A pass of each loop over the CPUs: the times of the last hint are changed, and the next is taken. -/
def Passes (times : BitVec 64 → List (BitVec 64 × ℚ) → List (BitVec 64 × ℚ)) (status : ApplicationStatus)
    (before : HintSampler State) (body : Nat → EStateM SamplerError (HintSampler State) Unit) : Prop :=
  ∀ cpu < before.numCpu, ∀ sampler, sampler.hintTime cpu = before.hintTime cpu →
    sampler.hintLast cpu = before.hintLast cpu → (body cpu).run sampler = .ok () { sampler with
      hintTime := Function.update sampler.hintTime cpu (times (before.hintLast cpu) (before.hintTime cpu))
      hintLast := Function.update sampler.hintLast cpu (taken status cpu) }

/-- The sampler after passes for some CPUs. -/
structure Swept (times : BitVec 64 → List (BitVec 64 × ℚ) → List (BitVec 64 × ℚ))
    (status : ApplicationStatus) (before : HintSampler State) (count : Nat) (after : HintSampler State) : Prop where
  frame : after = { before with hintTime := after.hintTime, hintLast := after.hintLast }
  passed : ∀ cpu < count, after.hintTime cpu = times (before.hintLast cpu) (before.hintTime cpu) ∧
    after.hintLast cpu = taken status cpu
  ahead : ∀ cpu, count ≤ cpu → after.hintTime cpu = before.hintTime cpu ∧
    after.hintLast cpu = before.hintLast cpu

variable {times : BitVec 64 → List (BitVec 64 × ℚ) → List (BitVec 64 × ℚ)}
  {body : Nat → EStateM SamplerError (HintSampler State) Unit}

theorem Passes.swept (passes : Passes times status before body) :
    ∃ after, ((List.range before.numCpu).forM body).run before = .ok () after ∧
      Swept times status before before.numCpu after := by
  apply Stateful.forM_range
  · intro cpu less sampler swept
    have current := swept.ahead cpu (Nat.le_refl cpu)
    refine ⟨_, passes cpu less sampler current.1 current.2, ?_, ?_, ?_⟩
    · rw [swept.frame]
    · intro other before
      by_cases same : other = cpu
      · simp [same]
      · simp only [Function.update_of_ne same]
        exact swept.passed other (by omega)
    · intro other later
      have different : other ≠ cpu := by omega
      simp only [Function.update_of_ne different]
      exact swept.ahead other (by omega)
  · exact ⟨rfl, fun cpu less => absurd less (Nat.not_lt_zero cpu), fun _ _ => ⟨rfl, rfl⟩⟩

/-- The loop of the first update. -/
theorem takeHint_passes (valid : ∀ cpu < before.numCpu, taken status cpu ∈ regionHints)
    (same : status.numCpu = before.numCpu) :
    Passes (fun _ times => times) status before (takeHint status) := by
  intro cpu less sampler sameTime sameHint
  have read := getHint_eq (by omega) (valid cpu less)
  rw [takeHint, read, ← sameTime, Function.update_eq_self]
  rfl

/-- The loop of the later updates. -/
theorem creditHint_passes {timeDelta : ℚ} (valid : ∀ cpu < before.numCpu, taken status cpu ∈ regionHints)
    (same : status.numCpu = before.numCpu)
    (known : ∀ cpu < before.numCpu, ∃ time, Assoc.lookup (before.hintLast cpu) (before.hintTime cpu) = some time) :
    Passes (fun hint => Assoc.adjust hint (· + timeDelta)) status before (fun cpu => do
      creditHint timeDelta cpu
      takeHint status cpu) := by
  intro cpu less sampler sameTime sameHint
  obtain ⟨time, found⟩ := known cpu less
  have credited : (creditHint timeDelta cpu).run sampler = .ok () { sampler with
      hintTime := Function.update sampler.hintTime cpu
        (Assoc.adjust (before.hintLast cpu) (· + timeDelta) (before.hintTime cpu)) } := by
    let credit := Assoc.adjust (sampler.hintLast cpu) (· + timeDelta) (sampler.hintTime cpu)
    change (match Assoc.lookup (sampler.hintLast cpu) (sampler.hintTime cpu) with
      | none => throw .outOfRange
      | some _ => set { sampler with hintTime := Function.update sampler.hintTime cpu credit } :
        EStateM SamplerError (HintSampler State) Unit).run sampler = _
    simp only [credit, sameTime, sameHint, found]
    rfl
  refine (Stateful.run_bind_ok credited).trans ?_
  rw [takeHint, getHint_eq (by omega) (valid cpu less)]
  rfl

theorem updateHints_eq {currTime : Time} : (updateHints status currTime).run sampler =
    (if sampler.isFirstUpdate then (List.range sampler.numCpu).forM (takeHint status)
    else (List.range sampler.numCpu).forM (fun cpu => do
      creditHint (timeDiff sampler.updateTime currTime) cpu
      takeHint status cpu)).run sampler := rfl

theorem update_eq {currTime : Time} (connected : sampler.status = some status) :
    (update currTime).run sampler = (updateConnected status.updateCache currTime).run sampler := by
  obtain ⟨numCpu, status, hintTime, isCpuActive, updateTime, isFirstUpdate, hintLast, records⟩ := sampler
  simp only at connected
  subst connected
  rfl

theorem updateConnected_run {currTime : Time}
    (ran : (updateHints status currTime).run { sampler with status := some status } = .ok () after) :
    (updateConnected status currTime).run sampler =
      updateRecords.run { after with isFirstUpdate := false, updateTime := currTime } := by
  have cached : (modify fun sampler : HintSampler State => { sampler with status := some status } :
      EStateM SamplerError (HintSampler State) Unit).run sampler =
        .ok () { sampler with status := some status } := rfl
  rw [updateConnected, Stateful.run_bind_ok cached, Stateful.run_bind_ok ran]
  rfl

/-- What a sampler holds after some calls. -/
structure Credited (numCpu : Nat) (isCpuActive : Nat → Bool) (calls : List UpdateCall)
    (sampler : HintSampler State) : Prop where
  sameNum : sampler.numCpu = numCpu
  active : sampler.isCpuActive = isCpuActive
  connected : ∃ status, sampler.status = some status ∧ status.numCpu = numCpu
  first : sampler.isFirstUpdate = calls.isEmpty
  latest : ∀ last, calls.getLast? = some last → sampler.updateTime = last.currTime ∧
    ∀ cpu < numCpu, sampler.hintLast cpu = last.hintOf cpu
  times : ∀ cpu < numCpu, sampler.hintTime cpu = regionHints.map fun hint => (hint, timeIn cpu hint calls)

/-- Every hint that the calls find is one of those of the map. -/
def HintsValid (numCpu : Nat) (calls : List UpdateCall) : Prop :=
  ∀ call ∈ calls, ∀ cpu < numCpu, call.hintOf cpu ∈ regionHints

theorem Credited.afterCall (credited : Credited numCpu isCpuActive calls sampler)
    (valid : HintsValid numCpu (calls ++ [call])) :
    Credited numCpu isCpuActive (calls ++ [call]) (sampler.afterCall call) := by
  obtain ⟨status, connected, sameNum⟩ := credited.connected
  -- the status with the shared memory of the call in its cache
  let read : ApplicationStatus := ⟨status.numCpu, call.buffer, call.buffer⟩
  let shared := { sampler.share call with status := some read }
  have sharedNum : shared.numCpu = numCpu := credited.sameNum
  have takes : ∀ cpu < shared.numCpu, taken read cpu ∈ regionHints := fun cpu less =>
    valid call (by simp) cpu (sharedNum ▸ less)
  have readNum : read.numCpu = shared.numCpu := sameNum.trans sharedNum.symm
  have shareConnected : (sampler.share call).status = some { status with buffer := call.buffer } := by
    rw [share, connected]
    rfl
  obtain ⟨after, ran, times, swept, changed⟩ : ∃ after,
      (update call.currTime).run (sampler.share call) =
        updateRecords.run { after with isFirstUpdate := false, updateTime := call.currTime } ∧
      ∃ times, Swept times read shared shared.numCpu after ∧ ∀ cpu < numCpu,
        times (shared.hintLast cpu) (shared.hintTime cpu) =
          regionHints.map fun hint => (hint, timeIn cpu hint (calls ++ [call])) := by
    cases latest : calls.getLast? with
    | none =>
        obtain rfl := List.getLast?_eq_none_iff.mp latest
        obtain ⟨after, ran, swept⟩ := (takeHint_passes takes readNum).swept
        have hints : (updateHints read call.currTime).run shared = .ok () after := by
          have first : shared.isFirstUpdate = true := credited.first
          rw [updateHints_eq, if_pos first]
          exact ran
        refine ⟨after, (update_eq shareConnected).trans (updateConnected_run hints), _, swept, ?_⟩
        exact fun cpu less => credited.times cpu less
    | some last =>
        obtain ⟨lastTime, lastHint⟩ := credited.latest last latest
        have known : ∀ cpu < shared.numCpu, ∃ time,
            Assoc.lookup (shared.hintLast cpu) (shared.hintTime cpu) = some time := by
          intro cpu less
          rw [sharedNum] at less
          have member : shared.hintLast cpu ∈ regionHints := by
            rw [show shared.hintLast cpu = _ from lastHint cpu less]
            exact valid last (List.mem_append_left _ (List.mem_of_getLast? latest)) cpu less
          rw [show shared.hintTime cpu = _ from credited.times cpu less]
          exact ⟨_, Assoc.lookup_tabulate _ member⟩
        have later : shared.isFirstUpdate = false := by
          refine credited.first.trans ?_
          cases calls with
          | nil => cases latest
          | cons => rfl
        obtain ⟨after, ran, swept⟩ := (creditHint_passes takes readNum known).swept
        have hints : (updateHints read call.currTime).run shared = .ok () after := by
          rw [updateHints_eq, if_neg (by simp [later])]
          exact ran
        refine ⟨after, (update_eq shareConnected).trans (updateConnected_run hints), _, swept, ?_⟩
        intro cpu less
        rw [show shared.hintTime cpu = _ from credited.times cpu less,
          show shared.hintLast cpu = _ from lastHint cpu less, Assoc.adjust_tabulate]
        apply List.map_congr_left
        intro hint _
        rw [timeIn_concat latest, show shared.updateTime = _ from lastTime]
        by_cases same : hint = last.hintOf cpu
        · simp [same]
        · simp [same, Ne.symm same]
  obtain ⟨records, framed⟩ := @updateRecords_frame _
    { after with isFirstUpdate := false, updateTime := call.currTime }
  have final : sampler.afterCall call =
      { after with isFirstUpdate := false, updateTime := call.currTime, records } := by
    rw [HintSampler.afterCall, Stateful.leaves, ran, ← Stateful.leaves, framed]
  have frame := swept.frame
  rw [final]
  constructor
  case sameNum => exact (congrArg HintSampler.numCpu frame).trans sharedNum
  case active => exact (congrArg HintSampler.isCpuActive frame).trans credited.active
  case connected => exact ⟨read, congrArg HintSampler.status frame, sameNum⟩
  case first => simp
  case latest =>
      intro last last_eq
      obtain rfl : call = last := by simpa using last_eq
      exact ⟨rfl, fun cpu less => (swept.passed cpu (sharedNum.symm ▸ less)).2⟩
  case times =>
      intro cpu less
      exact (swept.passed cpu (sharedNum.symm ▸ less)).1.trans (changed cpu less)

theorem credited_run (connected : status.numCpu = numCpu) (records : ApplicationSampler State)
    (valid : HintsValid numCpu calls) :
    Credited numCpu isCpuActive calls
      (Transition.run HintSampler.afterCall (new numCpu (some status) isCpuActive records) calls) := by
  induction calls using List.reverseRecOn with
  | nil =>
      refine ⟨rfl, rfl, ⟨status, rfl, connected⟩, rfl, fun _ last_eq => ?_, fun _ _ => rfl⟩
      cases last_eq
  | append_singleton calls call ih =>
      rw [Transition.run_concat]
      exact (ih fun other member => valid other (List.mem_append_left _ member)).afterCall valid

end Steps

/-- However the updates end, each interval between two of them is credited to the hint that the first of them
has read, and the hints of a CPU share the time from the first update to the last. -/
theorem hintTime_conserved {State : Type} (status : ApplicationStatus) (isCpuActive : Nat → Bool)
    (records : ApplicationSampler State) (calls : List UpdateCall) (valid : HintsValid status.numCpu calls) :
    let sampler := Transition.run afterCall (new status.numCpu (some status) isCpuActive records) calls
    ∀ cpu < status.numCpu,
      (∀ first last, calls.head? = some first → calls.getLast? = some last →
        ((sampler.hintTime cpu).map Prod.snd).sum = timeDiff first.currTime last.currTime) ∧
      (sampler.hintTime cpu).map Prod.fst = regionHints ∧
      ∀ hint ∈ regionHints, Assoc.lookup hint (sampler.hintTime cpu) = some (timeIn cpu hint calls) ∧
        (isCpuActive cpu → sampler.cpuHintTime cpu hint = .ok (.value (timeIn cpu hint calls))) := by
  intro sampler cpu less
  have credited : Credited status.numCpu isCpuActive calls sampler := credited_run rfl records valid
  have times := credited.times cpu less
  have found : ∀ hint ∈ regionHints, Assoc.lookup hint (sampler.hintTime cpu) =
      some (timeIn cpu hint calls) := by
    intro hint member
    rw [times]
    exact Assoc.lookup_tabulate _ member
  refine ⟨?_, ?_, fun hint member => ⟨found hint member, fun active => ?_⟩⟩
  · intro first last begins ends
    rw [times, List.map_map]
    exact sum_timeIn (fun call member => valid call member cpu less) begins ends
  · rw [times, List.map_map]
    exact List.map_id _
  · have inside : ¬ ((cpu : Int) < 0 ∨ (cpu : Int) ≥ sampler.numCpu) := by
      rw [credited.sameNum]
      omega
    have running : sampler.isCpuActive (cpu : Int).toNat = true := by
      rw [credited.active]
      exact active
    rw [cpuHintTime, if_neg inside, if_pos running, Int.toNat_natCast, found hint member]

/-- A call that finds a hint for all CPUs. -/
def callOf (seconds : Int) (hint : BitVec 32) : UpdateCall where
  currTime := ⟨seconds, 0⟩
  buffer _ := ⟨1, hint, 7, 0, 0⟩
  logs key := RecordLog.initial key ⟨0, 0⟩

/-- Computing for two seconds, and memory for three. -/
def threeCalls : List UpdateCall := [callOf 1 2, callOf 3 4, callOf 6 8]

theorem hintTime_conserved_threeCalls :
    let status : ApplicationStatus := ⟨2, fun _ => ⟨-1, 256, 0, 0, 0⟩, fun _ => ⟨-1, 256, 0, 0, 0⟩⟩
    let records : ApplicationSampler Unit :=
      ⟨[1], fun key => ⟨none, .new, RecordLog.initial key ⟨0, 0⟩⟩, [], []⟩
    let sampler := Transition.run afterCall (new 2 (some status) (fun _ => true) records) threeCalls
    ((sampler.hintTime 1).map Prod.snd).sum = 5 ∧
      sampler.cpuHintTime 1 regionHintCompute = .ok (.value 2) ∧
      sampler.cpuHintTime 1 regionHintMemory = .ok (.value 3) := by
  intro status records sampler
  have valid : HintsValid 2 threeCalls := by
    intro call member cpu _
    simp only [threeCalls, List.mem_cons, List.not_mem_nil, or_false] at member
    rcases member with rfl | rfl | rfl <;> simp only [UpdateCall.hintOf, callOf] <;> decide
  obtain ⟨sum, _, times⟩ := hintTime_conserved status (fun _ => true) records threeCalls valid 1 (by decide)
  refine ⟨(sum _ _ rfl rfl).trans (by decide +kernel), ?_, ?_⟩
  · exact ((times regionHintCompute (by decide)).2 rfl).trans (by decide +kernel)
  · exact ((times regionHintMemory (by decide)).2 rfl).trans (by decide +kernel)

end HintSampler

end Geopm
