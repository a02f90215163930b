import Geopm.ApplicationStatus
import Geopm.Library.Stateful

namespace Geopm

/-! `Profile`: the regions that a process enters and exits, as it shows them in the status of its
CPUs and in its record log. -/

inductive ProfileError where
  /-- "Profile::init(): invalid process". -/
  | invalidProcess
  /-- "Profile::exit(): expected at least one enter before exit call". -/
  | exitBeforeEnter
  | status (reason : StatusError)
  | log (reason : LogError)
deriving Repr, DecidableEq

/-- `ProfileImp`. The top of the stack of hints is its head. What the record log has received
is kept next to it. -/
structure Profile where
  isEnabled : Bool
  currRegionId : BitVec 64
  currentHash : BitVec 64
  hintStack : List (BitVec 64)
  cpuSet : List Int
  process : Int
  appStatus : ApplicationStatus
  recordLog : RecordLog
  received : List RecordLog.Call

namespace Profile

/-- The constructor. -/
def new (process : Int) (cpuSet : List Int) (appStatus : ApplicationStatus) : Profile where
  isEnabled := false
  currRegionId := 0
  currentHash := regionHashUnmarked
  hintStack := []
  cpuSet
  process
  appStatus
  recordLog := RecordLog.initial (-1) ⟨0, 0⟩
  received := []

/-- A call on `m_app_status`. -/
def callStatus (call : ApplicationStatus → Except StatusError ApplicationStatus) :
    EStateM ProfileError Profile Unit := fun profile =>
  match call profile.appStatus with
  | .ok appStatus => .ok () { profile with appStatus }
  | .error reason => .error (.status reason) profile

/-- A call on `m_app_record_log`. -/
def callLog (call : RecordLog.Call) : EStateM ProfileError Profile Unit := fun profile =>
  let outcome := profile.recordLog.call call
  let next := { profile with recordLog := outcome.log, received := profile.received ++ [call] }
  match outcome.thrown with
  | none => .ok () next
  | some reason => .error (.log reason) next

/-- `init_app_record_log`. -/
def initAppRecordLog (timeZero : Time) : EStateM ProfileError Profile Unit := do
  let profile ← get
  if profile.process < 0 then throw .invalidProcess
  profile.cpuSet.forM fun cpu => callStatus fun status => status.setProcess cpu profile.process
  modify fun profile => { profile with recordLog := RecordLog.initial profile.process timeZero }

/-- `init`, from where the handshake with the controller is done. -/
def init (timeZero : Time) : EStateM ProfileError Profile Unit := do
  initAppRecordLog timeZero
  modify fun profile => { profile with isEnabled := true }

/-- `set_hint`. -/
def setHint (hint : BitVec 64) : EStateM ProfileError Profile Unit := do
  let profile ← get
  profile.cpuSet.forM fun cpu => callStatus fun status => status.setHint cpu hint

/-- `enter`. -/
def enter (regionId : BitVec 64) (now : Time) : EStateM ProfileError Profile Unit := do
  let profile ← get
  if profile.isEnabled then
    let hash := regionIdHash regionId
    let hint := regionIdHint regionId
    if profile.currentHash = regionHashUnmarked then
      -- not currently in a region
      modify fun profile => { profile with currentHash := hash }
      callLog (.enter hash.toNat now)
      profile.cpuSet.forM fun cpu => callStatus fun status => status.setHash cpu hash hint
    else setHint hint
    modify fun profile => { profile with hintStack := hint :: profile.hintStack }

/-- `exit`. -/
def exit (regionId : BitVec 64) (now : Time) : EStateM ProfileError Profile Unit := do
  let profile ← get
  if profile.isEnabled then
    let hash := regionIdHash regionId
    match profile.hintStack with
    | [] => throw .exitBeforeEnter
    | _ :: rest =>
        modify fun profile => { profile with hintStack := rest }
        match rest with
        | [] =>
            -- leaving the outermost region
            callLog (.exit hash.toNat now)
            modify fun profile => { profile with currentHash := regionHashUnmarked }
            profile.cpuSet.forM fun cpu => do
              callStatus fun status => status.setHash cpu regionHashUnmarked regionHintUnset
              callStatus fun status => status.resetWorkUnits cpu
        | hint :: _ => setHint hint

/-- What happens to a profile and its record log: the calls of the application, and the dumps
of the controller between them. -/
inductive Action where
  | enter (regionId : BitVec 64) (now : Time)
  | exit (regionId : BitVec 64) (now : Time)
  | dump
deriving Repr, DecidableEq

def perform : Action → EStateM ProfileError Profile Unit
  | .enter regionId now => enter regionId now
  | .exit regionId now => exit regionId now
  | .dump => modify fun profile => { profile with recordLog := profile.recordLog.dump.2 }

/-- The active regions after an action, the innermost first. -/
def nextActive (active : List (BitVec 64)) : Action → List (BitVec 64)
  | .enter regionId _ => regionId :: active
  | .exit _ _ => active.tail
  | .dump => active

def activeAfter (active : List (BitVec 64)) (actions : List Action) : List (BitVec 64) :=
  actions.foldl nextActive active

/-- Each exit is from the innermost active region. -/
def Nested : List (BitVec 64) → List Action → Prop
  | _, [] => True
  | active, .exit regionId now :: rest =>
      active.head?.map regionIdHash = some (regionIdHash regionId) ∧
        Nested (nextActive active (.exit regionId now)) rest
  | active, action :: rest => Nested (nextActive active action) rest

instance decidableNested : ∀ active actions, Decidable (Nested active actions)
  | _, [] => inferInstanceAs (Decidable True)
  | _, .exit _ _ :: rest => @instDecidableAnd _ _ _ (decidableNested _ rest)
  | _, .enter _ _ :: rest => decidableNested _ rest
  | _, .dump :: rest => decidableNested _ rest

/-- What the record log is to receive for an action: the enter and the exit of an outermost
region. -/
def visit (active : List (BitVec 64)) : Action → List RecordLog.Call
  | .enter regionId now => if active = [] then [.enter (regionIdHash regionId).toNat now] else []
  | .exit regionId now =>
      if active.tail = [] then [.exit (regionIdHash regionId).toNat now] else []
  | .dump => []

def visits (active : List (BitVec 64)) : List Action → List RecordLog.Call
  | [] => []
  | action :: rest => visit active action ++ visits (nextActive active action) rest

/-- The hash of the outermost active region. -/
def outermost (active : List (BitVec 64)) : BitVec 64 :=
  match active.getLast? with
  | none => regionHashUnmarked
  | some regionId => regionIdHash regionId

/-- The hint of the innermost active region. -/
def innermost (active : List (BitVec 64)) : BitVec 64 :=
  match active.head? with
  | none => regionHintUnset
  | some regionId => regionIdHint regionId

/-- The status of the CPUs of the process, as the controller reads it. -/
structure Shows (profile : Profile) (active : List (BitVec 64)) : Prop where
  hash : ∀ cpu ∈ profile.cpuSet, profile.appStatus.updateCache.getHash cpu = .ok (outermost active)
  hint : ∀ cpu ∈ profile.cpuSet, profile.appStatus.updateCache.getHint cpu = .ok (innermost active)

/-- After each call the status shows the active regions, and the record log has received the
visits of outermost regions. -/
def Conforms (profile : Profile) (active : List (BitVec 64)) (actions : List Action) : Prop :=
  ∀ done, done <+: actions → ∃ after, (done.forM perform).run profile = .ok () after ∧
    after.Shows (activeAfter active done) ∧ after.received = profile.received ++ visits active done

/-- The record log is not full at a call. -/
def LogNotFull (profile : Profile) (actions : List Action) : Prop :=
  ∀ done action after, done ++ [action] <+: actions → (done.forM perform).run profile = .ok () after →
    after.recordLog.layout.numRecord < maxRecord

/-- No region is entered inside an outermost region whose hash is that of no region. -/
def Marked (active : List (BitVec 64)) (actions : List Action) : Prop :=
  ∀ done regionId now, done ++ [.enter regionId now] <+: actions → activeAfter active done ≠ [] →
    outermost (activeAfter active done) ≠ regionHashUnmarked

section Calls

variable {profile : Profile} {active : List (BitVec 64)} {regionId hint : BitVec 64} {now : Time}

/-- A loop over CPUs that have entries writes to all of them. -/
theorem forM_modify {body : Int → EStateM ProfileError Profile Unit} {cpus : List Int}
    {change : CpuStatus → CpuStatus}
    (each : ∀ cpu ∈ cpus, ∀ profile : Profile, profile.appStatus.Knows cpu →
      (body cpu).run profile = .ok () { profile with appStatus := profile.appStatus.modify cpu change })
    (known : ∀ cpu ∈ cpus, profile.appStatus.Knows cpu) :
    (cpus.forM body).run profile =
      .ok () { profile with appStatus := profile.appStatus.modifyAll cpus change } := by
  induction cpus generalizing profile with
  | nil => rfl
  | cons cpu rest ih =>
      rw [List.forM_eq_forM, List.forM_cons, EStateM.run_bind, each cpu (by simp) profile (known cpu (by simp))]
      exact ih (fun other member => each other (by simp [member]))
        (fun other member => known other (by simp [member]))

theorem callStatus_ok {call : ApplicationStatus → Except StatusError ApplicationStatus}
    {after : ApplicationStatus} (done : call profile.appStatus = .ok after) :
    (callStatus call).run profile = .ok () { profile with appStatus := after } := by
  change callStatus call profile = _
  rw [callStatus, done]

theorem callLog_ok {call : RecordLog.Call} (accepted : (profile.recordLog.call call).thrown = none) :
    (callLog call).run profile = .ok ()
      { profile with
        recordLog := profile.recordLog.step call
        received := profile.received ++ [call] } := by
  change callLog call profile = _
  simp only [callLog, accepted]
  rfl

/-- A log that is set up and has space takes each call. -/
theorem log_accepts {log : RecordLog} (sound : log.Sound) (configured : log.Configured)
    (space : log.layout.numRecord < maxRecord) (call : RecordLog.Call) :
    (log.call call).thrown = none ∧ (log.step call).Sound ∧ (log.step call).Configured := by
  rw [RecordLog.step]
  cases outcome : log.call call with
  | mk next thrown =>
      have result := outcome ▸ sound.call_result call
      cases result with
      | unset failed _ => exact absurd failed (configured.checkSetup _)
      | full full _ => omega
      | done step nextSound =>
          refine ⟨rfl, nextSound, ?_⟩
          have process : next.process = log.process := step.process
          have timeZero : next.timeZero = log.timeZero := step.timeZero
          rwa [RecordLog.Configured, process, timeZero]

/-- What the calls keep, and what the status of the CPUs says of the active regions. -/
structure Invariant (profile : Profile) (active : List (BitVec 64)) : Prop where
  enabled : profile.isEnabled = true
  current : profile.currentHash = outermost active
  hints : profile.hintStack = active.map regionIdHint
  known : ∀ cpu ∈ profile.cpuSet, profile.appStatus.Knows cpu
  hash : ∀ cpu ∈ profile.cpuSet, (profile.appStatus.buffer cpu).hash = (outermost active).setWidth 32
  hint : ∀ cpu ∈ profile.cpuSet,
    (profile.appStatus.buffer cpu).hint = (innermost active >>> 32).setWidth 32
  sound : profile.recordLog.Sound
  configured : profile.recordLog.Configured
  region : profile.currRegionId = 0

theorem setWidth_outermost : ((outermost active).setWidth 32).setWidth 64 = outermost active := by
  rw [outermost]
  split
  · decide
  · exact setWidth_regionIdHash

theorem innermost_mask : innermost active &&& ~~~regionHintMask = 0 := by
  rw [innermost]
  split
  · decide
  · exact regionIdHint_mask

theorem Invariant.shows (invariant : profile.Invariant active) : profile.Shows active where
  hash cpu member := by
    have known : profile.appStatus.updateCache.Knows cpu := invariant.known cpu member
    rw [ApplicationStatus.getHash, ApplicationStatus.checked_known known, ApplicationStatus.updateCache,
      invariant.hash cpu member, setWidth_outermost]
  hint cpu member := by
    have known : profile.appStatus.updateCache.Knows cpu := invariant.known cpu member
    have read := setWidth_hint (innermost_mask : innermost active &&& _ = 0)
    rw [ApplicationStatus.getHint, ApplicationStatus.checked_known known, ApplicationStatus.updateCache]
    simp only [invariant.hint cpu member, read]
    rw [if_neg (fun high => high innermost_mask)]

/-- What the calls rely on. -/
structure Working (profile : Profile) : Prop where
  enabled : profile.isEnabled = true
  known : ∀ cpu ∈ profile.cpuSet, profile.appStatus.Knows cpu
  masked : ∀ hint ∈ profile.hintStack, hint &&& ~~~regionHintMask = 0
  configured : profile.recordLog.Configured
  /-- Nothing assigns it after the constructor. -/
  region : profile.currRegionId = 0

theorem Invariant.working (invariant : profile.Invariant active) : profile.Working where
  enabled := invariant.enabled
  known := invariant.known
  masked hint member := by
    rw [invariant.hints] at member
    obtain ⟨regionId, _, rfl⟩ := List.mem_map.mp member
    exact regionIdHint_mask
  configured := invariant.configured
  region := invariant.region

theorem known_modifyAll {cpus : List Int} {change : CpuStatus → CpuStatus}
    (known : ∀ cpu ∈ cpus, profile.appStatus.Knows cpu) :
    ∀ cpu ∈ cpus, (profile.appStatus.modifyAll cpus change).Knows cpu := by
  intro cpu member
  have knows := known cpu member
  exact ⟨knows.1, by rw [ApplicationStatus.numCpu_modifyAll]; exact knows.2⟩

/-- What the end of the outermost region writes for a CPU. -/
def leftEntry (entry : CpuStatus) : CpuStatus :=
  ApplicationStatus.idleEntry (ApplicationStatus.hashEntry regionHashUnmarked regionHintUnset entry)

/-- After a call inside the outermost region. -/
def hinted (profile : Profile) (hintStack : List (BitVec 64)) (hint : BitVec 64) : Profile :=
  { profile with
    hintStack
    appStatus := profile.appStatus.modifyAll profile.cpuSet (ApplicationStatus.hintEntry hint) }

/-- After the enter of a region while the current hash is that of no region. -/
def entered (profile : Profile) (regionId : BitVec 64) (now : Time) : Profile :=
  let call : RecordLog.Call := .enter (regionIdHash regionId).toNat now
  { profile with
    currentHash := regionIdHash regionId
    hintStack := regionIdHint regionId :: profile.hintStack
    recordLog := profile.recordLog.step call
    received := profile.received ++ [call]
    appStatus := profile.appStatus.modifyAll profile.cpuSet
      (ApplicationStatus.hashEntry (regionIdHash regionId) (regionIdHint regionId)) }

/-- After the exit from the outermost region. -/
def left (profile : Profile) (regionId : BitVec 64) (now : Time) : Profile :=
  let call : RecordLog.Call := .exit (regionIdHash regionId).toNat now
  { profile with
    currentHash := regionHashUnmarked
    hintStack := []
    recordLog := profile.recordLog.step call
    received := profile.received ++ [call]
    appStatus := profile.appStatus.modifyAll profile.cpuSet leftEntry }

theorem forM_setHash {cpus : List Int} {hash : BitVec 64}
    (known : ∀ cpu ∈ cpus, profile.appStatus.Knows cpu)
    (masked : (BitVec.allOnes 64 <<< 32) &&& hash = 0) :
    (cpus.forM fun cpu => callStatus fun status => status.setHash cpu hash hint).run profile =
      .ok () { profile with
        appStatus := profile.appStatus.modifyAll cpus (ApplicationStatus.hashEntry hash hint) } := by
  apply forM_modify _ known
  intro cpu _ profile knows
  exact callStatus_ok (ApplicationStatus.setHash_known knows masked)

theorem forM_left {cpus : List Int} (known : ∀ cpu ∈ cpus, profile.appStatus.Knows cpu) :
    (cpus.forM fun cpu => do
      callStatus fun status => status.setHash cpu regionHashUnmarked regionHintUnset
      callStatus fun status => status.resetWorkUnits cpu).run profile =
      .ok () { profile with appStatus := profile.appStatus.modifyAll cpus leftEntry } := by
  apply forM_modify _ known
  intro cpu _ profile knows
  have hashed : profile.appStatus.setHash cpu regionHashUnmarked regionHintUnset = _ :=
    ApplicationStatus.setHash_known knows (by decide)
  have reset : (profile.appStatus.modify cpu (ApplicationStatus.hashEntry regionHashUnmarked
      regionHintUnset)).resetWorkUnits cpu = _ := ApplicationStatus.resetWorkUnits_known knows
  rw [Stateful.run_bind_ok (callStatus_ok hashed), callStatus_ok reset]
  simp only [ApplicationStatus.modify_modify]
  rfl

theorem Working.setHint_ok (working : profile.Working) (masked : hint &&& ~~~regionHintMask = 0) :
    (setHint hint).run profile = .ok () (profile.hinted profile.hintStack hint) := by
  apply forM_modify _ working.known
  intro cpu _ profile knows
  exact callStatus_ok (ApplicationStatus.setHint_known knows masked)

theorem Working.enter_free (working : profile.Working) (free : profile.currentHash = regionHashUnmarked)
    (accepted : (profile.recordLog.call (.enter (regionIdHash regionId).toNat now)).thrown = none) :
    (enter regionId now).run profile = .ok () (profile.entered regionId now) := by
  have logged := @callLog_ok { profile with currentHash := regionIdHash regionId } _ accepted
  have written := @forM_setHash { profile with
      currentHash := regionIdHash regionId
      recordLog := profile.recordLog.step (.enter (regionIdHash regionId).toNat now)
      received := profile.received ++ [.enter (regionIdHash regionId).toNat now] }
    (regionIdHint regionId) _ (regionIdHash regionId) working.known regionIdHash_high
  rw [enter, Stateful.run_bind_ok (EStateM.run_get profile), if_pos working.enabled]
  simp only
  rw [if_pos free, Stateful.run_bind_ok (EStateM.run_modify _ profile), Stateful.run_bind_ok logged,
    Stateful.run_bind_ok written]
  rfl

theorem Working.enter_inside (working : profile.Working)
    (marked : profile.currentHash ≠ regionHashUnmarked) :
    (enter regionId now).run profile =
      .ok () (profile.hinted (regionIdHint regionId :: profile.hintStack) (regionIdHint regionId)) := by
  have written := working.setHint_ok (regionIdHint_mask : regionIdHint regionId &&& _ = 0)
  rw [enter, Stateful.run_bind_ok (EStateM.run_get profile), if_pos working.enabled]
  simp only
  rw [if_neg marked, Stateful.run_bind_ok written]
  rfl

theorem Working.exit_last (working : profile.Working) (hints : profile.hintStack = [hint])
    (accepted : (profile.recordLog.call (.exit (regionIdHash regionId).toNat now)).thrown = none) :
    (exit regionId now).run profile = .ok () (profile.left regionId now) := by
  have logged := @callLog_ok { profile with hintStack := [] } _ accepted
  have written := @forM_left { profile with
      currentHash := regionHashUnmarked
      hintStack := []
      recordLog := profile.recordLog.step (.exit (regionIdHash regionId).toNat now)
      received := profile.received ++ [.exit (regionIdHash regionId).toNat now] } _ working.known
  rw [exit, Stateful.run_bind_ok (EStateM.run_get profile), if_pos working.enabled]
  simp only [hints]
  rw [Stateful.run_bind_ok (EStateM.run_modify _ profile), Stateful.run_bind_ok logged,
    Stateful.run_bind_ok (EStateM.run_modify _ _)]
  exact written

theorem Working.exit_inside {outer : BitVec 64} {rest : List (BitVec 64)} (working : profile.Working)
    (hints : profile.hintStack = hint :: outer :: rest) :
    (exit regionId now).run profile = .ok () (profile.hinted (outer :: rest) outer) := by
  have popped : Working { profile with hintStack := outer :: rest } := by
    obtain ⟨enabled, known, masked, configured, region⟩ := working
    refine ⟨enabled, known, fun other member => masked other ?_, configured, region⟩
    rw [hints]
    exact List.mem_cons_of_mem hint member
  have written := popped.setHint_ok (popped.masked outer (by simp))
  rw [exit, Stateful.run_bind_ok (EStateM.run_get profile), if_pos working.enabled]
  simp only [hints]
  rw [Stateful.run_bind_ok (EStateM.run_modify _ profile)]
  exact written

/-- Below the outermost region only the hint changes. -/
theorem Invariant.hinted {next : List (BitVec 64)} (invariant : profile.Invariant active)
    (same : outermost next = outermost active) :
    (profile.hinted (next.map regionIdHint) (innermost next)).Invariant next where
  enabled := invariant.enabled
  current := invariant.current.trans same.symm
  hints := rfl
  known := known_modifyAll invariant.known
  hash cpu member := by
    have written := @ApplicationStatus.modifyAll_inside profile.appStatus cpu profile.cpuSet
      (ApplicationStatus.hintEntry (innermost next)) ApplicationStatus.hintEntry_again member
    rw [same]
    exact (congrArg CpuStatus.hash written).trans (invariant.hash cpu member)
  hint cpu member := by
    have written := @ApplicationStatus.modifyAll_inside profile.appStatus cpu profile.cpuSet
      (ApplicationStatus.hintEntry (innermost next)) ApplicationStatus.hintEntry_again member
    exact congrArg CpuStatus.hint written
  sound := invariant.sound
  configured := invariant.configured
  region := invariant.region

/-- The enter of an outermost region writes all that the status shows of it. -/
theorem Working.entered (working : profile.Working) (sound : profile.recordLog.Sound)
    (space : profile.recordLog.layout.numRecord < maxRecord) (outside : profile.hintStack = []) :
    (profile.entered regionId now).Invariant [regionId] where
  enabled := working.enabled
  current := rfl
  hints := congrArg (regionIdHint regionId :: ·) outside
  known := known_modifyAll working.known
  hash cpu member := by
    have written := @ApplicationStatus.modifyAll_inside profile.appStatus cpu profile.cpuSet
      (ApplicationStatus.hashEntry (regionIdHash regionId) (regionIdHint regionId)) (fun _ => rfl) member
    exact congrArg CpuStatus.hash written
  hint cpu member := by
    have written := @ApplicationStatus.modifyAll_inside profile.appStatus cpu profile.cpuSet
      (ApplicationStatus.hashEntry (regionIdHash regionId) (regionIdHint regionId)) (fun _ => rfl) member
    exact congrArg CpuStatus.hint written
  sound := (log_accepts sound working.configured space _).2.1
  configured := (log_accepts sound working.configured space _).2.2
  region := working.region

/-- So does the exit. -/
theorem Working.left (working : profile.Working) (sound : profile.recordLog.Sound)
    (space : profile.recordLog.layout.numRecord < maxRecord) :
    (profile.left regionId now).Invariant [] where
  enabled := working.enabled
  current := rfl
  hints := rfl
  known := known_modifyAll working.known
  hash cpu member := by
    have written := @ApplicationStatus.modifyAll_inside profile.appStatus cpu profile.cpuSet
      leftEntry (fun _ => rfl) member
    exact congrArg CpuStatus.hash written
  hint cpu member := by
    have written := @ApplicationStatus.modifyAll_inside profile.appStatus cpu profile.cpuSet
      leftEntry (fun _ => rfl) member
    exact congrArg CpuStatus.hint written
  sound := (log_accepts sound working.configured space _).2.1
  configured := (log_accepts sound working.configured space _).2.2
  region := working.region

theorem outermost_cons {outer : List (BitVec 64)} (inside : outer ≠ []) :
    outermost (regionId :: outer) = outermost outer := by
  rw [outermost, outermost, List.getLast?_cons, List.getLast?_eq_some_getLast inside, Option.getD_some]

/-- Entering while the current hash is that of no region. -/
theorem enter_marks (invariant : profile.Invariant active) (free : outermost active = regionHashUnmarked)
    (space : profile.recordLog.layout.numRecord < maxRecord) :
    ∃ after, (enter regionId now).run profile = .ok () after ∧
      after.received = profile.received ++ [.enter (regionIdHash regionId).toNat now] ∧
      (active = [] → after.Invariant [regionId]) := by
  have accepted := (log_accepts invariant.sound invariant.configured space
    (.enter (regionIdHash regionId).toNat now)).1
  refine ⟨profile.entered regionId now, ?_, rfl, ?_⟩
  · exact invariant.working.enter_free (invariant.current.trans free) accepted
  · intro none_active
    subst none_active
    exact invariant.working.entered invariant.sound space invariant.hints

theorem enter_nested (invariant : profile.Invariant active)
    (marked : outermost active ≠ regionHashUnmarked) :
    ∃ after, (enter regionId now).run profile = .ok () after ∧ after.received = profile.received ∧
      after.Invariant (regionId :: active) := by
  have current : profile.currentHash ≠ regionHashUnmarked := by
    rw [invariant.current]
    exact marked
  have inside : active ≠ [] := by
    intro empty
    exact marked (empty ▸ rfl)
  have kept := @Invariant.hinted profile active (regionId :: active) invariant (outermost_cons inside)
  rw [List.map_cons, ← invariant.hints] at kept
  exact ⟨_, invariant.working.enter_inside current, rfl, kept⟩

theorem exit_outermost {outer : BitVec 64} (invariant : profile.Invariant [outer])
    (space : profile.recordLog.layout.numRecord < maxRecord) :
    ∃ after, (exit regionId now).run profile = .ok () after ∧
      after.received = profile.received ++ [.exit (regionIdHash regionId).toNat now] ∧
      after.Invariant [] := by
  have accepted := (log_accepts invariant.sound invariant.configured space
    (.exit (regionIdHash regionId).toNat now)).1
  exact ⟨_, invariant.working.exit_last invariant.hints accepted, rfl,
    invariant.working.left invariant.sound space⟩

theorem exit_nested {inner outer : BitVec 64} {rest : List (BitVec 64)}
    (invariant : profile.Invariant (inner :: outer :: rest)) :
    ∃ after, (exit regionId now).run profile = .ok () after ∧ after.received = profile.received ∧
      after.Invariant (outer :: rest) := by
  have kept := @Invariant.hinted profile _ (outer :: rest) invariant
    (outermost_cons (List.cons_ne_nil _ _)).symm
  exact ⟨_, invariant.working.exit_inside invariant.hints, rfl, kept⟩

theorem dump_kept (invariant : profile.Invariant active)
    (space : profile.recordLog.layout.numRecord < maxRecord) :
    ∃ after, (perform .dump).run profile = .ok () after ∧ after.received = profile.received ∧
      after.Invariant active := by
  obtain ⟨_, sound, configured⟩ := log_accepts invariant.sound invariant.configured space .dump
  obtain ⟨enabled, current, hints, known, hash, hint, _, _, region⟩ := invariant
  exact ⟨_, rfl, rfl, enabled, current, hints, known, hash, hint, sound, configured, region⟩

end Calls

section Runs

variable {profile : Profile} {active : List (BitVec 64)} {actions : List Action}

/-- An action that is nested and marked does what is said of it. -/
theorem perform_ok {action : Action} (invariant : profile.Invariant active)
    (space : profile.recordLog.layout.numRecord < maxRecord) (nested : Nested active [action])
    (marked : ∀ regionId now, action = .enter regionId now → active ≠ [] →
      outermost active ≠ regionHashUnmarked) :
    ∃ after, (perform action).run profile = .ok () after ∧
      after.received = profile.received ++ visit active action ∧
      after.Invariant (nextActive active action) := by
  cases action with
  | dump =>
      rw [visit, List.append_nil]
      exact dump_kept invariant space
  | enter regionId now =>
      by_cases inside : active = []
      · subst inside
        obtain ⟨after, ran, received, kept⟩ := enter_marks invariant rfl space
        exact ⟨after, ran, received, kept rfl⟩
      · rw [visit, if_neg inside, List.append_nil]
        exact enter_nested invariant (marked regionId now rfl inside)
  | exit regionId now =>
      cases active with
      | nil =>
          have top := nested.1
          cases top
      | cons inner rest =>
          cases rest with
          | nil => exact exit_outermost invariant space
          | cons outer rest =>
              rw [visit, List.tail_cons, if_neg (List.cons_ne_nil _ _), List.append_nil]
              exact exit_nested invariant

theorem nested_cons {action : Action} :
    Nested active (action :: actions) ↔ Nested active [action] ∧ Nested (nextActive active action) actions := by
  cases action <;> simp [Nested]

/-- The log has a free record. -/
def HasSpace (profile : Profile) : Prop := profile.recordLog.layout.numRecord < maxRecord

theorem LogNotFull.throughout (space : profile.LogNotFull actions) :
    Stateful.Throughout perform HasSpace profile actions := space

theorem LogNotFull.now {action : Action} (space : profile.LogNotFull (action :: actions)) :
    profile.recordLog.layout.numRecord < maxRecord :=
  space.throughout.now

theorem LogNotFull.later {action : Action} {after : Profile}
    (space : profile.LogNotFull (action :: actions))
    (ran : (perform action).run profile = .ok () after) : after.LogNotFull actions :=
  space.throughout.later ran

theorem Invariant.conforms_nil (invariant : profile.Invariant active) : profile.Conforms active [] := by
  intro done begun
  rw [List.prefix_nil] at begun
  subst begun
  exact ⟨profile, rfl, invariant.shows, (List.append_nil _).symm⟩

theorem conforms_cons {action : Action} {after : Profile} (invariant : profile.Invariant active)
    (ran : (perform action).run profile = .ok () after)
    (received : after.received = profile.received ++ visit active action) :
    profile.Conforms active (action :: actions) ↔
      after.Conforms (nextActive active action) actions := by
  constructor
  · intro conforms done begun
    obtain ⟨last, reached, shows, sent⟩ := conforms (action :: done) (List.prefix_cons_inj action |>.mpr begun)
    rw [Stateful.run_forM_cons ran] at reached
    refine ⟨last, reached, shows, ?_⟩
    rw [sent, received, visits, List.append_assoc]
  · intro conforms done begun
    rcases List.prefix_cons_iff.mp begun with rfl | ⟨later, rfl, laterBegun⟩
    · exact invariant.conforms_nil [] (List.prefix_refl _)
    · obtain ⟨last, reached, shows, sent⟩ := conforms later laterBegun
      refine ⟨last, ?_, shows, ?_⟩
      · rw [Stateful.run_forM_cons ran]
        exact reached
      · rw [sent, received, visits, List.append_assoc]

theorem marked_cons {action : Action} : Marked active (action :: actions) ↔
    (∀ regionId now, action = .enter regionId now → active ≠ [] → outermost active ≠ regionHashUnmarked) ∧
      Marked (nextActive active action) actions := by
  constructor
  · intro marked
    constructor
    · rintro regionId now rfl
      exact marked [] regionId now (List.prefix_append _ actions)
    · intro done regionId now begun
      exact marked (action :: done) regionId now (List.prefix_cons_inj action |>.mpr begun)
  · rintro ⟨first, others⟩ done regionId now begun
    cases done with
    | nil =>
        obtain ⟨rest, parts⟩ := begun
        rw [List.nil_append, List.singleton_append, List.cons.injEq] at parts
        exact first regionId now parts.1.symm
    | cons head done =>
        rw [List.cons_append, List.cons_prefix_cons] at begun
        obtain ⟨rfl, begun⟩ := begun
        exact others done regionId now begun

theorem marked_nil : Marked active [] := by
  intro done regionId now begun
  simp at begun

theorem marked_enter {regionId : BitVec 64} {now : Time} :
    Marked active (.enter regionId now :: actions) ↔
      (active ≠ [] → outermost active ≠ regionHashUnmarked) ∧ Marked (regionId :: active) actions := by
  simp [marked_cons, nextActive]

theorem marked_exit {regionId : BitVec 64} {now : Time} :
    Marked active (.exit regionId now :: actions) ↔ Marked active.tail actions := by
  simp [marked_cons, nextActive]

theorem marked_dump : Marked active (.dump :: actions) ↔ Marked active actions := by
  simp [marked_cons, nextActive]

theorem Invariant.conforms_iff (invariant : profile.Invariant active) (nested : Nested active actions)
    (space : profile.LogNotFull actions) :
    profile.Conforms active actions ↔ Marked active actions := by
  induction actions generalizing profile active with
  | nil =>
      exact iff_of_true invariant.conforms_nil marked_nil
  | cons action rest ih =>
      rw [nested_cons] at nested
      rw [marked_cons]
      by_cases marked : ∀ regionId now, action = .enter regionId now → active ≠ [] →
          outermost active ≠ regionHashUnmarked
      · obtain ⟨after, ran, received, kept⟩ := perform_ok invariant space.now nested.1 marked
        rw [conforms_cons invariant ran received, ih kept nested.2 (space.later ran)]
        exact (and_iff_right marked).symm
      · apply iff_of_false
        · intro conforms
          -- the enter of an inner region is logged
          push Not at marked
          obtain ⟨regionId, now, rfl, inside, free⟩ := marked
          obtain ⟨after, ran, received, _⟩ := enter_marks invariant free space.now
          obtain ⟨last, reached, _, sent⟩ := conforms [.enter regionId now] (List.prefix_append _ rest)
          have entered : (perform (.enter regionId now)).run profile = .ok () after := ran
          have only : (([.enter regionId now] : List Action).forM perform).run profile = .ok () after :=
            Stateful.run_forM_cons entered []
          rw [only] at reached
          cases reached
          rw [received, visits, visits, visit, if_neg inside] at sent
          simp at sent
        · exact fun both => marked both.1

/-- Whether the log is not full at a call, found by running the calls. -/
def logNotFull (profile : Profile) : List Action → Bool
  | [] => true
  | action :: rest =>
      profile.recordLog.layout.numRecord < maxRecord &&
        match (perform action).run profile with
        | .ok _ next => next.logNotFull rest
        | .error _ _ => true

theorem logNotFull_eq : profile.logNotFull actions =
    Stateful.checkThroughout perform (fun profile => profile.recordLog.layout.numRecord < maxRecord) profile
      actions := by
  induction actions generalizing profile with
  | nil => rfl
  | cons head rest ih =>
      rw [logNotFull, Stateful.checkThroughout]
      cases (perform head).run profile with
      | ok value next => simp only [ih]
      | error reason next => rfl

theorem logNotFull_sound (space : profile.logNotFull actions = true) : profile.LogNotFull actions := by
  rw [logNotFull_eq] at space
  intro done action after begun reached
  exact of_decide_eq_true (Stateful.checkThroughout_sound space done action after begun reached)

/-- What `set_process` writes. -/
def freeEntry (process : Int) (entry : CpuStatus) : CpuStatus :=
  ApplicationStatus.hashEntry regionHashUnmarked regionHintUnset { entry with process }

theorem setProcess_known {status : ApplicationStatus} {cpu process : Int} (known : status.Knows cpu)
    (named : 0 ≤ process) :
    status.setProcess cpu process = .ok (status.modify cpu (freeEntry process)) := by
  have later : (status.modify cpu fun entry => { entry with process }).Knows cpu := known
  rw [ApplicationStatus.setProcess, ApplicationStatus.checked_known known]
  simp only
  rw [if_neg (by omega), ApplicationStatus.setHash_known later (by decide),
    ApplicationStatus.modify_modify]
  rfl

theorem knows_of_setProcess {cpus : List Int} {process : Int} {after : Profile}
    (ran : (cpus.forM fun cpu => callStatus fun status => status.setProcess cpu process).run profile =
      .ok () after) (named : 0 ≤ process) : ∀ cpu ∈ cpus, profile.appStatus.Knows cpu := by
  induction cpus generalizing profile with
  | nil => simp
  | cons cpu rest ih =>
      rw [List.forM_eq_forM, List.forM_cons] at ran
      by_cases known : profile.appStatus.Knows cpu
      · rw [Stateful.run_bind_ok (callStatus_ok (setProcess_known known named))] at ran
        intro other member
        rcases List.mem_cons.mp member with rfl | later
        · exact known
        · exact ih ran other later
      · have failed : profile.appStatus.setProcess cpu process = .error (.invalidCpu cpu) := by
          rw [ApplicationStatus.setProcess, ApplicationStatus.checked, if_pos]
          rw [ApplicationStatus.Knows] at known
          omega
        obtain ⟨_, middle, first, _⟩ := Stateful.ok_of_bind ran
        change callStatus _ profile = _ at first
        rw [callStatus, failed] at first
        cases first

theorem initAppRecordLog_ok {timeZero : Time} {after : Profile}
    (ran : (initAppRecordLog timeZero).run profile = .ok () after) :
    0 ≤ profile.process ∧ (∀ cpu ∈ profile.cpuSet, profile.appStatus.Knows cpu) ∧
      after = { profile with
        appStatus := profile.appStatus.modifyAll profile.cpuSet (freeEntry profile.process)
        recordLog := RecordLog.initial profile.process timeZero } := by
  rw [initAppRecordLog, Stateful.run_bind_ok (EStateM.run_get profile)] at ran
  by_cases named : profile.process < 0
  · simp only [named, if_true, EStateM.run_bind, Stateful.run_throw] at ran
    cases ran
  · simp only [named, if_false] at ran
    obtain ⟨_, middle, first, _⟩ := Stateful.ok_of_bind ran
    have known := knows_of_setProcess first (Int.not_lt.mp named)
    have each : ∀ cpu ∈ profile.cpuSet, ∀ other : Profile, other.appStatus.Knows cpu →
        (callStatus fun status => status.setProcess cpu profile.process).run other =
          .ok () { other with appStatus := other.appStatus.modify cpu (freeEntry profile.process) } :=
      fun _ _ _ knows => callStatus_ok (setProcess_known knows (Int.not_lt.mp named))
    rw [Stateful.run_bind_ok (forM_modify each known)] at ran
    cases ran
    exact ⟨Int.not_lt.mp named, known, rfl⟩

/-- After `init` no region is active. -/
theorem init_invariant {process : Int} {cpuSet : List Int} {appStatus : ApplicationStatus}
    {timeZero : Time} {ready : Profile} (zero : timeDiff timeZero ⟨0, 0⟩ ≠ 0)
    (initialized : (init timeZero).run (new process cpuSet appStatus) = .ok () ready) :
    ready.Invariant [] := by
  obtain ⟨_, middle, prepared, enabled⟩ := Stateful.ok_of_bind initialized
  obtain ⟨named, known, middle_eq⟩ := initAppRecordLog_ok prepared
  subst middle_eq
  cases enabled
  have written : ∀ cpu ∈ cpuSet, (appStatus.modifyAll cpuSet (freeEntry process)).buffer cpu =
      freeEntry process (appStatus.buffer cpu) :=
    fun cpu member => ApplicationStatus.modifyAll_inside (fun _ => rfl) member
  constructor
  case enabled => rfl
  case current => rfl
  case hints => rfl
  case known =>
      intro cpu member
      have knows := known cpu member
      exact ⟨knows.1, by rw [ApplicationStatus.numCpu_modifyAll]; exact knows.2⟩
  case hash =>
      intro cpu member
      exact congrArg CpuStatus.hash (written cpu member)
  case hint =>
      intro cpu member
      exact congrArg CpuStatus.hint (written cpu member)
  case sound => exact RecordLog.initial_sound _ _
  case configured =>
      have positive : process ≠ -1 := by
        change 0 ≤ process at named
        omega
      exact ⟨positive, zero⟩
  case region => rfl

end Runs

/-- After each call of a nested sequence the status shows the active regions and the log has received the
visits of the outermost ones, if and only if nothing is entered inside an outermost region that has the hash
of no region. -/
theorem conforms_iff_marked (process : Int) (cpuSet : List Int) (appStatus : ApplicationStatus)
    (timeZero : Time) (ready : Profile) (zero : timeDiff timeZero ⟨0, 0⟩ ≠ 0)
    (initialized : (init timeZero).run (new process cpuSet appStatus) = .ok () ready)
    (actions : List Action) (nested : Nested [] actions) (space : ready.LogNotFull actions) :
    ready.Conforms [] actions ↔ Marked [] actions :=
  (init_invariant zero initialized).conforms_iff nested space

/-- A process on two CPUs. -/
def twoCpus : Profile :=
  Stateful.leaves (init ⟨1, 0⟩) (new 0 [0, 1] ⟨2, fun _ => ⟨-1, 0, 0, 0, 0⟩, fun _ => ⟨-1, 0, 0, 0, 0⟩⟩)

theorem twoCpus_init : (init ⟨1, 0⟩).run
    (new 0 [0, 1] ⟨2, fun _ => ⟨-1, 0, 0, 0, 0⟩, fun _ => ⟨-1, 0, 0, 0, 0⟩⟩) = .ok () twoCpus := rfl

theorem conforms_twoCpus :
    twoCpus.Conforms [] [.enter 0x200000007 ⟨2, 0⟩, .enter 0x400000009 ⟨3, 0⟩, .enter 7 ⟨4, 0⟩,
      .exit 7 ⟨5, 0⟩, .exit 0x400000009 ⟨6, 0⟩, .dump, .exit 0x200000007 ⟨7, 0⟩] :=
  (conforms_iff_marked 0 [0, 1] _ ⟨1, 0⟩ twoCpus (by decide +kernel) twoCpus_init _ (by decide +kernel)
    (logNotFull_sound (by decide +kernel))).mpr (by
      rw [marked_enter, marked_enter, marked_enter, marked_exit, marked_exit, marked_dump, marked_exit]
      refine ⟨by decide, by decide, by decide, marked_nil⟩)

/-- A region whose name hashes to the hash of no region, and another region inside. -/
def insideUnmarked : List Action := [.enter regionHashUnmarked ⟨2, 0⟩, .enter 7 ⟨3, 0⟩]

theorem not_conforms_unmarked : Nested [] insideUnmarked ∧ twoCpus.LogNotFull insideUnmarked ∧
    ¬ twoCpus.Conforms [] insideUnmarked := by
  have nested : Nested [] insideUnmarked := by decide +kernel
  have space : twoCpus.LogNotFull insideUnmarked := logNotFull_sound (by decide +kernel)
  have invariant := init_invariant (by decide +kernel) twoCpus_init
  refine ⟨nested, space, ?_⟩
  rw [invariant.conforms_iff nested space, insideUnmarked, marked_enter, marked_enter]
  rintro ⟨_, inner, _⟩
  exact inner (by decide) (by decide)

end Profile

end Geopm
