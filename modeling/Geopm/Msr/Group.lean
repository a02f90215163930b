import Geopm.Msr.Control

namespace Geopm

/-! `MSRIOGroup`: the controls by name, and the calls that write them. -/

/-- An entry of `m_control_available`. Aliases have the same controls, which stand by
number in the group. -/
structure ControlInfo where
  name : String
  controls : List Nat
  domain : Int
deriving DecidableEq

/-- `MSRFieldSignal` of the field that locks the power limits. -/
structure LockSignal where
  cpu : Nat
  offset : Nat
  mask : Word
deriving DecidableEq

/-- What the group is constructed on. -/
structure Platform where
  numCpu : Nat
  numDomain : Int → Int
  /-- "MSR::PKG_POWER_LIMIT:LOCK", where the registers have the field -/
  lock : Option (List LockSignal)

structure MsrioGroup (Setting : Type) where
  machine : Machine
  /-- the control objects by number -/
  controls : Nat → DomainControl Setting
  /-- `m_control_available` in the order of the names -/
  controlAvailable : List ControlInfo
  controlPushed : List Nat
  isAdjusted : List Bool
  isActive : Bool
  isFixedEnabled : Bool
  doCheckRaplLock : Bool

/-- The constructor, after the controls were added. The lock is checked once for all groups. -/
def MsrioGroup.new {Setting : Type} (machine : Machine) (controls : Nat → DomainControl Setting)
    (controlAvailable : List ControlInfo) (doCheckRaplLock : Bool) : MsrioGroup Setting where
  machine
  controls
  controlAvailable
  controlPushed := []
  isAdjusted := []
  isActive := false
  isFixedEnabled := false
  doCheckRaplLock

/-- `GEOPM_DOMAIN_CPU`. -/
def domainCpu : Int := 3

abbrev GroupM (Setting : Type) := EStateM GroupError (MsrioGroup Setting)

namespace MsrioGroup

/-- The controls whose first use checks the lock. -/
def powerControlSet : List String :=
  ["POWER_PACKAGE_LIMIT", "MSR::PKG_POWER_LIMIT:PL1_POWER_LIMIT"]

section

variable {Setting : Type}

/-- The checks on the arguments of `push_control` and `write_control`. -/
def find (platform : Platform) (group : MsrioGroup Setting) (controlName : String)
    (domainType domainIdx : Int) : Except GroupError Nat :=
  match group.controlAvailable.find? (·.name = controlName) with
  | none => .error (.controlNotFound controlName)
  | some info =>
      if domainType ≠ info.domain then .error .domainMismatch
      else if domainIdx < 0 ∨ platform.numDomain domainType ≤ domainIdx then
        .error .domainIdxOutOfRange
      else
        match info.controls[domainIdx.toNat]? with
        | none => .error .domainIdxOutOfRange
        | some control => .ok control

def findControl (platform : Platform) (controlName : String) (domainType domainIdx : Int) :
    GroupM Setting Nat := do
  match find platform (← get) controlName domainType domainIdx with
  | .error reason => throw reason
  | .ok control => pure control

/-- A method of one of the controls. -/
def onControl (control : Nat) (method : ControlM (DomainControl Setting) Unit) :
    GroupM Setting Unit :=
  Objects.within (fun group => (group.machine, group.controls control))
    (fun group (machine, changed) =>
      { group with machine, controls := Function.update group.controls control changed }) id method

/-- A call of the `MSRIO` object. -/
def onMsrio {Value : Type} (computation : MsrM Value) : GroupM Setting Value :=
  Objects.within (·.machine) (fun group machine => { group with machine }) .msr computation

/-- `read` of the lock. -/
def isLocked (driver : Driver) (signal : LockSignal) : GroupM Setting Bool := do
  let value ← onMsrio (Msrio.readMsr driver signal.cpu signal.offset)
  pure (value &&& signal.mask ≠ 0)

end

variable {Setting : Type} [Zero Setting] [One Setting] (driver : Driver) (platform : Platform)

/-- `write_control` of a control that is no power limit, for which `check_control` does
nothing to the registers. -/
def writeOther (controlName : String) (domainType domainIdx : Int) (setting : Setting) :
    GroupM Setting Unit := do
  let control ← findControl platform controlName domainType domainIdx
  onControl control (DomainControl.write driver setting)

/-- The writes of `enable_fixed_counters` on each CPU. -/
def fixedCounters : List (String × Setting) :=
  [("MSR::PERF_GLOBAL_CTRL:EN_FIXED_CTR0", 1),
    ("MSR::FIXED_CTR_CTRL:EN0_OS", 1),
    ("MSR::FIXED_CTR_CTRL:EN0_USR", 1),
    ("MSR::FIXED_CTR_CTRL:EN0_PMI", 0),
    ("MSR::PERF_GLOBAL_CTRL:EN_FIXED_CTR1", 1),
    ("MSR::FIXED_CTR_CTRL:EN1_OS", 1),
    ("MSR::FIXED_CTR_CTRL:EN1_USR", 1),
    ("MSR::FIXED_CTR_CTRL:EN1_PMI", 0),
    ("MSR::PERF_GLOBAL_CTRL:EN_FIXED_CTR2", 1),
    ("MSR::FIXED_CTR_CTRL:EN2_OS", 1),
    ("MSR::FIXED_CTR_CTRL:EN2_USR", 1),
    ("MSR::FIXED_CTR_CTRL:EN2_PMI", 0),
    ("MSR::PERF_GLOBAL_OVF_CTRL:CLEAR_OVF_FIXED_CTR0", 0),
    ("MSR::PERF_GLOBAL_OVF_CTRL:CLEAR_OVF_FIXED_CTR1", 0),
    ("MSR::PERF_GLOBAL_OVF_CTRL:CLEAR_OVF_FIXED_CTR2", 0)]

def enableFixedCounters : GroupM Setting Unit := do
  (List.range platform.numCpu).forM fun cpuIdx =>
    (fixedCounters : List (String × Setting)).forM fun (controlName, setting) =>
      writeOther driver platform controlName domainCpu cpuIdx setting
  modify fun group => { group with isFixedEnabled := true }

/-- `read_signal` of the lock on one domain. -/
def readLock (signal : LockSignal) : GroupM Setting Bool := do
  if !(← get).isFixedEnabled then
    enableFixedCounters driver platform
  isLocked driver signal

/-- The lock of any of the domains is set. All of them are read. -/
def readLocks : List LockSignal → GroupM Setting Bool
  | [] => pure false
  | signal :: rest => do
      let first ← readLock driver platform signal
      let others ← readLocks rest
      pure (first || others)

/-- `check_control` without its warnings. -/
def checkControl (controlName : String) : GroupM Setting Unit := do
  if (← get).doCheckRaplLock ∧ controlName ∈ powerControlSet then
    match platform.lock with
    | none => throw .invalidDomain
    | some signals =>
        if ← readLocks driver platform signals then
          throw .locked
        modify fun group => { group with doCheckRaplLock := false }

/-- The limit is enabled before it is written. -/
def enableLimit (controlName : String) (domainType domainIdx : Int) : GroupM Setting Unit :=
  if controlName = "POWER_PACKAGE_LIMIT" then
    writeOther driver platform "MSR::PKG_POWER_LIMIT:PL1_LIMIT_ENABLE" domainType domainIdx 1
  else
    pure ()

def writeControl (controlName : String) (domainType domainIdx : Int) (setting : Setting) :
    GroupM Setting Unit := do
  checkControl driver platform controlName
  let control ← findControl platform controlName domainType domainIdx
  enableLimit driver platform controlName domainType domainIdx
  onControl control (DomainControl.write driver setting)

/-- The part of `push_control` for a control that was not pushed before. -/
def pushNew (control : Nat) : GroupM Setting Unit := do
  modify fun group => { group with controlPushed := group.controlPushed ++ [control] }
  onControl control (DomainControl.setupBatch driver)
  modify fun group => { group with isAdjusted := group.isAdjusted ++ [false] }

def pushControl (controlName : String) (domainType domainIdx : Int) : GroupM Setting Nat := do
  if (← get).isActive then
    throw .pushAfterActive
  checkControl driver platform controlName
  let control ← findControl platform controlName domainType domainIdx
  let pushed := (← get).controlPushed
  enableLimit driver platform controlName domainType domainIdx
  if control ∈ pushed then
    pure (pushed.idxOf control)
  else do
    pushNew driver control
    pure pushed.length

def adjust (controlIdx : Int) (setting : Setting) : GroupM Setting Unit := do
  let pushed := (← get).controlPushed
  if controlIdx < 0 then
    throw .controlIdxOutOfRange
  match pushed[controlIdx.toNat]? with
  | none => throw .controlIdxOutOfRange
  | some control =>
      onControl control (DomainControl.adjust setting)
      -- beyond the end where a push has thrown before
      modify fun group => { group with isAdjusted := group.isAdjusted.set controlIdx.toNat true }

def writeBatch : GroupM Setting Unit := do
  let group ← get
  if group.controlPushed ≠ [] then
    if false ∈ group.isAdjusted then
      throw .notAllAdjusted
    onMsrio (Msrio.writeBatch driver)
  modify fun group => { group with isActive := true }

/-- The controls of an entry are saved, and restored at once. -/
def saveInfo (info : ControlInfo) : GroupM Setting Unit :=
  info.controls.forM fun control => do
    onControl control (DomainControl.save driver)
    onControl control (DomainControl.restore driver)

/-- What is thrown while an entry is saved is caught. -/
def trySave (info : ControlInfo) : GroupM Setting Bool := fun group =>
  match (saveInfo driver info).run group with
  | .ok _ next => .ok true next
  | .error _ next => .ok false next

/-- The names of the entries that cannot be saved. -/
def unallowedControls : List ControlInfo → GroupM Setting (List String)
  | [] => pure []
  | info :: rest => do
      let isAllowed ← trySave driver info
      let others ← unallowedControls rest
      pure (if isAllowed then others else info.name :: others)

def saveControl : GroupM Setting Unit := do
  let unallowed ← unallowedControls driver (← get).controlAvailable
  modify fun group =>
    { group with controlAvailable := group.controlAvailable.filter (·.name ∉ unallowed) }

def restoreControl : GroupM Setting Unit := do
  (← get).controlAvailable.forM fun info =>
    info.controls.forM fun control => onControl control (DomainControl.restore driver)

end MsrioGroup

end Geopm
