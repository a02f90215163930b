import Geopm.ValidateRecord

namespace Geopm

/-! `ApplicationStatus`: what the CPUs are running, and the parts of a region id. -/

/-- `GEOPM_REGION_HASH_UNMARKED`. -/
def regionHashUnmarked : BitVec 64 := 0x725e8066

/-- `GEOPM_REGION_ID_MPI`. -/
def regionIdMpi : BitVec 64 := 1 <<< 62

/-- `geopm_region_hint_e`. -/
def regionHintUnset : BitVec 64 := 0
def regionHintUnknown : BitVec 64 := 1 <<< 32
def regionHintCompute : BitVec 64 := 1 <<< 33
def regionHintMemory : BitVec 64 := 1 <<< 34
def regionHintNetwork : BitVec 64 := 1 <<< 35
def regionHintIo : BitVec 64 := 1 <<< 36
def regionHintSerial : BitVec 64 := 1 <<< 37
def regionHintParallel : BitVec 64 := 1 <<< 38
def regionHintIgnore : BitVec 64 := 1 <<< 39
def regionHintInactive : BitVec 64 := 1 <<< 40

/-- `GEOPM_MASK_REGION_HINT`. -/
def regionHintMask : BitVec 64 := BitVec.ofNat 64 maskRegionHint

/-- `geopm_region_id_hash`. -/
def regionIdHash (regionId : BitVec 64) : BitVec 64 :=
  let ret := (regionId <<< 32) >>> 32
  if ret = BitVec.ofNat 64 regionHashInvalid then regionHashUnmarked else ret

/-- `geopm_region_id_is_mpi`. -/
def regionIdIsMpi (regionId : BitVec 64) : Bool := regionId &&& regionIdMpi ≠ 0

/-- `geopm_region_id_hint`. -/
def regionIdHint (regionId : BitVec 64) : BitVec 64 :=
  if regionHashUnmarked = regionId then regionHintUnknown
  else if regionIdIsMpi regionId then regionHintNetwork
  else if regionId &&& regionHintMask = 0 then regionHintUnknown
  else regionId &&& regionHintMask

/-- `geopm_region_id_hint_is_equal`. -/
def regionIdHintIsEqual (hintType regionId : BitVec 64) : Bool := regionId &&& hintType ≠ 0

/-- `m_app_status_s`. -/
structure CpuStatus where
  process : Int
  hint : BitVec 32
  hash : BitVec 32
  totalWork : BitVec 32
  completedWork : BitVec 32
deriving Repr, DecidableEq

inductive StatusError where
  /-- "invalid CPU index". -/
  | invalidCpu (cpu : Int)
  /-- "invalid hint". -/
  | invalidHint
  /-- "invalid region hash". -/
  | invalidHash (hash : BitVec 64)
  /-- "invalid number of work units". -/
  | invalidWorkUnits (workUnits : Int)
deriving Repr, DecidableEq

/-- `ApplicationStatusImp`, with the shared memory of all CPUs. -/
structure ApplicationStatus where
  numCpu : Nat
  buffer : Int → CpuStatus
  cache : Int → CpuStatus

namespace ApplicationStatus

/-- A write to the entry of a CPU. -/
def modify (status : ApplicationStatus) (cpu : Int) (change : CpuStatus → CpuStatus) :
    ApplicationStatus :=
  { status with buffer := Function.update status.buffer cpu (change (status.buffer cpu)) }

/-- The check of a CPU index that opens each function. -/
def checked {Value : Type} (status : ApplicationStatus) (cpu : Int)
    (rest : Except StatusError Value) : Except StatusError Value :=
  if cpu < 0 ∨ cpu ≥ status.numCpu then .error (.invalidCpu cpu) else rest

/-- `set_hint`. -/
def setHint (status : ApplicationStatus) (cpu : Int) (hint : BitVec 64) :
    Except StatusError ApplicationStatus :=
  status.checked cpu <|
    if hint &&& ~~~regionHintMask ≠ 0 then .error .invalidHint
    else .ok (status.modify cpu fun entry => { entry with hint := (hint >>> 32).setWidth 32 })

/-- `set_hash`. -/
def setHash (status : ApplicationStatus) (cpu : Int) (hash hint : BitVec 64) :
    Except StatusError ApplicationStatus :=
  status.checked cpu <|
    if (BitVec.allOnes 64 <<< 32) &&& hash ≠ 0 then .error (.invalidHash hash)
    else .ok (status.modify cpu fun entry =>
      { entry with hash := hash.setWidth 32, hint := (hint >>> 32).setWidth 32 })

/-- `reset_work_units`. -/
def resetWorkUnits (status : ApplicationStatus) (cpu : Int) :
    Except StatusError ApplicationStatus :=
  status.checked cpu <|
    .ok (status.modify cpu fun entry => { entry with totalWork := 0, completedWork := 0 })

/-- `set_process`, the body of its loop. -/
def setProcess (status : ApplicationStatus) (cpu process : Int) :
    Except StatusError ApplicationStatus :=
  status.checked cpu <|
    let status := status.modify cpu fun entry => { entry with process }
    if process = -1 then status.setHash cpu (BitVec.ofNat 64 regionHashInvalid) regionHintInactive
    else status.setHash cpu regionHashUnmarked regionHintUnset

/-- `update_cache`. -/
def updateCache (status : ApplicationStatus) : ApplicationStatus :=
  { status with cache := status.buffer }

/-- `get_hash`. -/
def getHash (status : ApplicationStatus) (cpu : Int) : Except StatusError (BitVec 64) :=
  status.checked cpu (.ok ((status.cache cpu).hash.setWidth 64))

/-- `get_hint`. -/
def getHint (status : ApplicationStatus) (cpu : Int) : Except StatusError (BitVec 64) :=
  status.checked cpu <|
    let result := (status.cache cpu).hint.setWidth 64 <<< 32
    if result &&& ~~~regionHintMask ≠ 0 then .error .invalidHint else .ok result

end ApplicationStatus

section Fields

variable {regionId hash hint : BitVec 64}

/-- A hash has no bits but those that are kept of it. -/
theorem regionIdHash_high : (BitVec.allOnes 64 <<< 32) &&& regionIdHash regionId = 0 := by
  rw [regionIdHash]
  split
  case isTrue => decide
  case isFalse =>
      ext index inside
      simp only [BitVec.getElem_and, BitVec.getElem_ushiftRight, BitVec.getLsbD_shiftLeft,
        BitVec.getElem_shiftLeft]
      by_cases low : index < 32
      · simp [low]
      · simp [show ¬ 32 + index < 64 by omega]

theorem setWidth_regionIdHash :
    ((regionIdHash regionId).setWidth 32).setWidth 64 = regionIdHash regionId := by
  rw [regionIdHash]
  split
  case isTrue => decide
  case isFalse =>
      ext index inside
      simp
      omega

theorem regionIdHint_mask : regionIdHint regionId &&& ~~~regionHintMask = 0 := by
  rw [regionIdHint]
  split
  case isTrue => decide
  case isFalse =>
      split
      case isTrue => decide
      case isFalse =>
          split
          case isTrue => decide
          case isFalse =>
              rw [BitVec.and_assoc, BitVec.and_not_self]
              exact BitVec.and_zero

theorem regionHintMask_low {index : Nat} (low : index < 32) : regionHintMask.getLsbD index = false := by
  have bits : ∀ index < 32, regionHintMask.getLsbD index = false := by decide
  exact bits index low

/-- A hint is read back as it has been written. -/
theorem setWidth_hint (masked : hint &&& ~~~regionHintMask = 0) :
    ((hint >>> 32).setWidth 32).setWidth 64 <<< 32 = hint := by
  ext index inside
  have bit := congrArg (fun value => value.getLsbD index) masked
  simp only [BitVec.getLsbD_and, BitVec.getLsbD_not] at bit
  by_cases low : index < 32
  · rw [regionHintMask_low low] at bit
    simp [low, inside] at bit ⊢
    exact bit
  · have place : 32 + (index - 32) = index := by omega
    simp [low, place, inside]
    omega

end Fields

namespace ApplicationStatus

variable {status : ApplicationStatus} {cpu other : Int} {hash hint : BitVec 64}

/-- The CPU has an entry. -/
def Knows (status : ApplicationStatus) (cpu : Int) : Prop := 0 ≤ cpu ∧ cpu < status.numCpu

/-- What `set_hint` writes. -/
def hintEntry (hint : BitVec 64) (entry : CpuStatus) : CpuStatus :=
  { entry with hint := (hint >>> 32).setWidth 32 }

/-- What `set_hash` writes. -/
def hashEntry (hash hint : BitVec 64) (entry : CpuStatus) : CpuStatus :=
  { entry with hash := hash.setWidth 32, hint := (hint >>> 32).setWidth 32 }

/-- What `reset_work_units` writes. -/
def idleEntry (entry : CpuStatus) : CpuStatus := { entry with totalWork := 0, completedWork := 0 }

theorem hintEntry_again (entry : CpuStatus) :
    hintEntry hint (hintEntry hint entry) = hintEntry hint entry := rfl

theorem checked_known {Value : Type} {rest : Except StatusError Value} (known : status.Knows cpu) :
    status.checked cpu rest = rest := by
  rw [checked, if_neg]
  obtain ⟨lower, upper⟩ := known
  omega

theorem setHint_known (known : status.Knows cpu) (masked : hint &&& ~~~regionHintMask = 0) :
    status.setHint cpu hint = .ok (status.modify cpu (hintEntry hint)) := by
  rw [setHint, checked_known known, if_neg (fun high => high masked)]
  rfl

theorem setHash_known (known : status.Knows cpu)
    (masked : (BitVec.allOnes 64 <<< 32) &&& hash = 0) :
    status.setHash cpu hash hint = .ok (status.modify cpu (hashEntry hash hint)) := by
  rw [setHash, checked_known known, if_neg (fun high => high masked)]
  rfl

theorem resetWorkUnits_known (known : status.Knows cpu) :
    status.resetWorkUnits cpu = .ok (status.modify cpu idleEntry) :=
  checked_known known

@[simp] theorem numCpu_modify {change : CpuStatus → CpuStatus} :
    (status.modify cpu change).numCpu = status.numCpu := rfl

theorem modify_self {change : CpuStatus → CpuStatus} :
    (status.modify cpu change).buffer cpu = change (status.buffer cpu) := Function.update_self _ _ _

theorem modify_other {change : CpuStatus → CpuStatus} (different : other ≠ cpu) :
    (status.modify cpu change).buffer other = status.buffer other := Function.update_of_ne different _ _

theorem modify_modify {first second : CpuStatus → CpuStatus} :
    (status.modify cpu first).modify cpu second = status.modify cpu fun entry => second (first entry) := by
  simp [modify]

/-- A write to the entries of some CPUs. -/
def modifyAll (status : ApplicationStatus) (cpus : List Int) (change : CpuStatus → CpuStatus) :
    ApplicationStatus :=
  cpus.foldl (fun status cpu => status.modify cpu change) status

@[simp] theorem numCpu_modifyAll {cpus : List Int} {change : CpuStatus → CpuStatus} :
    (status.modifyAll cpus change).numCpu = status.numCpu := by
  induction cpus generalizing status with
  | nil => rfl
  | cons cpu rest ih => exact ih

theorem modifyAll_outside {cpus : List Int} {change : CpuStatus → CpuStatus} (outside : cpu ∉ cpus) :
    (status.modifyAll cpus change).buffer cpu = status.buffer cpu := by
  induction cpus generalizing status with
  | nil => rfl
  | cons head rest ih =>
      rw [List.mem_cons, not_or] at outside
      exact (ih outside.2).trans (modify_other outside.1)

/-- Each of the CPUs is written to, where writing twice is no different. -/
theorem modifyAll_inside {cpus : List Int} {change : CpuStatus → CpuStatus}
    (again : ∀ entry, change (change entry) = change entry) (inside : cpu ∈ cpus) :
    (status.modifyAll cpus change).buffer cpu = change (status.buffer cpu) := by
  induction cpus generalizing status with
  | nil => cases inside
  | cons head rest ih =>
      by_cases later : cpu ∈ rest
      · have written : (status.modifyAll (head :: rest) change).buffer cpu =
            change ((status.modify head change).buffer cpu) := ih later
        rw [written]
        by_cases first : cpu = head
        · rw [first, modify_self, again]
        · rw [modify_other first]
      · have first : cpu = head := (List.mem_cons.mp inside).resolve_right later
        have written : (status.modifyAll (head :: rest) change).buffer cpu =
            (status.modify head change).buffer cpu := modifyAll_outside later
        rw [written, first, modify_self]

end ApplicationStatus

end Geopm
