import Geopm.Library.Objects
import Geopm.Msr.Msrio

namespace Geopm

/-! `MSRFieldControl`, `DomainControl` and the controls of `MSRIOGroup`. -/

inductive GroupError where
  | msr (reason : MsrError)
  /-- thrown while a setting is encoded -/
  | encode (message : String)
  /-- "cannot call adjust() before setup_batch()" -/
  | notBatchReady
  /-- "MSRIOGroup::push_control(): cannot push a control after read_batch() or adjust() has been called." -/
  | pushAfterActive
  /-- "control name not found" -/
  | controlNotFound (name : String)
  /-- "domain_type does not match the domain of the control." -/
  | domainMismatch
  /-- "domain_idx out of range" -/
  | domainIdxOutOfRange
  /-- "MSRIOGroup::write_batch() called before all controls were adjusted" -/
  | notAllAdjusted
  /-- "MSRIOGroup::adjust(): control_idx out of range" -/
  | controlIdxOutOfRange
  /-- "PlatformTopoImp::num_domain(): invalid domain specified", where there is no lock signal -/
  | invalidDomain
  /-- "Unable to control power when RAPL lock bit is set." -/
  | locked
deriving DecidableEq

/-- `MSRFieldControl`. How a setting is encoded, before it is moved to the
position of the field, is a parameter. -/
structure FieldControl (Setting : Type) where
  cpu : Nat
  offset : Nat
  shift : Nat
  mask : Word
  raw : Setting → Except GroupError Word
  isBatchReady : Bool
  adjustIdx : Int
  savedMsrValue : Word

/-- `DomainControl`. -/
structure DomainControl (Setting : Type) where
  controls : List (FieldControl Setting)
  isBatchReady : Bool

/-- A method of an object that acts on the registers. -/
abbrev ControlM (Object : Type) := EStateM GroupError (Machine × Object)

/-- A call of the `MSRIO` object. -/
def onMachine {Object Value : Type} (computation : MsrM Value) : ControlM Object Value :=
  Objects.within Prod.fst (fun (_, object) machine => (machine, object)) .msr computation

variable {Setting : Type} (driver : Driver)

namespace FieldControl

/-- `m_mask`, of the bits from `begin_bit` to `end_bit`. -/
def fieldMask (beginBit endBit : Nat) : Word :=
  (((1 : Word) <<< (endBit - beginBit + 1)) - 1) <<< beginBit

/-- The constructor. -/
def new (cpu offset beginBit endBit : Nat) (raw : Setting → Except GroupError Word) :
    FieldControl Setting where
  cpu
  offset
  shift := beginBit
  mask := fieldMask beginBit endBit
  raw
  isBatchReady := false
  adjustIdx := -1
  savedMsrValue := 0

def encode (control : FieldControl Setting) (value : Setting) : Except GroupError Word :=
  (control.raw value).map fun (result : Word) => (result <<< control.shift) &&& control.mask

def setupBatch : ControlM (FieldControl Setting) Unit := do
  let (_, control) ← get
  if control.isBatchReady then
    pure ()
  else do
    let adjustIdx ← onMachine (Msrio.addWrite driver control.cpu control.offset)
    modify fun (machine, control) =>
      (machine, { control with adjustIdx, isBatchReady := true })

def adjust (value : Setting) : ControlM (FieldControl Setting) Unit := do
  let (_, control) ← get
  if !control.isBatchReady then
    throw .notBatchReady
  else
    match control.encode value with
    | .error reason => throw reason
    | .ok rawValue => onMachine (Msrio.adjust control.adjustIdx rawValue control.mask)

def write (value : Setting) : ControlM (FieldControl Setting) Unit := do
  let (_, control) ← get
  match control.encode value with
  | .error reason => throw reason
  | .ok rawValue =>
      onMachine (Msrio.writeMsr driver control.cpu control.offset rawValue control.mask)

def save : ControlM (FieldControl Setting) Unit := do
  let (_, control) ← get
  let value ← onMachine (Msrio.readMsr driver control.cpu control.offset)
  modify fun (machine, control) => (machine, { control with savedMsrValue := value &&& control.mask })

def restore : ControlM (FieldControl Setting) Unit := do
  let (_, control) ← get
  onMachine (Msrio.writeMsr driver control.cpu control.offset control.savedMsrValue control.mask)

end FieldControl

namespace DomainControl

/-- A method of each of the controls. -/
def onControls (method : ControlM (FieldControl Setting) Unit) :
    ControlM (DomainControl Setting) Unit :=
  Objects.within (fun (machine, control) => (machine, control.controls))
    (fun (_, control) (machine, controls) => (machine, { control with controls })) id
    (Objects.onEach method)

def setupBatch : ControlM (DomainControl Setting) Unit := do
  let (_, control) ← get
  if control.isBatchReady then
    pure ()
  else do
    onControls (FieldControl.setupBatch driver)
    modify fun (machine, control) => (machine, { control with isBatchReady := true })

def adjust (value : Setting) : ControlM (DomainControl Setting) Unit := do
  let (_, control) ← get
  if !control.isBatchReady then
    throw .notBatchReady
  else
    onControls (FieldControl.adjust value)

def write (value : Setting) : ControlM (DomainControl Setting) Unit :=
  onControls (FieldControl.write driver value)

def save : ControlM (DomainControl Setting) Unit :=
  onControls (FieldControl.save driver)

def restore : ControlM (DomainControl Setting) Unit :=
  onControls (FieldControl.restore driver)

end DomainControl

end Geopm
