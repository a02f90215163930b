import Geopm.Library.MaskedWrite
import Geopm.Library.Stateful
import Mathlib.Data.List.Basic
import Mathlib.Logic.Function.Basic

namespace Geopm

open MaskedWrite (store select)

/-! `MSRIOImp`: access to the registers of the processors, one by one or in
batches.

The registers are reached through system calls. What the kernel does is a
parameter; `Driver.Documented` says what a call that succeeds has done.
-/

abbrev Word := BitVec 64

/-- The contents of the registers, by CPU and offset. -/
abbrev Registers := Nat → Nat → Word

/-- The contents after one register was changed. -/
def Registers.set (registers : Registers) (cpu offset : Nat) (value : Word) : Registers :=
  Function.update registers cpu (Function.update (registers cpu) offset value)

/-- `m_msr_batch_op_s`. -/
structure BatchOp where
  /-- CPU to execute the instruction, `uint16_t` -/
  cpu : Nat
  /-- read or write -/
  isrdmsr : Bool
  /-- error code from the operation -/
  err : Int
  /-- address of the register, `uint32_t` -/
  msr : Nat
  /-- input or result -/
  msrdata : Word
  /-- write mask applied to a write, set by the operation -/
  wmask : Word
deriving DecidableEq

/-- The system calls on the files of the registers. -/
structure Driver where
  pread : Registers → Nat → Nat → Option Word
  pwrite : Registers → Nat → Nat → Word → Option Registers
  ioctl : Registers → List BatchOp → Option (Registers × List BatchOp)

/-- One operation of a batch. Bits outside the write mask are not written. -/
def BatchOp.execute (writable : Nat → Word) (registers : Registers) (op : BatchOp) :
    Registers × BatchOp :=
  if op.isrdmsr then
    (registers, { op with err := 0, msrdata := registers op.cpu op.msr, wmask := writable op.msr })
  else
    (registers.set op.cpu op.msr (select (writable op.msr) (registers op.cpu op.msr) op.msrdata),
      { op with err := 0, wmask := writable op.msr })

/-- The operations of a batch in order. -/
def executeAll (writable : Nat → Word) : Registers → List BatchOp → Registers × List BatchOp
  | registers, [] => (registers, [])
  | registers, op :: rest =>
      let (next, done) := op.execute writable registers
      let (last, others) := executeAll writable next rest
      (last, done :: others)

/-- What the system calls have done when they succeed. The write mask of a
register is the same for direct and for batched access. -/
structure Driver.Documented (driver : Driver) (writable : Nat → Word) : Prop where
  pread_eq : ∀ {registers cpu offset value}, driver.pread registers cpu offset = some value →
    value = registers cpu offset
  pwrite_eq : ∀ {registers cpu offset value next},
    driver.pwrite registers cpu offset value = some next →
    next = registers.set cpu offset (select (writable offset) (registers cpu offset) value)
  ioctl_eq : ∀ {registers ops next done}, driver.ioctl registers ops = some (next, done) →
    (∀ op ∈ done, op.err = 0) → (next, done) = executeAll writable registers ops

inductive MsrError where
  /-- "MSRIOImp::read_msr(): pread() failed at offset" -/
  | readFailed (offset : Nat)
  /-- "MSRIOImp::write_msr(): pwrite() failed at offset" -/
  | writeFailed (offset : Nat)
  /-- "raw_value does not obey write_mask", in `write_msr` and `adjust` -/
  | valueOutsideMask (value mask : Word)
  /-- "MSRIOImp::system_write_mask(): read of mask failed" -/
  | maskReadFailed
  /-- "MSRIOImp::msr_ioctl(): call to ioctl() for /dev/cpu/msr_batch failed" -/
  | ioctlFailed
  /-- "MSRIOImp::msr_ioctl(): operation failed at offset" -/
  | operationFailed (offset : Nat)
  /-- "MSRIOImp::adjust(): batch_idx out of range" -/
  | batchIdxOutOfRange (index : Int)
  /-- "MSRIOImp::adjust(): write_mask is out of bounds" -/
  | maskOutOfBounds
  /-- "MSRIOImp::msr_desc(): cpu_idx out of range", or `std::out_of_range` -/
  | cpuOutOfRange (cpu : Nat)
deriving DecidableEq

/-- The error stems from a system call. -/
def MsrError.isSystem : MsrError → Bool
  | .readFailed _ | .writeFailed _ | .maskReadFailed | .ioctlFailed | .operationFailed _ => true
  | _ => false

/-- One entry of `m_write_batch_op`, `m_write_val` and `m_write_mask`. -/
structure WriteSlot where
  op : BatchOp
  val : Word
  mask : Word
deriving DecidableEq

/-- `MSRIOImp` without what it needs for batched reads. -/
structure Msrio where
  numCpu : Nat
  isBatchEnabled : Bool
  offsetMaskMap : Nat → Option Word
  writeBatchOp : List WriteSlot
  writeBatchIdxMap : Nat → Nat → Option Nat

/-- The object with the registers that it acts on, and all contents that these
have had before. -/
structure Machine where
  registers : Registers
  past : List Registers
  msrio : Msrio

abbrev MsrM := EStateM MsrError Machine

/-- The constructor, in a mode that depends on the system. -/
def Msrio.new (numCpu : Nat) (isBatchEnabled : Bool) : Msrio where
  numCpu
  isBatchEnabled
  offsetMaskMap _ := none
  writeBatchOp := []
  writeBatchIdxMap _ _ := none

namespace Machine

/-- A system call has changed the registers. -/
def changed (machine : Machine) (registers : Registers) : Machine :=
  { machine with registers, past := machine.registers :: machine.past }

@[simp] theorem changed_registers (machine : Machine) (registers : Registers) :
    (machine.changed registers).registers = registers := rfl

@[simp] theorem changed_past (machine : Machine) (registers : Registers) :
    (machine.changed registers).past = machine.registers :: machine.past := rfl

@[simp] theorem changed_msrio (machine : Machine) (registers : Registers) :
    (machine.changed registers).msrio = machine.msrio := rfl

/-- The batch with its slots rewritten. -/
def mapBatch (machine : Machine) (change : WriteSlot → WriteSlot) : Machine :=
  { machine with
    msrio := { machine.msrio with writeBatchOp := machine.msrio.writeBatchOp.map change } }

end Machine

namespace Msrio

variable (driver : Driver)

/-- `msr_desc`, of which only the check matters. -/
def msrDesc (cpu : Nat) : MsrM Unit := do
  if (← get).msrio.numCpu < cpu then
    throw (.cpuOutOfRange cpu)

def readMsr (cpu offset : Nat) : MsrM Word := do
  msrDesc cpu
  match driver.pread (← get).registers cpu offset with
  | none => throw (.readFailed offset)
  | some result => pure result

def writeMsr (cpu offset : Nat) (rawValue writeMask : Word) : MsrM Unit := do
  if rawValue &&& writeMask ≠ rawValue then
    throw (.valueOutsideMask rawValue writeMask)
  let value ← readMsr driver cpu offset
  msrDesc cpu
  match driver.pwrite (← get).registers cpu offset (store writeMask rawValue value) with
  | none => throw (.writeFailed offset)
  | some registers => modify (·.changed registers)

/-- The read that `system_write_mask` asks for. -/
def maskOp (offset : Nat) : BatchOp := ⟨0, true, 0, offset % 2 ^ 32, 0, 0⟩

def systemWriteMask (offset : Nat) : MsrM Word := do
  let machine ← get
  if !machine.msrio.isBatchEnabled then
    pure (BitVec.allOnes 64)
  else
    match machine.msrio.offsetMaskMap offset with
    | some mask => pure mask
    | none =>
        match driver.ioctl machine.registers [maskOp offset] with
        | some (registers, [op]) =>
            set (machine.changed registers)
            if op.err ≠ 0 then
              throw .maskReadFailed
            modify fun machine =>
              { machine with
                msrio := { machine.msrio with
                  offsetMaskMap :=
                    Function.update machine.msrio.offsetMaskMap offset (some op.wmask) } }
            pure op.wmask
        | _ => throw .maskReadFailed

def addWrite (cpu offset : Nat) : MsrM Nat := do
  let machine ← get
  if machine.msrio.numCpu ≤ cpu then
    throw (.cpuOutOfRange cpu)
  match machine.msrio.writeBatchIdxMap cpu offset with
  | some result => pure result
  | none => do
      let result := machine.msrio.writeBatchOp.length
      let wmask ← systemWriteMask driver offset
      let op : BatchOp := ⟨cpu % 2 ^ 16, true, 0, offset % 2 ^ 32, 0, wmask⟩
      modify fun machine =>
        { machine with
          msrio := { machine.msrio with
            writeBatchOp := machine.msrio.writeBatchOp ++ [⟨op, 0, 0⟩]
            writeBatchIdxMap := Function.update machine.msrio.writeBatchIdxMap cpu
              (Function.update (machine.msrio.writeBatchIdxMap cpu) offset (some result)) } }
      pure result

def WriteSlot.adjust (rawValue writeMask : Word) (slot : WriteSlot) : WriteSlot :=
  { slot with
    val := store writeMask rawValue slot.val
    mask := slot.mask ||| writeMask }

def adjust (batchIdx : Int) (rawValue writeMask : Word) : MsrM Unit := do
  let machine ← get
  if batchIdx < 0 then
    throw (.batchIdxOutOfRange batchIdx)
  match machine.msrio.writeBatchOp[batchIdx.toNat]? with
  | none => throw (.batchIdxOutOfRange batchIdx)
  | some slot =>
      if ~~~slot.op.wmask &&& writeMask ≠ 0 then
        throw .maskOutOfBounds
      if rawValue &&& writeMask ≠ rawValue then
        throw (.valueOutsideMask rawValue writeMask)
      set { machine with
        msrio := { machine.msrio with
          writeBatchOp := machine.msrio.writeBatchOp.modify batchIdx.toNat
            (WriteSlot.adjust rawValue writeMask) } }

/-- `msr_ioctl` on the write batch, whose operations it rewrites. -/
def msrIoctl : MsrM Unit := do
  let machine ← get
  match driver.ioctl machine.registers (machine.msrio.writeBatchOp.map (·.op)) with
  | none => throw .ioctlFailed
  | some (registers, done) =>
      let writeBatchOp := machine.msrio.writeBatchOp.zipWith (fun slot op => { slot with op }) done
      set { machine.changed registers with msrio := { machine.msrio with writeBatchOp } }
      match done.find? (·.err ≠ 0) with
      | some op => throw (.operationFailed op.msr)
      | none => pure ()

/-- The modification between the two calls of `msr_ioctl_write`. -/
def WriteSlot.prepare (slot : WriteSlot) : WriteSlot :=
  { slot with
    op := { slot.op with isrdmsr := false, msrdata := store slot.mask slot.val slot.op.msrdata } }

def WriteSlot.finish (slot : WriteSlot) : WriteSlot :=
  { slot with op := { slot.op with isrdmsr := true } }

def msrIoctlWrite : MsrM Unit := do
  msrIoctl driver
  modify (·.mapBatch WriteSlot.prepare)
  msrIoctl driver
  modify (·.mapBatch WriteSlot.finish)

def WriteSlot.clear (slot : WriteSlot) : WriteSlot := { slot with val := 0, mask := 0 }

/-- The registers of the batch one by one, where there is no batch file. -/
def writeEach : List WriteSlot → MsrM Unit
  | [] => pure ()
  | slot :: rest => do
      writeMsr driver slot.op.cpu slot.op.msr slot.val slot.mask
      writeEach rest

/-- `write_batch` before it clears the adjustments. -/
def writeAdjusted : MsrM Unit := do
  let machine ← get
  if machine.msrio.isBatchEnabled then
    msrIoctlWrite driver
  else
    writeEach driver machine.msrio.writeBatchOp

def writeBatch : MsrM Unit := do
  writeAdjusted driver
  modify (·.mapBatch WriteSlot.clear)

end Msrio

end Geopm
