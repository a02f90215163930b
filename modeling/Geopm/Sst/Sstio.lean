import Geopm.Library.Objects

namespace Geopm

/-! `SSTIO`: the mailbox and MMIO registers of Speed Select, through the ioctls of its driver. -/

/-- `sst_mbox_interface_s`. -/
structure MboxInterface where
  cpuIndex : BitVec 32
  mboxInterfaceParam : BitVec 32
  /-- Mailbox data, or the input of a read. -/
  writeValue : BitVec 32
  readValue : BitVec 32
  command : BitVec 16
  subcommand : BitVec 16
deriving Repr, DecidableEq

/-- `sst_mmio_interface_s`. -/
structure MmioInterface where
  isWrite : BitVec 32
  cpuIndex : BitVec 32
  registerOffset : BitVec 32
  value : BitVec 32
deriving Repr, DecidableEq

/-- `message_type_e`. -/
inductive MessageType where
  | mbox
  | mmio
deriving Repr, DecidableEq

inductive SstioError where
  /-- "sstioimp::write_batch() pre-write mbox read failed". -/
  | batchMboxRead
  /-- "sstioimp::write_batch() mbox write failed". -/
  | batchMboxWrite
  /-- "sstioimp::write_batch() pre-write mmio read failed". -/
  | batchMmioRead
  /-- "sstioimp::write_batch() mmio write failed". -/
  | batchMmioWrite
  /-- "sstioimp::write_mbox_once() pre-write mbox read failed". -/
  | onceMboxRead
  /-- "sstioimp::write_mbox_once() mbox write failed". -/
  | onceMboxWrite
  /-- "sstioimp::write_mmio_once() pre-write mmio read failed". -/
  | onceMmioRead
  /-- "sstioimp::write_mmio_once() mmio write failed". -/
  | onceMmioWrite
  /-- "SSTIOImp::read_batch() mbox read failed". -/
  | readBatchMbox
  /-- "SSTIOImp::read_batch() mmio read failed". -/
  | readBatchMmio
  /-- "Inserted an existing signal, but cannot find its signal index". -/
  | noSignalIndex
  /-- "Inserted an existing control, but cannot find its control index". -/
  | noControlIndex
  /-- An access past the end of a vector, which C++ does not check. -/
  | outOfBounds
deriving Repr, DecidableEq

/-- The ioctls of the driver: the device after one, and the batch with its results unless it fails. -/
structure SstDriver (Device : Type) where
  mbox : List MboxInterface → Device → Device × Option (List MboxInterface)
  mmio : List MmioInterface → Device → Device × Option (List MmioInterface)

/-- Where a message carries the value to write and the value that has been read. -/
structure Wire (Message : Type) where
  result : Message → BitVec 32
  value : Message → BitVec 32
  withValue : Message → BitVec 32 → Message

def mboxWire : Wire MboxInterface where
  result := MboxInterface.readValue
  value := MboxInterface.writeValue
  withValue message value := { message with writeValue := value }

def mmioWire : Wire MmioInterface where
  result := MmioInterface.value
  value := MmioInterface.value
  withValue message value := { message with value }

/-- The interfaces of one type of message. -/
structure Channel (Message : Type) where
  readInterfaces : List Message
  writeInterfaces : List Message
  rmwInterfaces : List Message
  rmwReadMasks : List (BitVec 32)
  rmwWriteMasks : List (BitVec 32)

/-- `SSTIOImp`, with the device behind the driver and all messages that the driver has been sent. -/
structure Sstio (Device : Type) where
  batchCommandLimit : Nat
  mbox : Channel MboxInterface
  mmio : Channel MmioInterface
  addedInterfaces : List (MessageType × Nat)
  device : Device
  mboxSent : List MboxInterface
  mmioSent : List MmioInterface

/-- What the ioctl of one type of message works on. -/
structure Side (Device Message : Type) where
  device : Device
  channel : Channel Message
  sent : List Message

/-- The loop of `ioctl_structs_from_vector`, with a bound on its passes. -/
def structsWithin {Message : Type} (limit : Nat) : Nat → List Message → List (List Message)
  | 0, _ => []
  | passes + 1, commands =>
      if commands.isEmpty then []
      else commands.take limit :: structsWithin limit passes (commands.drop limit)

/-- `ioctl_structs_from_vector`. Every pass handles at least one command. -/
def ioctlStructsFromVector {Message : Type} (limit : Nat) (commands : List Message) : List (List Message) :=
  structsWithin limit commands.length commands

namespace Side

variable {Device Message : Type}

def ioctl (call : List Message → Device → Device × Option (List Message)) (failure : SstioError)
    (batch : List Message) : EStateM SstioError (Side Device Message) (List Message) := fun side =>
  let outcome := call batch side.device
  let next := { side with device := outcome.1, sent := side.sent ++ batch }
  match outcome.2 with
  | some answers => .ok answers next
  | none => .error failure next

/-- The readable bits of an answer that have not been adjusted go into the interface. -/
def mergeEntry (wire : Wire Message) (answer : Message) (readMask writeMask : BitVec 32)
    (interface : Message) : Message :=
  wire.withValue interface (wire.value interface ||| (~~~writeMask &&& (wire.result answer &&& readMask)))

/-- The loop over the entries of a batch that has been read. The masks and the interfaces are
taken at the place of an entry in its batch. -/
def merge (wire : Wire Message) :
    List Message → List (BitVec 32) → List (BitVec 32) → List Message → List Message
  | answer :: answers, readMask :: readMasks, writeMask :: writeMasks, interface :: interfaces =>
      mergeEntry wire answer readMask writeMask interface ::
        merge wire answers readMasks writeMasks interfaces
  | _, _, _, interfaces => interfaces

/-- The half of `write_batch` for one type of message. -/
def writeBatch (wire : Wire Message) (call : List Message → Device → Device × Option (List Message))
    (readFailure writeFailure : SstioError) (limit : Nat) :
    EStateM SstioError (Side Device Message) Unit := do
  let side ← get
  if ¬ side.channel.writeInterfaces.isEmpty then
    (ioctlStructsFromVector limit side.channel.rmwInterfaces).forM fun batch => do
      let answers ← ioctl call readFailure batch
      modify fun side => { side with
        channel := { side.channel with
          writeInterfaces := merge wire answers side.channel.rmwReadMasks side.channel.rmwWriteMasks
            side.channel.writeInterfaces } }
    let side ← get
    (ioctlStructsFromVector limit side.channel.writeInterfaces).forM fun batch => do
      let _ ← ioctl call writeFailure batch

end Side

/-- What a single write stores: the value, and the readable bits that the mask leaves. -/
def onceValue (readMask contents : BitVec 32) (writeValue writeMask : BitVec 64) : BitVec 32 :=
  (writeValue ||| (~~~writeMask &&& (contents &&& readMask).setWidth 64)).setWidth 32

/-- The change of an interface by `adjust`. -/
def Channel.adjust {Message : Type} (channel : Channel Message) (wire : Wire Message) (index : Nat)
    (writeValue writeMask : BitVec 64) : Channel Message :=
  { channel with
    writeInterfaces := channel.writeInterfaces.modify index fun interface =>
      wire.withValue interface
        ((wire.value interface &&& (~~~writeMask).setWidth 32) ||| writeValue.setWidth 32)
    rmwWriteMasks := channel.rmwWriteMasks.modify index (· ||| writeMask.setWidth 32) }

namespace Sstio

variable {Device : Type}

def onMbox {Value : Type} : EStateM SstioError (Side Device MboxInterface) Value →
    EStateM SstioError (Sstio Device) Value :=
  Objects.within (fun sstio => ⟨sstio.device, sstio.mbox, sstio.mboxSent⟩)
    (fun sstio side =>
      { sstio with device := side.device, mbox := side.channel, mboxSent := side.sent }) id

def onMmio {Value : Type} : EStateM SstioError (Side Device MmioInterface) Value →
    EStateM SstioError (Sstio Device) Value :=
  Objects.within (fun sstio => ⟨sstio.device, sstio.mmio, sstio.mmioSent⟩)
    (fun sstio side =>
      { sstio with device := side.device, mmio := side.channel, mmioSent := side.sent }) id

/-- After the constructor. -/
def new (batchCommandLimit : Nat) (device : Device) : Sstio Device where
  batchCommandLimit
  mbox := ⟨[], [], [], [], []⟩
  mmio := ⟨[], [], [], [], []⟩
  addedInterfaces := []
  device
  mboxSent := []
  mmioSent := []

/-- `add_mbox_read`. -/
def addMboxRead (cpuIndex : BitVec 32) (command subcommand : BitVec 16) (subcommandArg : BitVec 32) :
    EStateM SstioError (Sstio Device) Nat := do
  let mbox : MboxInterface := ⟨cpuIndex, 0, subcommandArg, 0, command, subcommand⟩
  let sstio ← get
  let found := sstio.mbox.readInterfaces.findIdx? fun existing =>
    existing.cpuIndex = mbox.cpuIndex ∧ existing.mboxInterfaceParam = mbox.mboxInterfaceParam ∧
      existing.command = mbox.command ∧ existing.subcommand = mbox.subcommand ∧
      existing.writeValue = mbox.writeValue
  match found with
  | none =>
      let mboxIdx := sstio.mbox.readInterfaces.length
      set { sstio with
        mbox := { sstio.mbox with readInterfaces := sstio.mbox.readInterfaces ++ [mbox] }
        addedInterfaces := sstio.addedInterfaces ++ [(MessageType.mbox, mboxIdx)] }
      return sstio.addedInterfaces.length
  | some readInterfaceIdx =>
      match sstio.addedInterfaces.idxOf? (.mbox, readInterfaceIdx) with
      | none => throw .noSignalIndex
      | some idx => return idx

/-- `add_mbox_write`. -/
def addMboxWrite (cpuIndex : BitVec 32) (command subcommand : BitVec 16)
    (interfaceParameter : BitVec 32) (readSubcommand : BitVec 16)
    (readInterfaceParameter readMask : BitVec 32) : EStateM SstioError (Sstio Device) Nat := do
  let mbox : MboxInterface := ⟨cpuIndex, interfaceParameter, 0, 0, command, subcommand⟩
  let sstio ← get
  let found := sstio.mbox.writeInterfaces.findIdx? fun existing =>
    existing.cpuIndex = mbox.cpuIndex ∧ existing.mboxInterfaceParam = mbox.mboxInterfaceParam ∧
      existing.command = mbox.command ∧ existing.subcommand = mbox.subcommand
  match found with
  | none =>
      let mboxIdx := sstio.mbox.writeInterfaces.length
      let rmw := { mbox with mboxInterfaceParam := readInterfaceParameter, subcommand := readSubcommand }
      set { sstio with
        mbox := { sstio.mbox with
          writeInterfaces := sstio.mbox.writeInterfaces ++ [mbox]
          rmwInterfaces := sstio.mbox.rmwInterfaces ++ [rmw]
          rmwReadMasks := sstio.mbox.rmwReadMasks ++ [readMask]
          rmwWriteMasks := sstio.mbox.rmwWriteMasks ++ [0] }
        addedInterfaces := sstio.addedInterfaces ++ [(MessageType.mbox, mboxIdx)] }
      return sstio.addedInterfaces.length
  | some writeInterfaceIdx =>
      match sstio.addedInterfaces.idxOf? (.mbox, writeInterfaceIdx) with
      | none => throw .noControlIndex
      | some idx => return idx

/-- `add_mmio_read`. -/
def addMmioRead (cpuIndex : BitVec 32) (registerOffset : BitVec 16) :
    EStateM SstioError (Sstio Device) Nat := do
  let mmio : MmioInterface := ⟨0, cpuIndex, registerOffset.setWidth 32, 0⟩
  let sstio ← get
  let mmioIdx := sstio.mmio.readInterfaces.length
  set { sstio with
    mmio := { sstio.mmio with readInterfaces := sstio.mmio.readInterfaces ++ [mmio] }
    addedInterfaces := sstio.addedInterfaces ++ [(MessageType.mmio, mmioIdx)] }
  return sstio.addedInterfaces.length

/-- `add_mmio_write`. -/
def addMmioWrite (cpuIndex : BitVec 32) (registerOffset : BitVec 16) (registerValue readMask : BitVec 32) :
    EStateM SstioError (Sstio Device) Nat := do
  let mmio : MmioInterface := ⟨1, cpuIndex, registerOffset.setWidth 32, registerValue⟩
  let sstio ← get
  let mmioIdx := sstio.mmio.writeInterfaces.length
  set { sstio with
    mmio := { sstio.mmio with
      writeInterfaces := sstio.mmio.writeInterfaces ++ [mmio]
      rmwInterfaces := sstio.mmio.rmwInterfaces ++ [{ mmio with isWrite := 0 }]
      rmwReadMasks := sstio.mmio.rmwReadMasks ++ [readMask]
      rmwWriteMasks := sstio.mmio.rmwWriteMasks ++ [0] }
    addedInterfaces := sstio.addedInterfaces ++ [(MessageType.mmio, mmioIdx)] }
  return sstio.addedInterfaces.length

/-- `adjust`. -/
def adjust (batchIdx : Nat) (writeValue writeMask : BitVec 64) :
    EStateM SstioError (Sstio Device) Unit := do
  let sstio ← get
  match sstio.addedInterfaces[batchIdx]? with
  | none => throw .outOfBounds
  | some (.mbox, index) =>
      if index < sstio.mbox.writeInterfaces.length then
        set { sstio with mbox := sstio.mbox.adjust mboxWire index writeValue writeMask }
      else throw .outOfBounds
  | some (.mmio, index) =>
      if index < sstio.mmio.writeInterfaces.length then
        set { sstio with mmio := sstio.mmio.adjust mmioWire index writeValue writeMask }
      else throw .outOfBounds

section Driver

variable (driver : SstDriver Device)

def writeMbox : EStateM SstioError (Sstio Device) Unit := do
  let sstio ← get
  onMbox (Side.writeBatch mboxWire driver.mbox .batchMboxRead .batchMboxWrite sstio.batchCommandLimit)

def writeMmio : EStateM SstioError (Sstio Device) Unit := do
  let sstio ← get
  onMmio (Side.writeBatch mmioWire driver.mmio .batchMmioRead .batchMmioWrite sstio.batchCommandLimit)

/-- `write_batch`. -/
def writeBatch : EStateM SstioError (Sstio Device) Unit := do
  writeMbox driver
  writeMmio driver

/-- `write_mbox_once`. -/
def writeMboxOnce (cpuIndex : BitVec 32) (command subcommand : BitVec 16)
    (interfaceParameter : BitVec 32) (readSubcommand : BitVec 16)
    (readInterfaceParameter readMask : BitVec 32) (writeValue writeMask : BitVec 64) :
    EStateM SstioError (Sstio Device) Unit := onMbox do
  let answers ← Side.ioctl driver.mbox .onceMboxRead
    [⟨cpuIndex, readInterfaceParameter, 0, 0, command, readSubcommand⟩]
  match answers with
  | [] => throw .outOfBounds
  | entry :: _ =>
      let _ ← Side.ioctl driver.mbox .onceMboxWrite [{ entry with
        writeValue := onceValue readMask entry.readValue writeValue writeMask
        mboxInterfaceParam := interfaceParameter
        readValue := 0
        subcommand }]

/-- `write_mmio_once`. -/
def writeMmioOnce (cpuIndex : BitVec 32) (registerOffset : BitVec 16) (_registerValue readMask : BitVec 32)
    (writeValue writeMask : BitVec 64) : EStateM SstioError (Sstio Device) Unit := onMmio do
  let answers ← Side.ioctl driver.mmio .onceMmioRead [⟨0, cpuIndex, registerOffset.setWidth 32, 0⟩]
  match answers with
  | [] => throw .outOfBounds
  | entry :: _ =>
      let _ ← Side.ioctl driver.mmio .onceMmioWrite [{ entry with
        isWrite := 1
        value := onceValue readMask entry.value writeValue writeMask }]

end Driver

end Sstio

end Geopm
