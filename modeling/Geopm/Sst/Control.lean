import Geopm.Library.WordField
import Geopm.Sst.Registers
import Mathlib.Algebra.Order.Field.Rat

namespace Geopm

/-! `SSTControl`: a field of a mailbox or of a register that is set to a scaled number. -/

/-- `SSTControl::ControlType`. -/
inductive ControlType where
  | mbox
  | mmio
deriving Repr, DecidableEq

structure SstControl where
  controlType : ControlType
  cpuIdx : BitVec 32
  command : BitVec 32
  subcommand : BitVec 32
  interfaceParameter : BitVec 32
  writeValue : BitVec 32
  adjustIdx : Nat
  shift : Nat
  numBit : Nat
  mask : BitVec 64
  rmwSubcommand : BitVec 32
  rmwInterfaceParameter : BitVec 32
  rmwReadMask : BitVec 32
  multiplier : ℚ

namespace SstControl

/-- After the constructor. -/
def new (controlType : ControlType) (cpuIdx command subcommand interfaceParameter writeValue : BitVec 32)
    (beginBit endBit : Nat) (scale : ℚ) (rmwSubcommand rmwInterfaceParameter rmwReadMask : BitVec 32) :
    SstControl where
  controlType
  cpuIdx
  command
  subcommand
  interfaceParameter
  writeValue
  adjustIdx := 0
  shift := beginBit
  numBit := endBit + 1 - beginBit
  mask := (((1 : BitVec 64) <<< (endBit + 1 - beginBit)) - 1) <<< beginBit
  rmwSubcommand
  rmwInterfaceParameter
  rmwReadMask
  multiplier := scale

/-- The setting as it is passed on, where the conversion to `uint64_t` is given. -/
def shifted (control : SstControl) (toUInt64 : ℚ → BitVec 64) (value : ℚ) : BitVec 64 :=
  toUInt64 (value * control.multiplier) <<< control.shift

variable {Device : Type}

/-- `setup_batch`. The functions that are called take 16 bits of a command and of an offset. -/
def setupBatch (control : SstControl) : EStateM SstioError (Sstio Device) SstControl :=
  match control.controlType with
  | .mmio => do
      let adjustIdx ← Sstio.addMmioWrite control.cpuIdx (control.interfaceParameter.setWidth 16)
        control.writeValue control.rmwReadMask
      return { control with adjustIdx }
  | .mbox => do
      let adjustIdx ← Sstio.addMboxWrite control.cpuIdx (control.command.setWidth 16)
        (control.subcommand.setWidth 16) control.interfaceParameter (control.rmwSubcommand.setWidth 16)
        control.rmwInterfaceParameter control.rmwReadMask
      return { control with adjustIdx }

def adjust (control : SstControl) (toUInt64 : ℚ → BitVec 64) (value : ℚ) :
    EStateM SstioError (Sstio Device) Unit :=
  Sstio.adjust control.adjustIdx (control.shifted toUInt64 value) control.mask

def write (driver : SstDriver Device) (control : SstControl) (toUInt64 : ℚ → BitVec 64) (value : ℚ) :
    EStateM SstioError (Sstio Device) Unit :=
  match control.controlType with
  | .mmio => Sstio.writeMmioOnce driver control.cpuIdx (control.interfaceParameter.setWidth 16)
      control.writeValue control.rmwReadMask (control.shifted toUInt64 value) control.mask
  | .mbox => Sstio.writeMboxOnce driver control.cpuIdx (control.command.setWidth 16)
      (control.subcommand.setWidth 16) control.interfaceParameter (control.rmwSubcommand.setWidth 16)
      control.rmwInterfaceParameter control.rmwReadMask (control.shifted toUInt64 value) control.mask

/-- A round up to the half of `write_batch` that writes the control. -/
def beforeHalf (driver : SstDriver Device) (control : SstControl) (toUInt64 : ℚ → BitVec 64) (value : ℚ) :
    EStateM SstioError (Sstio Device) Unit := do
  control.adjust toUInt64 value
  match control.controlType with
  | .mmio => Sstio.writeMbox driver
  | .mbox => return

/-- The half of `write_batch` that writes the control. -/
def half (driver : SstDriver Device) (control : SstControl) : EStateM SstioError (Sstio Device) Unit :=
  match control.controlType with
  | .mmio => Sstio.writeMmio driver
  | .mbox => Sstio.writeMbox driver

/-- What is left of `write_batch` after that half. -/
def afterHalf (driver : SstDriver Device) (control : SstControl) : EStateM SstioError (Sstio Device) Unit :=
  match control.controlType with
  | .mmio => return
  | .mbox => Sstio.writeMmio driver

theorem adjust_writeBatch (driver : SstDriver Device) (control : SstControl) (toUInt64 : ℚ → BitVec 64)
    (value : ℚ) : (do control.adjust toUInt64 value; Sstio.writeBatch driver :
        EStateM SstioError (Sstio Device) Unit) =
      (do control.beforeHalf driver toUInt64 value; control.half driver; control.afterHalf driver) := by
  unfold beforeHalf half afterHalf Sstio.writeBatch
  cases control.controlType with
  | mbox => simp only [bind_assoc, pure_bind]
  | mmio => simp only [bind_assoc, bind_pure_unit]

/-- The message that asks for the mailbox of the control. -/
def mboxRequest (control : SstControl) : MboxInterface :=
  ⟨control.cpuIdx, control.rmwInterfaceParameter, 0, 0, control.command.setWidth 16,
    control.rmwSubcommand.setWidth 16⟩

/-- The message that sets it, with no value. -/
def mboxInterface (control : SstControl) : MboxInterface :=
  ⟨control.cpuIdx, control.interfaceParameter, 0, 0, control.command.setWidth 16,
    control.subcommand.setWidth 16⟩

def mmioAddress (control : SstControl) : BitVec 32 × BitVec 32 :=
  (control.cpuIdx, (control.interfaceParameter.setWidth 16).setWidth 32)

end SstControl

section Batch

variable {Device Message Address : Type} [DecidableEq Address] {wire : Wire Message}
  {pairs : Message → Message → Prop} {call : List Message → Device → Device × Option (List Message)}
  {asks sets : Message → Prop} {answer : Device → Message → Message} {address : Message → Address}
  {contents : Device → Address → BitVec 32} {readFailure writeFailure : SstioError}

/-- The bits outside a field of a register after the field has been adjusted and a half of `write_batch`. The
last interface of the register decides. -/
theorem writeBatch_outside (file : RegisterFile wire call asks sets answer address contents)
    (lawful : wire.Lawful) (sameSets : ∀ message value, sets (wire.withValue message value) = sets message)
    (sameAddress : ∀ message value, address (wire.withValue message value) = address message)
    (stable : wire.Stable pairs) {limit place last bit : Nat} (positive : 0 < limit) {channel : Channel Message}
    (formed : channel.Formed pairs)
    (each : ∀ interface request, pairs interface request → asks request ∧ sets interface)
    {writeValue writeMask : BitVec 64} {before after : Side Device Message}
    (adjusted : before.channel = channel.adjust wire place writeValue writeMask)
    (done : (Side.writeBatch wire call readFailure writeFailure limit).run before = .ok () after)
    {interface : Message} {readMask mask : BitVec 32}
    (stored : channel.writeInterfaces[last]? = some interface)
    (reading : channel.rmwReadMasks[last]? = some readMask)
    (writing : channel.rmwWriteMasks[last]? = some mask)
    (none_later : ∀ (later : Nat) (other : Message), last < later →
      channel.writeInterfaces[later]? = some other → address other ≠ address interface)
    (inside : bit < 32) (outside : writeMask.getLsbD bit = false) :
    (contents after.device (address interface)).getLsbD bit = true ↔
      ((wire.value interface).getLsbD bit = true ∨ (place = last ∧ writeValue.getLsbD bit = true)) ∨
        (mask.getLsbD bit = false ∧ readMask.getLsbD bit = true ∧
          ∃ index request, channel.rmwInterfaces[index]? = some request ∧ index % limit = last ∧
            (contents before.device (address request)).getLsbD bit = true) := by
  have wide : bit < 64 := by omega
  have formedNow : before.channel.Formed pairs := adjusted ▸ formed.adjust stable writeValue writeMask
  have later : ∀ (later : Nat) (other : Message), last < later →
      before.channel.writeInterfaces[later]? = some other → address other ≠ address interface := by
    intro later other after listed
    rw [adjusted, Channel.adjust, List.getElem?_modify, Option.map_eq_map, Option.map_eq_some_iff] at listed
    obtain ⟨old, known, rfl⟩ := listed
    split
    · rw [sameAddress]
      exact none_later later old after known
    · exact none_later later old after known
  by_cases here : place = last
  · subst here
    have storedNow : before.channel.writeInterfaces[place]? = some (wire.withValue interface
        ((wire.value interface &&& (~~~writeMask).setWidth 32) ||| writeValue.setWidth 32)) := by
      simp [adjusted, Channel.adjust, stored]
    have writingNow : before.channel.rmwWriteMasks[place]? = some (mask ||| writeMask.setWidth 32) := by
      simp [adjusted, Channel.adjust, writing]
    have bits := Side.writeBatch_contents file lawful sameSets sameAddress positive formedNow each done storedNow
      (by rw [adjusted]; exact reading) writingNow (by rw [sameAddress]; exact later) bit
    rw [sameAddress, lawful.value_withValue] at bits
    simp only [adjusted, Channel.adjust, BitVec.getLsbD_or, BitVec.getLsbD_and, BitVec.getLsbD_not,
      BitVec.getLsbD_setWidth, inside, wide, outside, decide_true, Bool.true_and, Bool.not_false, Bool.and_true,
      Bool.or_false, Bool.or_eq_true] at bits
    rw [bits]
    simp
  · have storedNow : before.channel.writeInterfaces[last]? = some interface := by
      simp [adjusted, Channel.adjust, stored, here]
    have writingNow : before.channel.rmwWriteMasks[last]? = some mask := by
      simp [adjusted, Channel.adjust, writing, here]
    have bits := Side.writeBatch_contents file lawful sameSets sameAddress positive formedNow each done storedNow
      (by rw [adjusted]; exact reading) writingNow later bit
    rw [bits, adjusted]
    simp [here, Channel.adjust]

end Batch

/-- The last interface of a register, with what is stored for it and its masks. -/
structure LastOf {Message Address : Type} (wire : Wire Message) (address : Message → Address)
    (channel : Channel Message) (register : Address) (last : Nat) (stored adjusted readMask : BitVec 32) :
    Prop where
  stored : ∃ interface, channel.writeInterfaces[last]? = some interface ∧ address interface = register ∧
    wire.value interface = stored
  reading : channel.rmwReadMasks[last]? = some readMask
  writing : channel.rmwWriteMasks[last]? = some adjusted
  none_later : ∀ (later : Nat) (other : Message), last < later → channel.writeInterfaces[later]? = some other →
    address other ≠ register

/-- The readable bits outside the field are as they were. -/
def KeepsOutside (beginBit endBit : Nat) (readMask old new : BitVec 32) : Prop :=
  ∀ bit < 32, bit < beginBit ∨ endBit < bit → readMask.getLsbD bit = true →
    (new.getLsbD bit = true ↔ old.getLsbD bit = true)

/-- The bits of the scaled setting beyond the field that can be read are set in the register. -/
def WriteFits (beginBit endBit : Nat) (setting : BitVec 64) (readMask old : BitVec 32) : Prop :=
  ∀ bit < 32, endBit < bit → readMask.getLsbD bit = true → setting.getLsbD (bit - beginBit) = true →
    old.getLsbD bit = true

/-- What is stored for the last interface of the register, the bits of the scaled setting beyond the field where
that interface is the control's own, and what is read at its place modulo the limit, are the readable bits of the
register outside the field. -/
def BatchFits (beginBit endBit limit place last : Nat) (setting : BitVec 64)
    (stored adjusted lastReadMask : BitVec 32) (contents : List (BitVec 32)) (readMask old : BitVec 32) : Prop :=
  ∀ bit < 32, bit < beginBit ∨ endBit < bit → readMask.getLsbD bit = true →
    (((stored.getLsbD bit = true ∨
        (place = last ∧ beginBit ≤ bit ∧ setting.getLsbD (bit - beginBit) = true)) ∨
      (adjusted.getLsbD bit = false ∧ lastReadMask.getLsbD bit = true ∧
        ∃ (index : Nat) (other : BitVec 32), contents[index]? = some other ∧ index % limit = last ∧
          other.getLsbD bit = true)) ↔ old.getLsbD bit = true)

/-- For a control that is new and alone at its place the two conditions are the same. -/
theorem batchFits_new {beginBit endBit limit place : Nat} {setting : BitVec 64} {contents : List (BitVec 32)}
    {readMask old : BitVec 32} (ordered : beginBit ≤ endBit) (own : contents[place]? = some old)
    (first : place % limit = place)
    (alone : ∀ index other, contents[index]? = some other → index % limit = place → other = old) :
    BatchFits beginBit endBit limit place place setting 0 0 readMask contents readMask old ↔
      WriteFits beginBit endBit setting readMask old := by
  have exists_iff : ∀ bit, (∃ (index : Nat) (other : BitVec 32), contents[index]? = some other ∧
      index % limit = place ∧ other.getLsbD bit = true) ↔ old.getLsbD bit = true := by
    intro bit
    constructor
    · rintro ⟨index, other, listed, same, set⟩
      rwa [alone index other listed same] at set
    · exact fun set => ⟨place, old, own, first, set⟩
  constructor
  · intro fits bit inside beyond readable set
    exact (fits bit inside (.inr beyond) readable).mp (.inl (.inr ⟨rfl, by omega, set⟩))
  · intro fits bit inside outside readable
    rw [exists_iff bit]
    constructor
    · rintro ((stored | ⟨_, after, set⟩) | ⟨_, _, set⟩)
      · simp at stored
      · exact fits bit inside (by omega) readable set
      · exact set
    · exact fun set => .inr ⟨by simp, readable, set⟩

namespace SstControl

/-- The control is for the field of consecutive bits, fewer than a word has. -/
structure OfField (control : SstControl) (beginBit endBit : Nat) : Prop where
  ordered : beginBit ≤ endBit
  narrow : endBit - beginBit < 63
  inside : endBit < 64
  shift : control.shift = beginBit
  mask : control.mask = WordField.mask 64 beginBit (endBit + 1 - beginBit)

theorem new_ofField {controlType : ControlType}
    {cpuIdx command subcommand interfaceParameter writeValue rmwSubcommand rmwInterfaceParameter rmwReadMask :
      BitVec 32} {beginBit endBit : Nat} {scale : ℚ} (ordered : beginBit ≤ endBit)
    (narrow : endBit - beginBit < 63) (inside : endBit < 64) :
    (new controlType cpuIdx command subcommand interfaceParameter writeValue beginBit endBit scale rmwSubcommand
      rmwInterfaceParameter rmwReadMask).OfField beginBit endBit :=
  ⟨ordered, narrow, inside, rfl, rfl⟩

section Bits

variable {control : SstControl} {beginBit endBit bit : Nat} {toUInt64 : ℚ → BitVec 64} {value : ℚ}

theorem OfField.getLsbD_mask (field : control.OfField beginBit endBit) :
    control.mask.getLsbD bit = false ↔ bit < beginBit ∨ endBit < bit := by
  have ordered := field.ordered
  have narrow := field.narrow
  have inside := field.inside
  have fits : WordField.Fits 64 beginBit (endBit + 1 - beginBit) := ⟨by omega, by omega⟩
  rw [field.mask, fits.getLsbD_mask, decide_eq_false_iff_not]
  omega

theorem OfField.getLsbD_shifted (field : control.OfField beginBit endBit) (inside : bit < 32) :
    (control.shifted toUInt64 value).getLsbD bit = true ↔
      beginBit ≤ bit ∧ (toUInt64 (value * control.multiplier)).getLsbD (bit - beginBit) = true := by
  rw [shifted, field.shift, BitVec.getLsbD_shiftLeft]
  simp [show bit < 64 by omega]

/-- A single write of the control. -/
theorem OfField.keeps_once_iff {readMask old : BitVec 32} (field : control.OfField beginBit endBit) :
    KeepsOutside beginBit endBit readMask old
        (onceValue readMask old (control.shifted toUInt64 value) control.mask) ↔
      WriteFits beginBit endBit (toUInt64 (value * control.multiplier)) readMask old := by
  have ordered := field.ordered
  constructor
  · intro keeps bit inside beyond readable set
    rw [← keeps bit inside (.inr beyond) readable, Sstio.getLsbD_onceValue_of_lt inside]
    exact .inl ((field.getLsbD_shifted inside).mpr ⟨by omega, set⟩)
  · intro fits bit inside outside readable
    rw [Sstio.getLsbD_onceValue_of_lt inside, field.getLsbD_shifted inside]
    constructor
    · rintro (⟨after, set⟩ | ⟨_, set, _⟩)
      · exact fits bit inside (by omega) readable set
      · exact set
    · exact fun set => .inr ⟨field.getLsbD_mask.mpr outside, set, readable⟩

end Bits

section Keeps

variable {Device Address : Type} [DecidableEq Address]

/-- What the register of the control holds. -/
def contents (control : SstControl) (mboxAddress : MboxInterface → Address)
    (mboxContents : Device → Address → BitVec 32) (mmioContents : Device → BitVec 32 × BitVec 32 → BitVec 32)
    (device : Device) : BitVec 32 :=
  match control.controlType with
  | .mmio => mmioContents device control.mmioAddress
  | .mbox => mboxContents device (mboxAddress control.mboxInterface)

/-- What all registers hold that a half of `write_batch` reads. -/
def requested (control : SstControl) (mboxAddress : MboxInterface → Address)
    (mboxContents : Device → Address → BitVec 32) (mmioContents : Device → BitVec 32 × BitVec 32 → BitVec 32)
    (sstio : Sstio Device) : List (BitVec 32) :=
  match control.controlType with
  | .mmio => sstio.mmio.rmwInterfaces.map fun request => mmioContents sstio.device request.address
  | .mbox => sstio.mbox.rmwInterfaces.map fun request => mboxContents sstio.device (mboxAddress request)

/-- The control has been set up at a place, and the last interface of its register is known. -/
def SetUp (control : SstControl) (mboxAddress : MboxInterface → Address) (sstio : Sstio Device)
    (place last : Nat) (stored adjusted readMask : BitVec 32) : Prop :=
  match control.controlType with
  | .mmio => sstio.addedInterfaces[control.adjustIdx]? = some (.mmio, place) ∧
      LastOf mmioWire MmioInterface.address sstio.mmio control.mmioAddress last stored adjusted readMask
  | .mbox => sstio.addedInterfaces[control.adjustIdx]? = some (.mbox, place) ∧
      LastOf mboxWire mboxAddress sstio.mbox (mboxAddress control.mboxInterface) last stored adjusted readMask

/-- The messages of a mailbox control get and set the data of one register. -/
structure Mailbox (control : SstControl) (gets puts : BitVec 16 → BitVec 16 → Prop)
    (mboxAddress : MboxInterface → Address) : Prop where
  gets : gets (control.command.setWidth 16) (control.rmwSubcommand.setWidth 16)
  puts : puts (control.command.setWidth 16) (control.subcommand.setWidth 16)
  same : mboxAddress control.mboxRequest = mboxAddress control.mboxInterface

variable {gets puts : BitVec 16 → BitVec 16 → Prop} {driver : SstDriver Device}
  {mboxAddress : MboxInterface → Address} {mboxContents : Device → Address → BitVec 32}
  {mmioContents : Device → BitVec 32 × BitVec 32 → BitVec 32} {control : SstControl} {beginBit endBit : Nat}
  {toUInt64 : ℚ → BitVec 64} {value : ℚ} {before ready after : Sstio Device}

theorem write_keeps_iff (mboxFile : driver.MboxFile gets puts mboxAddress mboxContents)
    (mmioFile : driver.MmioFile mmioContents)
    (sameAddress : ∀ message value read, mboxAddress { message with writeValue := value, readValue := read } =
      mboxAddress message) (field : control.OfField beginBit endBit)
    (mailbox : control.controlType = .mbox → control.Mailbox gets puts mboxAddress)
    (done : (control.write driver toUInt64 value).run before = .ok () after) :
    KeepsOutside beginBit endBit control.rmwReadMask
        (control.contents mboxAddress mboxContents mmioContents before.device)
        (control.contents mboxAddress mboxContents mmioContents after.device) ↔
      WriteFits beginBit endBit (toUInt64 (value * control.multiplier)) control.rmwReadMask
        (control.contents mboxAddress mboxContents mmioContents before.device) := by
  rw [write] at done
  unfold contents
  cases type : control.controlType with
  | mmio =>
      rw [type] at done
      simp only
      rw [Sstio.writeMmioOnce_contents mmioFile done, mmioAddress, Function.update_self]
      exact field.keeps_once_iff
  | mbox =>
      rw [type] at done
      obtain ⟨get, put, same⟩ := mailbox type
      simp only
      rw [mboxRequest] at same
      rw [Sstio.writeMboxOnce_contents mboxFile sameAddress get put done, mboxInterface, Function.update_self]
      rw [mboxInterface] at same
      rw [same]
      exact field.keeps_once_iff

theorem batch_mmio_iff (mmioFile : driver.MmioFile mmioContents) (begun : before.Ready gets puts)
    (field : control.OfField beginBit endBit) {place last : Nat} {stored adjusted readMask : BitVec 32}
    (added : before.addedInterfaces[control.adjustIdx]? = some (.mmio, place))
    (lastOf : LastOf mmioWire MmioInterface.address before.mmio control.mmioAddress last stored adjusted readMask)
    (adjusts : (do control.adjust toUInt64 value; Sstio.writeMbox driver :
      EStateM SstioError (Sstio Device) Unit).run before = .ok () ready)
    (done : (Sstio.writeMmio driver).run ready = .ok () after) :
    KeepsOutside beginBit endBit control.rmwReadMask (mmioContents ready.device control.mmioAddress)
        (mmioContents after.device control.mmioAddress) ↔
      BatchFits beginBit endBit ready.batchCommandLimit place last (toUInt64 (value * control.multiplier)) stored
        adjusted readMask
        (ready.mmio.rmwInterfaces.map fun request => mmioContents ready.device request.address)
        control.rmwReadMask (mmioContents ready.device control.mmioAddress) := by
  obtain ⟨_, middle, one, mboxes⟩ := Stateful.ok_of_bind adjusts
  obtain rfl := Sstio.adjust_mmio added one
  obtain ⟨limit, channel⟩ := Sstio.writeMbox_mmio mboxes
  have half : (Sstio.onMmio (Side.writeBatch mmioWire driver.mmio .batchMmioRead .batchMmioWrite
      ready.batchCommandLimit)).run ready = .ok () after := done
  obtain ⟨side, ran, rfl⟩ := Objects.within_ok.mp half
  obtain ⟨interface, listed, same, rfl⟩ := lastOf.stored
  refine forall_congr' fun bit => forall_congr' fun inside => forall_congr' fun outside =>
    forall_congr' fun _ => ?_
  have bits := writeBatch_outside mmioFile mmioWire_lawful (fun _ _ => rfl) (fun _ _ => rfl)
    Sstio.mmioPair_stable (limit ▸ begun.positive) begun.mmio
    (fun _ _ pair => ⟨pair.isWrite.1, pair.isWrite.2⟩) channel ran listed lastOf.reading lastOf.writing
    (same ▸ lastOf.none_later) inside (field.getLsbD_mask.mpr outside)
  rw [same, field.getLsbD_shifted inside] at bits
  rw [bits, channel]
  simp [List.getElem?_map, Channel.adjust]

theorem batch_mbox_iff (mboxFile : driver.MboxFile gets puts mboxAddress mboxContents)
    (sameAddress : ∀ message value read, mboxAddress { message with writeValue := value, readValue := read } =
      mboxAddress message) (begun : before.Ready gets puts)
    (field : control.OfField beginBit endBit) {place last : Nat} {stored adjusted readMask : BitVec 32}
    (added : before.addedInterfaces[control.adjustIdx]? = some (.mbox, place))
    (lastOf : LastOf mboxWire mboxAddress before.mbox (mboxAddress control.mboxInterface) last stored adjusted
      readMask)
    (adjusts : (control.adjust toUInt64 value).run before = .ok () ready)
    (done : (Sstio.writeMbox driver).run ready = .ok () after) :
    KeepsOutside beginBit endBit control.rmwReadMask
        (mboxContents ready.device (mboxAddress control.mboxInterface))
        (mboxContents after.device (mboxAddress control.mboxInterface)) ↔
      BatchFits beginBit endBit ready.batchCommandLimit place last (toUInt64 (value * control.multiplier)) stored
        adjusted readMask
        (ready.mbox.rmwInterfaces.map fun request => mboxContents ready.device (mboxAddress request))
        control.rmwReadMask (mboxContents ready.device (mboxAddress control.mboxInterface)) := by
  obtain rfl := Sstio.adjust_mbox added adjusts
  have half : (Sstio.onMbox (Side.writeBatch mboxWire driver.mbox .batchMboxRead .batchMboxWrite
      before.batchCommandLimit)).run _ = .ok () after := done
  obtain ⟨side, ran, rfl⟩ := Objects.within_ok.mp half
  obtain ⟨interface, listed, same, rfl⟩ := lastOf.stored
  refine forall_congr' fun bit => forall_congr' fun inside => forall_congr' fun outside =>
    forall_congr' fun _ => ?_
  have bits := writeBatch_outside mboxFile mboxWire_lawful (fun _ _ => rfl)
    (fun message value => sameAddress message value message.readValue)
    Sstio.mboxSets_stable begun.positive begun.mbox (fun _ _ pair => pair) rfl ran listed lastOf.reading
    lastOf.writing (same ▸ lastOf.none_later) inside (field.getLsbD_mask.mpr outside)
  rw [same, field.getLsbD_shifted inside] at bits
  rw [bits]
  simp [List.getElem?_map, Channel.adjust]

/-- Where they return, a single write and a round of the control keep the readable bits of its register outside
the field, if and only if the scaled setting, and for the round what is stored and read for it, fits. -/
theorem keeps_iff (gets puts : BitVec 16 → BitVec 16 → Prop) (driver : SstDriver Device)
    (mboxAddress : MboxInterface → Address) (mboxContents : Device → Address → BitVec 32)
    (mmioContents : Device → BitVec 32 × BitVec 32 → BitVec 32)
    (mboxFile : driver.MboxFile gets puts mboxAddress mboxContents) (mmioFile : driver.MmioFile mmioContents)
    (sameAddress : ∀ message value read, mboxAddress { message with writeValue := value, readValue := read } =
      mboxAddress message) (control : SstControl) (beginBit endBit : Nat)
    (field : control.OfField beginBit endBit)
    (mailbox : control.controlType = .mbox → control.Mailbox gets puts mboxAddress)
    (toUInt64 : ℚ → BitVec 64) (value : ℚ) :
    (∀ before after, (control.write driver toUInt64 value).run before = .ok () after →
      (KeepsOutside beginBit endBit control.rmwReadMask
          (control.contents mboxAddress mboxContents mmioContents before.device)
          (control.contents mboxAddress mboxContents mmioContents after.device) ↔
        WriteFits beginBit endBit (toUInt64 (value * control.multiplier)) control.rmwReadMask
          (control.contents mboxAddress mboxContents mmioContents before.device))) ∧
    ∀ batchCommandLimit, 0 < batchCommandLimit → ∀ (device : Device) (calls : List (Sstio.Call Device)),
      (∀ call ∈ calls, call.Documented gets puts) → ∀ place last stored adjusted readMask,
      control.SetUp mboxAddress (Transition.run (Sstio.afterCall driver) (.new batchCommandLimit device) calls)
        place last stored adjusted readMask →
      ∀ ready after, (control.beforeHalf driver toUInt64 value).run
          (Transition.run (Sstio.afterCall driver) (.new batchCommandLimit device) calls) = .ok () ready →
        (control.half driver).run ready = .ok () after →
        (KeepsOutside beginBit endBit control.rmwReadMask
            (control.contents mboxAddress mboxContents mmioContents ready.device)
            (control.contents mboxAddress mboxContents mmioContents after.device) ↔
          BatchFits beginBit endBit ready.batchCommandLimit place last (toUInt64 (value * control.multiplier))
            stored adjusted readMask (control.requested mboxAddress mboxContents mmioContents ready)
            control.rmwReadMask (control.contents mboxAddress mboxContents mmioContents ready.device)) := by
  refine ⟨fun before after => write_keeps_iff mboxFile mmioFile sameAddress field mailbox, ?_⟩
  intro batchCommandLimit positive device calls documented place last stored adjusted readMask setUp ready after
    adjusts done
  have begun : (Transition.run (Sstio.afterCall driver) _ calls).Ready _ _ :=
    (Sstio.ready_new positive device).run documented
  unfold SetUp at setUp
  unfold beforeHalf at adjusts
  unfold half at done
  unfold contents requested
  cases type : control.controlType with
  | mmio =>
      rw [type] at setUp adjusts done
      exact batch_mmio_iff mmioFile begun field setUp.1 setUp.2 adjusts done
  | mbox =>
      rw [type] at setUp adjusts done
      rw [bind_pure_unit] at adjusts
      exact batch_mbox_iff mboxFile sameAddress begun field setUp.1 setUp.2 adjusts done

end Keeps

section FourBits

/-- Four bits of a register. -/
def fourBits : SstControl := new .mmio 0 0 0 0x10 0 4 7 1 0 0 (.allOnes 32)

/-- The conversion of the numbers that are in range. -/
def truncate (number : ℚ) : BitVec 64 := BitVec.ofInt 64 number.floor

def fourBitsAdded : List (Sstio.Call Sstio.SstRegisters) := [.addMmioWrite 0 0x10 0 (.allOnes 32)]

/-- A register that is zero. -/
def zeroRegisters : Sstio.SstRegisters := ⟨fun _ => 0, fun _ _ => 0⟩

theorem fourBits_setUp : fourBits.SetUp MboxInterface.cpuIndex
    (Transition.run (Sstio.afterCall Sstio.simpleDriver) (.new 2 zeroRegisters) fourBitsAdded) 0 0 0 0
      (.allOnes 32) := by
  refine ⟨rfl, ⟨_, rfl, rfl, rfl⟩, rfl, rfl, ?_⟩
  intro later other after listed
  cases later with
  | zero => exact absurd after (Nat.lt_irrefl _)
  | succ later => cases listed

/-- A setting that the field can hold. -/
theorem keeps_iff_fits :
    (∃ after, (fourBits.write Sstio.simpleDriver truncate 5).run (.new 2 zeroRegisters) = .ok () after ∧
      KeepsOutside 4 7 (.allOnes 32) 0 (after.device.mmio 0 0x10)) ∧
    fourBits.setupBatch.run (.new 2 zeroRegisters) = .ok fourBits
      (Transition.run (Sstio.afterCall Sstio.simpleDriver) (.new 2 zeroRegisters) fourBitsAdded) ∧
    ∃ ready after, (fourBits.beforeHalf Sstio.simpleDriver truncate 5).run
        (Transition.run (Sstio.afterCall Sstio.simpleDriver) (.new 2 zeroRegisters) fourBitsAdded) =
          .ok () ready ∧
      (fourBits.half Sstio.simpleDriver).run ready = .ok () after ∧
      KeepsOutside 4 7 (.allOnes 32) 0 (after.device.mmio 0 0x10) := by
  have field : fourBits.OfField 4 7 := new_ofField (by decide) (by decide) (by decide)
  have decided := keeps_iff _ _ Sstio.simpleDriver MboxInterface.cpuIndex Sstio.SstRegisters.mbox _
    Sstio.simpleDriver_mboxFile Sstio.simpleDriver_mmioFile (fun _ _ _ => rfl) fourBits 4 7 field
    (fun mailbox => absurd mailbox (by decide)) truncate 5
  have fits : WriteFits 4 7 (truncate (5 * fourBits.multiplier)) (.allOnes 32) 0 := by
    unfold WriteFits
    decide +kernel
  refine ⟨⟨_, rfl, (decided.1 _ _ rfl).mpr fits⟩, rfl, _, _, rfl, rfl, ?_⟩
  refine (decided.2 2 (by decide) zeroRegisters fourBitsAdded ?_ 0 0 0 0 _ fourBits_setUp _ _ rfl rfl).mpr
    ((batchFits_new (by decide) rfl rfl ?_).mpr fits)
  · intro call member
    rw [List.mem_singleton.mp member]
    trivial
  · intro index other listed _
    cases index with
    | zero =>
        cases listed
        rfl
    | succ index => cases listed

/-- A setting that the field cannot hold is carried into the next bit. -/
theorem not_keeps :
    (∃ after, (fourBits.write Sstio.simpleDriver truncate 16).run (.new 2 zeroRegisters) = .ok () after ∧
      ¬ KeepsOutside 4 7 (.allOnes 32) 0 (after.device.mmio 0 0x10)) ∧
    ∃ ready after, (fourBits.beforeHalf Sstio.simpleDriver truncate 16).run
        (Transition.run (Sstio.afterCall Sstio.simpleDriver) (.new 2 zeroRegisters) fourBitsAdded) =
          .ok () ready ∧
      (fourBits.half Sstio.simpleDriver).run ready = .ok () after ∧
      ¬ KeepsOutside 4 7 (.allOnes 32) 0 (after.device.mmio 0 0x10) := by
  refine ⟨⟨_, rfl, ?_⟩, _, _, rfl, rfl, ?_⟩
  · intro keeps
    exact absurd (keeps 8 (by decide) (by decide) (by decide)) (by decide +kernel)
  · intro keeps
    exact absurd (keeps 8 (by decide) (by decide) (by decide)) (by decide +kernel)

end FourBits

end SstControl

end Geopm
