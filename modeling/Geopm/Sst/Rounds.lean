import Geopm.Sst.WriteBatch

namespace Geopm

namespace Sstio

/-! Rounds of `adjust` and `write_batch`. -/

variable {Device : Type}

/-- What `write_mbox_once` sends last, where the driver reads the given contents. -/
def onceMbox (contents : MboxInterface → BitVec 32) (cpuIndex : BitVec 32) (command subcommand : BitVec 16)
    (interfaceParameter : BitVec 32) (readSubcommand : BitVec 16)
    (readInterfaceParameter readMask : BitVec 32) (writeValue writeMask : BitVec 64) : MboxInterface where
  cpuIndex
  mboxInterfaceParam := interfaceParameter
  writeValue := onceValue readMask
    (contents ⟨cpuIndex, readInterfaceParameter, 0, 0, command, readSubcommand⟩) writeValue writeMask
  readValue := 0
  command
  subcommand

/-- What `write_mmio_once` sends last. -/
def onceMmio (contents : BitVec 32 → BitVec 32 → BitVec 32) (cpuIndex registerOffset readMask : BitVec 32)
    (writeValue writeMask : BitVec 64) : MmioInterface where
  isWrite := 1
  cpuIndex
  registerOffset
  value := onceValue readMask (contents cpuIndex registerOffset) writeValue writeMask

/-- The message that a round sends for each adjusted mailbox, after the requests, is that of
`write_mbox_once` with the total of the adjustments. -/
def MboxAsOnce (contents : Device → MboxInterface → BitVec 32) (totals : Nat → Total)
    (before after : Sstio Device) : Prop :=
  ∀ place interface request readMask, before.mbox.writeInterfaces[place]? = some interface →
    before.mbox.rmwInterfaces[place]? = some request → before.mbox.rmwReadMasks[place]? = some readMask →
    (totals place).isAdjusted = true →
    after.mboxSent[before.mboxSent.length + before.mbox.rmwInterfaces.length + place]? =
      some (onceMbox (contents before.device) interface.cpuIndex interface.command interface.subcommand
        interface.mboxInterfaceParam request.subcommand request.mboxInterfaceParam readMask
        (totals place).value (totals place).mask)

/-- The same for the registers. -/
def MmioAsOnce (contents : Device → BitVec 32 → BitVec 32 → BitVec 32) (totals : Nat → Total)
    (before after : Sstio Device) : Prop :=
  ∀ place interface readMask, before.mmio.writeInterfaces[place]? = some interface →
    before.mmio.rmwReadMasks[place]? = some readMask → (totals place).isAdjusted = true →
    after.mmioSent[before.mmioSent.length + before.mmio.rmwInterfaces.length + place]? =
      some (onceMmio (contents before.device) interface.cpuIndex interface.registerOffset readMask
        (totals place).value (totals place).mask)

def MboxFits (contents : Device → MboxInterface → BitVec 32) (totals : Nat → Total)
    (sstio : Sstio Device) : Prop :=
  ∀ place interface request readMask, sstio.mbox.writeInterfaces[place]? = some interface →
    sstio.mbox.rmwInterfaces[place]? = some request → sstio.mbox.rmwReadMasks[place]? = some readMask →
    (totals place).isAdjusted = true →
    Fits sstio.batchCommandLimit place interface.writeValue readMask ((totals place).mask.setWidth 32)
      (contents sstio.device request) (sstio.mbox.rmwInterfaces.map (contents sstio.device))

def MmioFits (contents : Device → BitVec 32 → BitVec 32 → BitVec 32) (totals : Nat → Total)
    (sstio : Sstio Device) : Prop :=
  ∀ place interface readMask, sstio.mmio.writeInterfaces[place]? = some interface →
    sstio.mmio.rmwReadMasks[place]? = some readMask → (totals place).isAdjusted = true →
    Fits sstio.batchCommandLimit place interface.value readMask ((totals place).mask.setWidth 32)
      (contents sstio.device interface.cpuIndex interface.registerOffset)
      (sstio.mmio.rmwInterfaces.map fun request =>
        contents sstio.device request.cpuIndex request.registerOffset)

/-- A call of a user, or a change of the registers by others. -/
inductive Call (Device : Type) where
  | addMboxRead (cpuIndex : BitVec 32) (command subcommand : BitVec 16) (subcommandArg : BitVec 32)
  | addMboxWrite (cpuIndex : BitVec 32) (command subcommand : BitVec 16) (interfaceParameter : BitVec 32)
      (readSubcommand : BitVec 16) (readInterfaceParameter readMask : BitVec 32)
  | addMmioRead (cpuIndex : BitVec 32) (registerOffset : BitVec 16)
  | addMmioWrite (cpuIndex : BitVec 32) (registerOffset : BitVec 16) (registerValue readMask : BitVec 32)
  | adjust (batchIdx : Nat) (writeValue writeMask : BitVec 64)
  | writeBatch
  | elapse (device : Device)

def perform (driver : SstDriver Device) : Call Device → EStateM SstioError (Sstio Device) Unit
  | .addMboxRead cpuIndex command subcommand subcommandArg => do
      let _ ← addMboxRead cpuIndex command subcommand subcommandArg
  | .addMboxWrite cpuIndex command subcommand interfaceParameter readSubcommand readInterfaceParameter
      readMask => do
      let _ ← addMboxWrite cpuIndex command subcommand interfaceParameter readSubcommand
        readInterfaceParameter readMask
  | .addMmioRead cpuIndex registerOffset => do
      let _ ← addMmioRead cpuIndex registerOffset
  | .addMmioWrite cpuIndex registerOffset registerValue readMask => do
      let _ ← addMmioWrite cpuIndex registerOffset registerValue readMask
  | .adjust batchIdx writeValue writeMask => adjust batchIdx writeValue writeMask
  | .writeBatch => writeBatch driver
  | .elapse device => modify fun sstio => { sstio with device }

/-- An `SSTIO` with the totals of the adjustments that have returned. -/
structure Adjusting (Device : Type) where
  sstio : Sstio Device
  totals : MessageType → Nat → Total

namespace Adjusting

def new (batchCommandLimit : Nat) (device : Device) : Adjusting Device :=
  ⟨Sstio.new batchCommandLimit device, fun _ _ => .none⟩

/-- The totals after a call. -/
def totalsAfter (state : Adjusting Device) : Call Device → MessageType → Nat → Total
  | .adjust batchIdx writeValue writeMask =>
      match state.sstio.addedInterfaces[batchIdx]? with
      | some (type, index) =>
          if Stateful.returns (adjust batchIdx writeValue writeMask) state.sstio then
            Function.update state.totals type (Function.update (state.totals type) index
              ((state.totals type index).adjust writeValue writeMask))
          else state.totals
      | none => state.totals
  | _ => state.totals

/-- The state after a call, whether it has thrown or not. -/
def step (driver : SstDriver Device) (state : Adjusting Device) (call : Call Device) : Adjusting Device where
  sstio := Stateful.leaves (perform driver call) state.sstio
  totals := state.totalsAfter call

/-- Something holds of each round of a run that returns: of the state before it, between the mailboxes
and the registers, and after it. -/
def EachRound (driver : SstDriver Device) (start : Adjusting Device) (calls : List (Call Device))
    (property : Adjusting Device → Sstio Device → Sstio Device → Prop) : Prop :=
  ∀ done middle after, done ++ [.writeBatch] <+: calls →
    (writeMbox driver).run (Transition.run (step driver) start done).sstio = .ok () middle →
    (writeMmio driver).run middle = .ok () after →
    property (Transition.run (step driver) start done) middle after

end Adjusting

/-- A round does what single writes would. -/
def RoundAsOnce (mboxContents : Device → MboxInterface → BitVec 32)
    (mmioContents : Device → BitVec 32 → BitVec 32 → BitVec 32) (state : Adjusting Device)
    (middle after : Sstio Device) : Prop :=
  MboxAsOnce mboxContents (state.totals .mbox) state.sstio middle ∧
    MmioAsOnce mmioContents (state.totals .mmio) middle after

/-- The stored values and the contents of the registers allow it. -/
def RoundFits (mboxContents : Device → MboxInterface → BitVec 32)
    (mmioContents : Device → BitVec 32 → BitVec 32 → BitVec 32) (state : Adjusting Device)
    (middle _after : Sstio Device) : Prop :=
  MboxFits mboxContents (state.totals .mbox) state.sstio ∧
    MmioFits mmioContents (state.totals .mmio) middle

/-- An adjusted value has no bits outside its mask, and what is read before a mailbox is written is read with
a command that gets data. -/
def Call.Proper (gets : BitVec 16 → BitVec 16 → Prop) : Call Device → Prop
  | .addMboxWrite _ command _ _ readSubcommand _ _ => gets command readSubcommand
  | .adjust _ writeValue writeMask => writeValue &&& ~~~writeMask = 0
  | _ => True

/-- The messages that read and write a mailbox. -/
structure MboxPair (gets : BitVec 16 → BitVec 16 → Prop) (interface request : MboxInterface) : Prop where
  gets : gets request.command request.subcommand
  cpuIndex : request.cpuIndex = interface.cpuIndex
  command : request.command = interface.command
  request : request.writeValue = 0 ∧ request.readValue = 0
  unread : interface.readValue = 0

/-- The messages that read and write a register. -/
structure MmioPair (interface request : MmioInterface) : Prop where
  isWrite : request.isWrite = 0 ∧ interface.isWrite = 1
  cpuIndex : request.cpuIndex = interface.cpuIndex
  registerOffset : request.registerOffset = interface.registerOffset

theorem mboxPair_stable {gets : BitVec 16 → BitVec 16 → Prop} : mboxWire.Stable (MboxPair gets) :=
  fun _ _ _ pair => ⟨pair.gets, pair.cpuIndex, pair.command, pair.request, pair.unread⟩

theorem mmioPair_stable : mmioWire.Stable MmioPair :=
  fun _ _ _ pair => ⟨pair.isWrite, pair.cpuIndex, pair.registerOffset⟩

/-- What every run keeps. -/
structure Adjusting.Sound (gets : BitVec 16 → BitVec 16 → Prop) (state : Adjusting Device) : Prop where
  positive : 0 < state.sstio.batchCommandLimit
  mbox : state.sstio.mbox.Tracks mboxWire (MboxPair gets) (state.totals .mbox)
  mmio : state.sstio.mmio.Tracks mmioWire MmioPair (state.totals .mmio)

section Calls

variable {gets : BitVec 16 → BitVec 16 → Prop} {driver : SstDriver Device} {state : Adjusting Device}
  {call : Call Device}

theorem leaves_discard {Value : Type} {computation : EStateM SstioError (Sstio Device) Value}
    {sstio : Sstio Device} :
    Stateful.leaves (computation >>= fun _ => pure ()) sstio = Stateful.leaves computation sstio := by
  rw [Stateful.leaves, Stateful.leaves, EStateM.run_bind]
  cases computation.run sstio <;> rfl

theorem leaves_addMboxRead (sstio : Sstio Device) (cpuIndex : BitVec 32) (command subcommand : BitVec 16)
    (subcommandArg : BitVec 32) : ∃ readInterfaces addedInterfaces,
    Stateful.leaves (addMboxRead cpuIndex command subcommand subcommandArg) sstio =
      { sstio with mbox := { sstio.mbox with readInterfaces }, addedInterfaces } := by
  unfold addMboxRead
  rw [Stateful.leaves, Stateful.run_bind_ok (EStateM.run_get sstio)]
  dsimp only
  generalize sstio.mbox.readInterfaces.findIdx? _ = found
  cases found with
  | none => exact ⟨_, _, rfl⟩
  | some readInterfaceIdx =>
      dsimp only
      cases sstio.addedInterfaces.idxOf? (MessageType.mbox, readInterfaceIdx) with
      | none => exact ⟨_, _, rfl⟩
      | some idx => exact ⟨_, _, rfl⟩

theorem leaves_addMboxWrite (sstio : Sstio Device) (cpuIndex : BitVec 32) (command subcommand : BitVec 16)
    (interfaceParameter : BitVec 32) (readSubcommand : BitVec 16)
    (readInterfaceParameter readMask : BitVec 32) : ∃ mbox addedInterfaces,
    Stateful.leaves (addMboxWrite cpuIndex command subcommand interfaceParameter readSubcommand
        readInterfaceParameter readMask) sstio = { sstio with mbox, addedInterfaces } ∧
      (mbox = sstio.mbox ∨ mbox = { sstio.mbox with
        writeInterfaces := sstio.mbox.writeInterfaces ++
          [⟨cpuIndex, interfaceParameter, 0, 0, command, subcommand⟩]
        rmwInterfaces := sstio.mbox.rmwInterfaces ++
          [⟨cpuIndex, readInterfaceParameter, 0, 0, command, readSubcommand⟩]
        rmwReadMasks := sstio.mbox.rmwReadMasks ++ [readMask]
        rmwWriteMasks := sstio.mbox.rmwWriteMasks ++ [0] }) := by
  unfold addMboxWrite
  rw [Stateful.leaves, Stateful.run_bind_ok (EStateM.run_get sstio)]
  dsimp only
  generalize sstio.mbox.writeInterfaces.findIdx? _ = found
  cases found with
  | none => exact ⟨_, _, rfl, .inr rfl⟩
  | some writeInterfaceIdx =>
      dsimp only
      cases sstio.addedInterfaces.idxOf? (MessageType.mbox, writeInterfaceIdx) with
      | none => exact ⟨_, _, rfl, .inl rfl⟩
      | some idx => exact ⟨_, _, rfl, .inl rfl⟩

theorem leaves_writeMbox (sstio : Sstio Device) :
    Stateful.leaves (writeMbox driver) sstio =
      let side := Stateful.leaves (Side.writeBatch mboxWire driver.mbox .batchMboxRead .batchMboxWrite
        sstio.batchCommandLimit) ⟨sstio.device, sstio.mbox, sstio.mboxSent⟩
      { sstio with device := side.device, mbox := side.channel, mboxSent := side.sent } := by
  change Stateful.leaves (onMbox (Side.writeBatch mboxWire driver.mbox .batchMboxRead .batchMboxWrite
    sstio.batchCommandLimit)) sstio = _
  exact Objects.leaves_within

theorem leaves_writeMmio (sstio : Sstio Device) :
    Stateful.leaves (writeMmio driver) sstio =
      let side := Stateful.leaves (Side.writeBatch mmioWire driver.mmio .batchMmioRead .batchMmioWrite
        sstio.batchCommandLimit) ⟨sstio.device, sstio.mmio, sstio.mmioSent⟩
      { sstio with device := side.device, mmio := side.channel, mmioSent := side.sent } := by
  change Stateful.leaves (onMmio (Side.writeBatch mmioWire driver.mmio .batchMmioRead .batchMmioWrite
    sstio.batchCommandLimit)) sstio = _
  exact Objects.leaves_within

/-- What `adjust` does, and when it returns. -/
theorem adjust_cases (sstio : Sstio Device) (batchIdx : Nat) (writeValue writeMask : BitVec 64) :
    (Stateful.returns (adjust batchIdx writeValue writeMask) sstio = false ∧
      Stateful.leaves (adjust batchIdx writeValue writeMask) sstio = sstio) ∨
    ∃ index, Stateful.returns (adjust batchIdx writeValue writeMask) sstio = true ∧
      ((sstio.addedInterfaces[batchIdx]? = some (.mbox, index) ∧ index < sstio.mbox.writeInterfaces.length ∧
        Stateful.leaves (adjust batchIdx writeValue writeMask) sstio =
          { sstio with mbox := sstio.mbox.adjust mboxWire index writeValue writeMask }) ∨
      (sstio.addedInterfaces[batchIdx]? = some (.mmio, index) ∧ index < sstio.mmio.writeInterfaces.length ∧
        Stateful.leaves (adjust batchIdx writeValue writeMask) sstio =
          { sstio with mmio := sstio.mmio.adjust mmioWire index writeValue writeMask })) := by
  rw [Stateful.returns, Stateful.leaves, adjust, Stateful.run_bind_ok (EStateM.run_get sstio)]
  cases sstio.addedInterfaces[batchIdx]? with
  | none => exact .inl ⟨rfl, rfl⟩
  | some added =>
      obtain ⟨type, index⟩ := added
      cases type with
      | mbox =>
          by_cases known : index < sstio.mbox.writeInterfaces.length
          · simp only [if_pos known]
            exact .inr ⟨index, rfl, .inl ⟨rfl, known, rfl⟩⟩
          · simp only [if_neg known]
            exact .inl ⟨rfl, rfl⟩
      | mmio =>
          by_cases known : index < sstio.mmio.writeInterfaces.length
          · simp only [if_pos known]
            exact .inr ⟨index, rfl, .inr ⟨rfl, known, rfl⟩⟩
          · simp only [if_neg known]
            exact .inl ⟨rfl, rfl⟩

theorem Adjusting.Sound.step (sound : state.Sound gets) (proper : call.Proper gets) :
    (state.step driver call).Sound gets := by
  obtain ⟨positive, mbox, mmio⟩ := sound
  cases call with
  | addMboxRead cpuIndex command subcommand subcommandArg =>
      obtain ⟨readInterfaces, addedInterfaces, left⟩ :=
        leaves_addMboxRead state.sstio cpuIndex command subcommand subcommandArg
      have reached : (state.step driver (.addMboxRead cpuIndex command subcommand subcommandArg)).sstio = _ :=
        leaves_discard.trans left
      constructor
      case positive => rw [reached]; exact positive
      case mbox => rw [reached]; exact mbox.reads readInterfaces
      case mmio => rw [reached]; exact mmio
  | addMboxWrite cpuIndex command subcommand interfaceParameter readSubcommand readInterfaceParameter readMask =>
      obtain ⟨next, addedInterfaces, left, changed⟩ := leaves_addMboxWrite state.sstio cpuIndex command
        subcommand interfaceParameter readSubcommand readInterfaceParameter readMask
      have reached : (state.step driver (.addMboxWrite cpuIndex command subcommand interfaceParameter
          readSubcommand readInterfaceParameter readMask)).sstio = _ := leaves_discard.trans left
      constructor
      case positive => rw [reached]; exact positive
      case mmio => rw [reached]; exact mmio
      case mbox =>
          rw [reached]
          rcases changed with rfl | rfl
          · exact mbox
          · exact mbox.add readMask ⟨proper, rfl, rfl, ⟨rfl, rfl⟩, rfl⟩
  | addMmioRead cpuIndex registerOffset => exact ⟨positive, mbox, mmio.reads _⟩
  | addMmioWrite cpuIndex registerOffset registerValue readMask =>
      exact ⟨positive, mbox, mmio.add readMask ⟨⟨rfl, rfl⟩, rfl, rfl⟩⟩
  | elapse device => exact ⟨positive, mbox, mmio⟩
  | writeBatch =>
      apply Stateful.leaves_bind (fun sstio => Sound gets ⟨sstio, state.totals⟩)
      · rw [leaves_writeMbox]
        exact ⟨positive, tracks_writeBatch mboxWire_lawful mboxPair_stable mbox, mmio⟩
      · intro _ middle _ kept
        rw [leaves_writeMmio]
        exact ⟨kept.positive, kept.mbox, tracks_writeBatch mmioWire_lawful mmioPair_stable kept.mmio⟩
  | adjust batchIdx writeValue writeMask =>
      change Sound gets ⟨Stateful.leaves (Sstio.adjust batchIdx writeValue writeMask) state.sstio,
        state.totalsAfter (.adjust batchIdx writeValue writeMask)⟩
      rcases adjust_cases state.sstio batchIdx writeValue writeMask with ⟨thrown, left⟩ |
        ⟨index, returned, ⟨listed, known, left⟩ | ⟨listed, known, left⟩⟩
      · have same : state.totalsAfter (.adjust batchIdx writeValue writeMask) = state.totals := by
          rw [totalsAfter, thrown]
          cases state.sstio.addedInterfaces[batchIdx]? <;> rfl
        rw [left, same]
        exact ⟨positive, mbox, mmio⟩
      · rw [left, totalsAfter, listed, returned]
        refine ⟨positive, ?_, mmio⟩
        have adjusted := mbox.adjust mboxWire_lawful mboxPair_stable proper known
        exact adjusted
      · rw [left, totalsAfter, listed, returned]
        refine ⟨positive, mbox, ?_⟩
        exact mmio.adjust mmioWire_lawful mmioPair_stable proper known

theorem Adjusting.Sound.run {calls : List (Call Device)} (sound : state.Sound gets)
    (proper : ∀ call ∈ calls, call.Proper gets) :
    (Transition.run (Adjusting.step driver) state calls).Sound gets := by
  induction calls generalizing state with
  | nil => exact sound
  | cons call rest ih =>
      exact ih (sound.step (proper call (by simp))) fun other member => proper other (by simp [member])

end Calls

section Documented

variable {gets : BitVec 16 → BitVec 16 → Prop} {driver : SstDriver Device}
  {mboxContents : Device → MboxInterface → BitVec 32}
  {mmioContents : Device → BitVec 32 → BitVec 32 → BitVec 32} {totals : Nat → Total}
  {before after : Sstio Device}

theorem MboxPair.once {interface request : MboxInterface} (pair : MboxPair gets interface request)
    (contents : MboxInterface → BitVec 32) (readMask : BitVec 32) (writeValue writeMask : BitVec 64) :
    onceMbox contents interface.cpuIndex interface.command interface.subcommand interface.mboxInterfaceParam
        request.subcommand request.mboxInterfaceParam readMask writeValue writeMask =
      mboxWire.withValue interface (onceValue readMask (contents request) writeValue writeMask) := by
  obtain ⟨_, cpuIndex, command, ⟨written, read⟩, unread⟩ := pair
  have asked : (⟨interface.cpuIndex, request.mboxInterfaceParam, 0, 0, interface.command,
      request.subcommand⟩ : MboxInterface) = request := by
    rw [← cpuIndex, ← command]
    cases request
    simp only at written read
    rw [written, read]
  rw [onceMbox, asked, ← unread]
  rfl

theorem MmioPair.once {interface request : MmioInterface} (pair : MmioPair interface request)
    (contents : BitVec 32 → BitVec 32 → BitVec 32) (readMask : BitVec 32) (writeValue writeMask : BitVec 64) :
    onceMmio contents interface.cpuIndex interface.registerOffset readMask writeValue writeMask =
      mmioWire.withValue interface (onceValue readMask (contents request.cpuIndex request.registerOffset)
        writeValue writeMask) := by
  obtain ⟨⟨_, isWrite⟩, cpuIndex, registerOffset⟩ := pair
  rw [onceMmio, cpuIndex, registerOffset, ← isWrite]
  rfl

theorem mboxAsOnce_iff (documented : driver.Documented gets mboxContents mmioContents)
    (positive : 0 < before.batchCommandLimit)
    (tracks : before.mbox.Tracks mboxWire (MboxPair gets) totals)
    (done : (writeMbox driver).run before = .ok () after) :
    MboxAsOnce mboxContents totals before after ↔ MboxFits mboxContents totals before := by
  have ran : (onMbox (Side.writeBatch mboxWire driver.mbox .batchMboxRead .batchMboxWrite
      before.batchCommandLimit)).run before = .ok () after := done
  obtain ⟨side, returned, rfl⟩ := Objects.within_ok.mp ran
  have asked := tracks.asked fun _ request pair => pair.gets
  refine forall_congr' fun place => forall_congr' fun interface => forall_congr' fun request =>
    forall_congr' fun readMask => forall_congr' fun stored => forall_congr' fun requested =>
      forall_congr' fun reading => forall_congr' fun _ => ?_
  have decided := writeBatch_once_iff mboxWire_lawful documented.mbox positive asked tracks returned stored
    requested reading
  rw [(tracks.paired place interface request stored requested).once]
  exact decided

theorem mmioAsOnce_iff (documented : driver.Documented gets mboxContents mmioContents)
    (positive : 0 < before.batchCommandLimit) (tracks : before.mmio.Tracks mmioWire MmioPair totals)
    (done : (writeMmio driver).run before = .ok () after) :
    MmioAsOnce mmioContents totals before after ↔ MmioFits mmioContents totals before := by
  have ran : (onMmio (Side.writeBatch mmioWire driver.mmio .batchMmioRead .batchMmioWrite
      before.batchCommandLimit)).run before = .ok () after := done
  obtain ⟨side, returned, rfl⟩ := Objects.within_ok.mp ran
  have asked := tracks.asked fun _ request pair => pair.isWrite.1
  refine forall_congr' fun place => forall_congr' fun interface => forall_congr' fun readMask =>
    forall_congr' fun stored => forall_congr' fun reading => forall_congr' fun _ => ?_
  obtain ⟨request, requested⟩ : ∃ request, before.mmio.rmwInterfaces[place]? = some request :=
    ⟨_, List.getElem?_eq_getElem (tracks.rmws ▸ (List.getElem?_eq_some_iff.mp stored).1)⟩
  have pair := tracks.paired place interface request stored requested
  have decided := writeBatch_once_iff mmioWire_lawful documented.mmio positive asked tracks returned stored
    requested reading
  rw [pair.once, ← pair.cpuIndex, ← pair.registerOffset]
  exact decided

/-- A single write of a mailbox asks for its contents and sends `onceMbox`. -/
theorem writeMboxOnce_sends (documented : driver.Documented gets mboxContents mmioContents)
    {cpuIndex : BitVec 32} {command subcommand : BitVec 16} {interfaceParameter : BitVec 32}
    {readSubcommand : BitVec 16} {readInterfaceParameter readMask : BitVec 32} {writeValue writeMask : BitVec 64}
    (get : gets command readSubcommand)
    (done : (writeMboxOnce driver cpuIndex command subcommand interfaceParameter readSubcommand
      readInterfaceParameter readMask writeValue writeMask).run before = .ok () after) :
    after.mboxSent = before.mboxSent ++ [⟨cpuIndex, readInterfaceParameter, 0, 0, command, readSubcommand⟩] ++
      [onceMbox (mboxContents before.device) cpuIndex command subcommand interfaceParameter readSubcommand
        readInterfaceParameter readMask writeValue writeMask] := by
  obtain ⟨side, ran, rfl⟩ := Objects.within_ok.mp done
  obtain ⟨answers, middle, asked, later⟩ := Stateful.ok_of_bind ran
  obtain ⟨outcome, sent⟩ := Side.ioctl_ok asked
  obtain ⟨_, rfl⟩ := documented.mbox _ _ _ _ (by simpa using get) outcome
  obtain ⟨_, last, written, returned⟩ := Stateful.ok_of_bind later
  cases returned
  rw [(Side.ioctl_ok written).2, sent]
  rfl

/-- A single write of a register asks for its contents and sends `onceMmio`. -/
theorem writeMmioOnce_sends (documented : driver.Documented gets mboxContents mmioContents)
    {cpuIndex : BitVec 32} {registerOffset : BitVec 16} {registerValue readMask : BitVec 32}
    {writeValue writeMask : BitVec 64}
    (done : (writeMmioOnce driver cpuIndex registerOffset registerValue readMask writeValue writeMask).run
      before = .ok () after) :
    after.mmioSent = before.mmioSent ++ [⟨0, cpuIndex, registerOffset.setWidth 32, 0⟩] ++
      [onceMmio (mmioContents before.device) cpuIndex (registerOffset.setWidth 32) readMask writeValue
        writeMask] := by
  obtain ⟨side, ran, rfl⟩ := Objects.within_ok.mp done
  obtain ⟨answers, middle, asked, later⟩ := Stateful.ok_of_bind ran
  obtain ⟨outcome, sent⟩ := Side.ioctl_ok asked
  obtain ⟨_, rfl⟩ := documented.mmio _ _ _ _ (by simp) outcome
  obtain ⟨_, last, written, returned⟩ := Stateful.ok_of_bind later
  cases returned
  rw [(Side.ioctl_ok written).2, sent]
  rfl

/-- A half of a round leaves the other half alone. -/
theorem writeMbox_mmio (done : (writeMbox driver).run before = .ok () after) :
    after.batchCommandLimit = before.batchCommandLimit ∧ after.mmio = before.mmio := by
  have ran : (onMbox (Side.writeBatch mboxWire driver.mbox .batchMboxRead .batchMboxWrite
      before.batchCommandLimit)).run before = .ok () after := done
  obtain ⟨side, _, rfl⟩ := Objects.within_ok.mp ran
  exact ⟨rfl, rfl⟩

/-- In every round of every run the driver is sent the messages of single writes, if and only if in every round
the stored values and the contents of the registers fit. -/
theorem eachRound_asOnce_iff (gets : BitVec 16 → BitVec 16 → Prop) (driver : SstDriver Device)
    (mboxContents : Device → MboxInterface → BitVec 32)
    (mmioContents : Device → BitVec 32 → BitVec 32 → BitVec 32)
    (documented : driver.Documented gets mboxContents mmioContents) (batchCommandLimit : Nat)
    (positive : 0 < batchCommandLimit) (device : Device) (calls : List (Call Device))
    (proper : ∀ call ∈ calls, call.Proper gets) :
    Adjusting.EachRound driver (.new batchCommandLimit device) calls
        (RoundAsOnce mboxContents mmioContents) ↔
      Adjusting.EachRound driver (.new batchCommandLimit device) calls
        (RoundFits mboxContents mmioContents) := by
  refine forall_congr' fun done => forall_congr' fun middle => forall_congr' fun after =>
    forall_congr' fun begun => forall_congr' fun first => forall_congr' fun second => ?_
  have sound : (Transition.run (Adjusting.step driver) (.new batchCommandLimit device) done).Sound gets := by
    apply Adjusting.Sound.run ⟨positive, .empty, .empty⟩
    intro call member
    exact proper call (begun.subset (List.mem_append_left _ member))
  obtain ⟨limit, mmio⟩ := writeMbox_mmio first
  exact and_congr (mboxAsOnce_iff documented sound.positive sound.mbox first)
    (mmioAsOnce_iff documented (limit ▸ sound.positive) (mmio ▸ sound.mmio) second)

end Documented

/-- A register for each CPU behind the mailbox, and registers by offset. -/
structure SstRegisters where
  mbox : BitVec 32 → BitVec 32
  mmio : BitVec 32 → BitVec 32 → BitVec 32

/-- One message of the mailbox: subcommand 1 gets, the others set. -/
def SstRegisters.mboxMessage (registers : SstRegisters) (message : MboxInterface) : SstRegisters × MboxInterface :=
  if message.subcommand = 1 then (registers, { message with readValue := registers.mbox message.cpuIndex })
  else ({ registers with mbox := Function.update registers.mbox message.cpuIndex message.writeValue }, message)

def SstRegisters.mmioMessage (registers : SstRegisters) (message : MmioInterface) : SstRegisters × MmioInterface :=
  if message.isWrite = 0 then
    (registers, { message with value := registers.mmio message.cpuIndex message.registerOffset })
  else
    let offsets := Function.update (registers.mmio message.cpuIndex) message.registerOffset message.value
    ({ registers with mmio := Function.update registers.mmio message.cpuIndex offsets }, message)

/-- The messages of a batch one after the other. -/
def inOrder {Message : Type} (one : Device → Message → Device × Message) :
    List Message → Device → Device × List Message
  | [], device => (device, [])
  | message :: rest, device =>
      let first := one device message
      let others := inOrder one rest first.1
      (others.1, first.2 :: others.2)

theorem answers_inOrder {Message : Type} {one : Device → Message → Device × Message} {asks : Message → Prop}
    {answer : Device → Message → Message}
    (each : ∀ device message, asks message → one device message = (device, answer device message)) :
    Answers (fun batch device => ((inOrder one batch device).1, some (inOrder one batch device).2)) asks
      answer := by
  intro batch device next answers asked outcome
  have ran : inOrder one batch device = (device, batch.map (answer device)) := by
    clear outcome
    induction batch with
    | nil => rfl
    | cons message rest ih =>
        rw [inOrder, each device message (asked message (by simp)),
          ih fun other member => asked other (by simp [member])]
        rfl
  simp only [ran] at outcome
  cases outcome
  exact ⟨rfl, rfl⟩

/-- A driver that never fails. -/
def simpleDriver : SstDriver SstRegisters where
  mbox batch registers :=
    ((inOrder SstRegisters.mboxMessage batch registers).1, some (inOrder SstRegisters.mboxMessage batch registers).2)
  mmio batch registers :=
    ((inOrder SstRegisters.mmioMessage batch registers).1, some (inOrder SstRegisters.mmioMessage batch registers).2)

/-- What a message to the mailbox asks for. -/
def mailboxes (registers : SstRegisters) (message : MboxInterface) : BitVec 32 :=
  registers.mbox message.cpuIndex

theorem simpleDriver_documented : simpleDriver.Documented (fun _ subcommand => subcommand = 1) mailboxes
    SstRegisters.mmio where
  mbox := answers_inOrder fun _ _ get => if_pos get
  mmio := answers_inOrder fun _ _ read => if_pos read

/-- A run with one round, at its end. -/
theorem eachRound_concat {driver : SstDriver Device} {start : Adjusting Device} {calls : List (Call Device)}
    {property : Adjusting Device → Sstio Device → Sstio Device → Prop} (others : .writeBatch ∉ calls) :
    Adjusting.EachRound driver start (calls ++ [.writeBatch]) property ↔ ∀ middle after,
      (writeMbox driver).run (Transition.run (Adjusting.step driver) start calls).sstio = .ok () middle →
      (writeMmio driver).run middle = .ok () after →
      property (Transition.run (Adjusting.step driver) start calls) middle after := by
  constructor
  · intro each middle after
    exact each calls middle after (List.prefix_refl _)
  · intro last done middle after begun
    rcases List.prefix_concat_iff.mp begun with whole | inside
    · rw [List.append_cancel_right whole]
      exact last middle after
    · exact absurd (inside.subset (by simp)) others

/-- One bit of each of two registers. -/
def adjustTwo : List (Call SstRegisters) :=
  [.addMmioWrite 0 0x10 0 0xff, .addMmioWrite 0 0x14 0 0xff, .adjust 0 1 1, .adjust 1 2 2]

/-- Two registers of which the second is not zero. -/
def twoRegisters : SstRegisters := ⟨fun _ => 0, fun _ offset => if offset = 0x14 then 0x30 else 0⟩

/-- Both registers in one batch. -/
theorem eachRound_asOnce_twoRegisters :
    Adjusting.EachRound simpleDriver (.new 2 twoRegisters) (adjustTwo ++ [.writeBatch])
      (RoundAsOnce mailboxes SstRegisters.mmio) := by
  refine (eachRound_asOnce_iff _ simpleDriver _ _ simpleDriver_documented 2 (by decide) twoRegisters _
    ?_).mpr ((eachRound_concat ?_).mpr ?_)
  · intro call member
    simp only [adjustTwo, List.cons_append, List.nil_append, List.mem_cons, List.not_mem_nil, or_false] at member
    rcases member with rfl | rfl | rfl | rfl | rfl <;> simp [Call.Proper]
  · simp [adjustTwo]
  · intro middle after first _
    cases first
    constructor
    · intro place interface request readMask stored
      change ([] : List MboxInterface)[place]? = _ at stored
      simp at stored
    · intro place interface readMask stored reading _
      match place with
      | 0 =>
          cases stored
          cases reading
          constructor
          case stale => decide +kernel
          case unread => decide +kernel
          case others =>
              intro _ index other listed same
              match index with
              | 0 => cases listed; decide +kernel
              | 1 => exact absurd same (by decide +kernel)
              | index + 2 => cases listed
      | 1 =>
          cases stored
          cases reading
          constructor
          case stale => decide +kernel
          case unread => decide +kernel
          case others =>
              intro _ index other listed same
              match index with
              | 0 => exact absurd same (by decide +kernel)
              | 1 => cases listed; decide +kernel
              | index + 2 => cases listed
      | place + 2 => cases stored

/-- A register that is zero by the second round. -/
def clearedLater : List (Call SstRegisters) :=
  [.addMmioWrite 0 0x14 0 0xff, .adjust 0 1 1, .writeBatch, .elapse ⟨fun _ => 0, fun _ _ => 0⟩]

/-- With one message in a batch the second register goes into the first interface, and what has been read in the
first round is written in the second. -/
theorem not_eachRound_asOnce :
    ¬ Adjusting.EachRound simpleDriver (.new 1 twoRegisters) (adjustTwo ++ [.writeBatch])
        (RoundAsOnce mailboxes SstRegisters.mmio) ∧
      ¬ Adjusting.EachRound simpleDriver (.new 2 twoRegisters) (clearedLater ++ [.writeBatch])
        (RoundAsOnce mailboxes SstRegisters.mmio) := by
  constructor
  · intro each
    have sent := (each adjustTwo _ _ (List.prefix_refl _) rfl rfl).2 0 _ _ rfl rfl rfl
    revert sent
    decide +kernel
  · intro each
    have sent := (each clearedLater _ _ (List.prefix_refl _) rfl rfl).2 0 _ _ rfl rfl rfl
    revert sent
    decide +kernel

end Sstio

end Geopm
