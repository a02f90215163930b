import Geopm.Sst.Rounds

namespace Geopm

/-! What `write_batch` and the single writes do to the registers behind the driver. -/

variable {Device Message Address : Type} {wire : Wire Message} {pairs : Message → Message → Prop}

/-- The interfaces of one type of message are those that have been added. -/
structure Channel.Formed (pairs : Message → Message → Prop) (channel : Channel Message) : Prop where
  rmws : channel.rmwInterfaces.length = channel.writeInterfaces.length
  readMasks : channel.rmwReadMasks.length = channel.writeInterfaces.length
  writeMasks : channel.rmwWriteMasks.length = channel.writeInterfaces.length
  paired : ∀ (place : Nat) (interface request : Message), channel.writeInterfaces[place]? = some interface →
    channel.rmwInterfaces[place]? = some request → pairs interface request

section Formed

variable {channel : Channel Message} {place : Nat} {interface request : Message}

theorem Channel.Formed.empty : Channel.Formed pairs ⟨[], [], [], [], []⟩ :=
  ⟨rfl, rfl, rfl, fun _ _ _ listed => by simp at listed⟩

theorem Channel.Formed.reads (formed : channel.Formed pairs) (readInterfaces : List Message) :
    Channel.Formed pairs { channel with readInterfaces } :=
  ⟨formed.rmws, formed.readMasks, formed.writeMasks, formed.paired⟩

theorem Channel.Formed.add (formed : channel.Formed pairs) (readMask : BitVec 32)
    (couple : pairs interface request) : Channel.Formed pairs { channel with
      writeInterfaces := channel.writeInterfaces ++ [interface]
      rmwInterfaces := channel.rmwInterfaces ++ [request]
      rmwReadMasks := channel.rmwReadMasks ++ [readMask]
      rmwWriteMasks := channel.rmwWriteMasks ++ [0] } where
  rmws := by simp [formed.rmws]
  readMasks := by simp [formed.readMasks]
  writeMasks := by simp [formed.writeMasks]
  paired index found asked listed requested := by
    rcases Table.getElem?_concat_iff.mp listed with known | ⟨place, rfl⟩
    · rcases Table.getElem?_concat_iff.mp requested with old | ⟨rfl, rfl⟩
      · exact formed.paired index found asked known old
      · rw [formed.rmws] at known
        simp at known
    · rcases Table.getElem?_concat_iff.mp requested with old | ⟨_, rfl⟩
      · rw [place, ← formed.rmws] at old
        simp at old
      · exact couple

theorem Channel.Formed.adjust (formed : channel.Formed pairs) (stable : wire.Stable pairs)
    (writeValue writeMask : BitVec 64) : (channel.adjust wire place writeValue writeMask).Formed pairs where
  rmws := by simp [Channel.adjust, formed.rmws]
  readMasks := by simp [Channel.adjust, formed.readMasks]
  writeMasks := by simp [Channel.adjust, formed.writeMasks]
  paired index found asked listed requested := by
    rw [Channel.adjust, List.getElem?_modify, Option.map_eq_map, Option.map_eq_some_iff] at listed
    obtain ⟨old, stored, rfl⟩ := listed
    have before := formed.paired index old asked stored requested
    split
    · exact stable _ _ _ before
    · exact before

theorem Channel.Formed.merge (formed : channel.Formed pairs) (stable : wire.Stable pairs)
    (answers : List Message) : Channel.Formed pairs { channel with
      writeInterfaces := Side.merge wire answers channel.rmwReadMasks channel.rmwWriteMasks
        channel.writeInterfaces } where
  rmws := formed.rmws.trans Side.length_merge.symm
  readMasks := formed.readMasks.trans Side.length_merge.symm
  writeMasks := formed.writeMasks.trans Side.length_merge.symm
  paired index found asked listed requested := by
    rw [Side.getElem?_merge, Option.map_eq_some_iff] at listed
    obtain ⟨old, stored, rfl⟩ := listed
    have before := formed.paired index old asked stored requested
    split
    · exact stable _ _ _ before
    · exact before

/-- Every interface has its request, and every request its interface. -/
theorem Channel.Formed.hasRequest (formed : channel.Formed pairs) (stored : channel.writeInterfaces[place]? = some interface) :
    ∃ request, channel.rmwInterfaces[place]? = some request ∧ pairs interface request := by
  have bound := (List.getElem?_eq_some_iff.mp stored).1
  have requested := List.getElem?_eq_getElem (formed.rmws.symm ▸ bound)
  exact ⟨_, requested, formed.paired place interface _ stored requested⟩

theorem Channel.Formed.asked (formed : channel.Formed pairs) {asks : Message → Prop}
    (each : ∀ interface request, pairs interface request → asks request) :
    ∀ request ∈ channel.rmwInterfaces, asks request := by
  intro request member
  obtain ⟨place, bound, requested⟩ := List.getElem_of_mem member
  have stored := List.getElem?_eq_getElem (formed.rmws ▸ bound)
  exact each _ request (formed.paired place _ request stored (requested ▸ List.getElem?_eq_getElem bound))

theorem Channel.Formed.set (formed : channel.Formed pairs) {sets : Message → Prop}
    (each : ∀ interface request, pairs interface request → sets interface) :
    ∀ interface ∈ channel.writeInterfaces, sets interface := by
  intro interface member
  obtain ⟨place, stored⟩ := List.mem_iff_getElem?.mp member
  obtain ⟨request, _, pair⟩ := formed.hasRequest stored
  exact each interface request pair

end Formed

section Store

variable [DecidableEq Address] {address : Message → Address} {contents : Address → BitVec 32}
  {messages : List Message} {message : Message} {place : Nat} {register : Address}

/-- The register of a message takes the value of the message. -/
def Wire.store (wire : Wire Message) (address : Message → Address) (contents : Address → BitVec 32)
    (message : Message) : Address → BitVec 32 :=
  Function.update contents (address message) (wire.value message)

theorem foldl_store_other (others : ∀ message ∈ messages, address message ≠ register) :
    messages.foldl (wire.store address) contents register = contents register := by
  induction messages generalizing contents with
  | nil => rfl
  | cons message rest ih =>
      rw [List.foldl_cons, ih fun other member => others other (by simp [member]), Wire.store,
        Function.update_of_ne (others message (by simp)).symm]

/-- The last message to a register decides. -/
theorem foldl_store_last (stored : messages[place]? = some message)
    (last : ∀ (later : Nat) (other : Message), place < later → messages[later]? = some other →
      address other ≠ address message) :
    messages.foldl (wire.store address) contents (address message) = wire.value message := by
  induction messages generalizing place contents with
  | nil => simp at stored
  | cons first rest ih =>
      cases place with
      | zero =>
          cases stored
          rw [List.foldl_cons, foldl_store_other, Wire.store, Function.update_self]
          intro other member
          obtain ⟨later, listed⟩ := List.mem_iff_getElem?.mp member
          exact last (later + 1) other (by omega) listed
      | succ place =>
          exact ih stored fun later other after listed => last (later + 1) other (by omega) listed

/-- What an ioctl is documented to do: messages that ask are answered with contents and leave the device
alone, and messages that set have the registers take their values in order. -/
structure RegisterFile (wire : Wire Message) (call : List Message → Device → Device × Option (List Message))
    (asks sets : Message → Prop) (answer : Device → Message → Message) (address : Message → Address)
    (contents : Device → Address → BitVec 32) : Prop where
  reads : Answers call asks answer
  result : ∀ device message, wire.result (answer device message) = contents device (address message)
  writes : ∀ batch device next answers, (∀ message ∈ batch, sets message) →
    call batch device = (next, some answers) →
    contents next = batch.foldl (wire.store address) (contents device)

end Store

namespace Side

section Contents

variable [DecidableEq Address] {call : List Message → Device → Device × Option (List Message)}
  {asks sets : Message → Prop} {answer : Device → Message → Message} {address : Message → Address}
  {contents : Device → Address → BitVec 32} {failure : SstioError} {before after : Side Device Message}

theorem writePasses_contents (file : RegisterFile wire call asks sets answer address contents)
    {batches : List (List Message)} (setting : ∀ batch ∈ batches, ∀ message ∈ batch, sets message)
    (done : (batches.forM (writePass call failure)).run before = .ok () after) :
    contents after.device = batches.flatten.foldl (wire.store address) (contents before.device) := by
  induction batches generalizing before with
  | nil =>
      cases done
      rfl
  | cons batch rest ih =>
      rw [List.forM_eq_forM, List.forM_cons] at done
      obtain ⟨_, middle, first, later⟩ := Stateful.ok_of_bind done
      obtain ⟨answers, written, called, returned⟩ := Stateful.ok_of_bind first
      obtain ⟨outcome, _⟩ := ioctl_ok called
      cases returned
      rw [ih (fun other member => setting other (by simp [member])) later,
        file.writes _ _ _ _ (setting batch (by simp)) outcome, List.flatten_cons, List.foldl_append]

/-- Merging changes nothing but the values. -/
theorem map_merge {Part : Type} {part : Message → Part} {answers interfaces : List Message}
    {readMasks writeMasks : List (BitVec 32)}
    (same : ∀ message value, part (wire.withValue message value) = part message) :
    (merge wire answers readMasks writeMasks interfaces).map part = interfaces.map part := by
  fun_induction merge with
  | case1 answer answers readMask readMasks writeMask writeMasks interface interfaces ih =>
      rw [List.map_cons, List.map_cons, ih, mergeEntry, same]
  | case2 => rfl

theorem map_mergeAll {Part : Type} {part : Message → Part} {batches : List (List Message)}
    {interfaces : List Message} {readMasks writeMasks : List (BitVec 32)}
    (same : ∀ message value, part (wire.withValue message value) = part message) :
    (mergeAll wire readMasks writeMasks batches interfaces).map part = interfaces.map part := by
  induction batches generalizing interfaces with
  | nil => rfl
  | cons batch rest ih =>
      rw [mergeAll, List.foldl_cons]
      exact ih.trans (map_merge same)

theorem getElem?_of_map_eq {Part : Type} {part : Message → Part} {old new : List Message} {place : Nat}
    {message : Message} (same : new.map part = old.map part) (listed : new[place]? = some message) :
    ∃ other, old[place]? = some other ∧ part other = part message := by
  have parts := congrArg (·[place]?) same
  simp only [List.getElem?_map, listed, Option.map_some] at parts
  exact Option.map_eq_some_iff.mp parts.symm

variable {limit place : Nat} {readFailure writeFailure : SstioError} {interface : Message}
  {readMask writeMask : BitVec 32}

/-- What a half of `write_batch` leaves in the register of an interface that no later interface is for: what is
stored, and the readable bits of all registers that are read at its place modulo the limit. -/
theorem writeBatch_contents (file : RegisterFile wire call asks sets answer address contents)
    (lawful : wire.Lawful) (sameSets : ∀ message value, sets (wire.withValue message value) = sets message)
    (sameAddress : ∀ message value, address (wire.withValue message value) = address message)
    (positive : 0 < limit) (formed : before.channel.Formed pairs)
    (each : ∀ interface request, pairs interface request → asks request ∧ sets interface)
    (done : (writeBatch wire call readFailure writeFailure limit).run before = .ok () after)
    (stored : before.channel.writeInterfaces[place]? = some interface)
    (reading : before.channel.rmwReadMasks[place]? = some readMask)
    (writing : before.channel.rmwWriteMasks[place]? = some writeMask)
    (last : ∀ (later : Nat) (other : Message), place < later →
      before.channel.writeInterfaces[later]? = some other → address other ≠ address interface) (bit : Nat) :
    (contents after.device (address interface)).getLsbD bit = true ↔
      (wire.value interface).getLsbD bit = true ∨
        (writeMask.getLsbD bit = false ∧ readMask.getLsbD bit = true ∧
          ∃ index request, before.channel.rmwInterfaces[index]? = some request ∧ index % limit = place ∧
            (contents before.device (address request)).getLsbD bit = true) := by
  have asked := formed.asked fun interface request pair => (each interface request pair).1
  have setting := formed.set fun interface request pair => (each interface request pair).2
  obtain ⟨middle, first, later⟩ := writeBatch_passes formed.rmws done
  obtain ⟨device, _, channel⟩ := readPasses_ok file.reads
    (fun batch listed message member => asked message (mem_structs positive listed member)) first
  obtain ⟨value, merged, bits⟩ := getElem?_mergeAll (answer before.device) lawful positive
    (Nat.le_refl before.channel.rmwInterfaces.length) stored reading writing
  have interfaces : middle.channel.writeInterfaces = mergeAll wire before.channel.rmwReadMasks
      before.channel.rmwWriteMasks ((ioctlStructsFromVector limit before.channel.rmwInterfaces).map
        (·.map (answer before.device))) before.channel.writeInterfaces := by
    rw [channel]
  rw [ioctlStructsFromVector] at interfaces
  rw [← interfaces] at merged
  have sameSetting : middle.channel.writeInterfaces.map sets = before.channel.writeInterfaces.map sets := by
    rw [interfaces]
    exact map_mergeAll sameSets
  have sameAddresses : middle.channel.writeInterfaces.map address =
      before.channel.writeInterfaces.map address := by
    rw [interfaces]
    exact map_mergeAll sameAddress
  have written := writePasses_contents file (fun batch listed message member => by
    obtain ⟨index, found⟩ := List.mem_iff_getElem?.mp (mem_structs positive listed member)
    obtain ⟨old, known, same⟩ := getElem?_of_map_eq sameSetting found
    exact same ▸ setting old (List.mem_of_getElem? known)) later
  rw [flatten_structs positive, device] at written
  have register := @foldl_store_last Message Address wire _ address (contents before.device) _ _ _ merged
    fun later other after listed => by
      obtain ⟨old, known, same⟩ := getElem?_of_map_eq sameAddresses listed
      rw [← same, sameAddress]
      exact last later old after known
  rw [sameAddress, ← written, lawful.value_withValue] at register
  rw [register, bits bit]
  simp only [file.result]

end Contents

end Side

/-- The registers of the mailbox, where commands are told apart that get and that set data. -/
def SstDriver.MboxFile [DecidableEq Address] (driver : SstDriver Device)
    (gets puts : BitVec 16 → BitVec 16 → Prop) (address : MboxInterface → Address)
    (contents : Device → Address → BitVec 32) : Prop :=
  RegisterFile mboxWire driver.mbox (fun message => gets message.command message.subcommand)
    (fun message => puts message.command message.subcommand)
    (fun device message => { message with readValue := contents device (address message) }) address contents

/-- A register is told by its CPU and its offset. -/
def MmioInterface.address (message : MmioInterface) : BitVec 32 × BitVec 32 :=
  (message.cpuIndex, message.registerOffset)

def SstDriver.MmioFile (driver : SstDriver Device)
    (contents : Device → BitVec 32 × BitVec 32 → BitVec 32) : Prop :=
  RegisterFile mmioWire driver.mmio (fun message => message.isWrite = 0) (fun message => message.isWrite = 1)
    (fun device message => { message with value := contents device message.address }) MmioInterface.address
    contents

namespace Sstio

/-- The messages of a mailbox get and set data. -/
def MboxSets (gets puts : BitVec 16 → BitVec 16 → Prop) (interface request : MboxInterface) : Prop :=
  gets request.command request.subcommand ∧ puts interface.command interface.subcommand

/-- What every run keeps, whatever has been adjusted. -/
structure Ready (gets puts : BitVec 16 → BitVec 16 → Prop) (sstio : Sstio Device) : Prop where
  positive : 0 < sstio.batchCommandLimit
  mbox : sstio.mbox.Formed (MboxSets gets puts)
  mmio : sstio.mmio.Formed MmioPair

/-- The commands that are added for a mailbox get and set data. -/
def Call.Documented (gets puts : BitVec 16 → BitVec 16 → Prop) : Call Device → Prop
  | .addMboxWrite _ command subcommand _ readSubcommand _ _ =>
      gets command readSubcommand ∧ puts command subcommand
  | _ => True

/-- The state after a call, whether it has thrown or not. -/
def afterCall (driver : SstDriver Device) (sstio : Sstio Device) (call : Call Device) : Sstio Device :=
  Stateful.leaves (perform driver call) sstio

section Runs

variable {gets puts : BitVec 16 → BitVec 16 → Prop} {driver : SstDriver Device} {sstio : Sstio Device}
  {call : Call Device}

theorem mboxSets_stable : mboxWire.Stable (MboxSets gets puts) := fun _ _ _ pair => pair

theorem Ready.adjust (ready : sstio.Ready gets puts) (batchIdx : Nat) (writeValue writeMask : BitVec 64) :
    (Stateful.leaves (Sstio.adjust batchIdx writeValue writeMask) sstio).Ready gets puts := by
  rcases adjust_cases sstio batchIdx writeValue writeMask with ⟨_, left⟩ |
    ⟨index, _, ⟨_, _, left⟩ | ⟨_, _, left⟩⟩
  · rw [left]
    exact ready
  · rw [left]
    exact ⟨ready.positive, ready.mbox.adjust mboxSets_stable writeValue writeMask, ready.mmio⟩
  · rw [left]
    exact ⟨ready.positive, ready.mbox, ready.mmio.adjust mmioPair_stable writeValue writeMask⟩

theorem Ready.writeMbox (ready : sstio.Ready gets puts) :
    (Stateful.leaves (Sstio.writeMbox driver) sstio).Ready gets puts := by
  rw [leaves_writeMbox]
  exact ⟨ready.positive, channel_writeBatch (Channel.Formed (MboxSets gets puts))
    (fun _ answers formed => formed.merge mboxSets_stable answers) ready.mbox, ready.mmio⟩

theorem Ready.writeMmio (ready : sstio.Ready gets puts) :
    (Stateful.leaves (Sstio.writeMmio driver) sstio).Ready gets puts := by
  rw [leaves_writeMmio]
  exact ⟨ready.positive, ready.mbox, channel_writeBatch (Channel.Formed MmioPair)
    (fun _ answers formed => formed.merge mmioPair_stable answers) ready.mmio⟩

theorem Ready.afterCall (ready : sstio.Ready gets puts) (documented : call.Documented gets puts) :
    (sstio.afterCall driver call).Ready gets puts := by
  cases call with
  | addMboxRead cpuIndex command subcommand subcommandArg =>
      obtain ⟨readInterfaces, addedInterfaces, left⟩ :=
        leaves_addMboxRead sstio cpuIndex command subcommand subcommandArg
      have reached : sstio.afterCall driver (.addMboxRead cpuIndex command subcommand subcommandArg) = _ :=
        leaves_discard.trans left
      rw [reached]
      exact ⟨ready.positive, ready.mbox.reads readInterfaces, ready.mmio⟩
  | addMboxWrite cpuIndex command subcommand interfaceParameter readSubcommand readInterfaceParameter readMask =>
      obtain ⟨next, addedInterfaces, left, changed⟩ := leaves_addMboxWrite sstio cpuIndex command
        subcommand interfaceParameter readSubcommand readInterfaceParameter readMask
      have reached : sstio.afterCall driver (.addMboxWrite cpuIndex command subcommand interfaceParameter
          readSubcommand readInterfaceParameter readMask) = _ := leaves_discard.trans left
      rw [reached]
      refine ⟨ready.positive, ?_, ready.mmio⟩
      rcases changed with rfl | rfl
      · exact ready.mbox
      · exact ready.mbox.add readMask documented
  | addMmioRead cpuIndex registerOffset => exact ⟨ready.positive, ready.mbox, ready.mmio.reads _⟩
  | addMmioWrite cpuIndex registerOffset registerValue readMask =>
      exact ⟨ready.positive, ready.mbox, ready.mmio.add readMask ⟨⟨rfl, rfl⟩, rfl, rfl⟩⟩
  | elapse device => exact ⟨ready.positive, ready.mbox, ready.mmio⟩
  | writeBatch =>
      apply Stateful.leaves_bind (Ready gets puts) ready.writeMbox
      exact fun _ _ _ kept => kept.writeMmio
  | adjust batchIdx writeValue writeMask => exact ready.adjust batchIdx writeValue writeMask

theorem ready_new {limit : Nat} (positive : 0 < limit) (device : Device) : (new limit device).Ready gets puts :=
  ⟨positive, .empty, .empty⟩

theorem Ready.run {calls : List (Call Device)} (ready : sstio.Ready gets puts)
    (documented : ∀ call ∈ calls, call.Documented gets puts) :
    (Transition.run (Sstio.afterCall driver) sstio calls).Ready gets puts := by
  induction calls generalizing sstio with
  | nil => exact ready
  | cons call rest ih =>
      exact ih (ready.afterCall (documented call (by simp))) fun other member => documented other (by simp [member])

end Runs

section Writes

variable {driver : SstDriver Device} {before after : Sstio Device}

/-- What `adjust` does to a register. -/
theorem adjust_mmio {batchIdx place : Nat} {writeValue writeMask : BitVec 64}
    (added : before.addedInterfaces[batchIdx]? = some (.mmio, place))
    (done : (adjust batchIdx writeValue writeMask).run before = .ok () after) :
    after = { before with mmio := before.mmio.adjust mmioWire place writeValue writeMask } := by
  rcases adjust_cases before batchIdx writeValue writeMask with ⟨thrown, _⟩ |
    ⟨index, _, ⟨listed, _⟩ | ⟨listed, _, left⟩⟩
  · rw [Stateful.returns, done] at thrown
    cases thrown
  · rw [added] at listed
    cases listed
  · rw [added] at listed
    cases listed
    rw [← Stateful.leaves_of_ok done, left]

/-- What `adjust` does to a mailbox. -/
theorem adjust_mbox {batchIdx place : Nat} {writeValue writeMask : BitVec 64}
    (added : before.addedInterfaces[batchIdx]? = some (.mbox, place))
    (done : (adjust batchIdx writeValue writeMask).run before = .ok () after) :
    after = { before with mbox := before.mbox.adjust mboxWire place writeValue writeMask } := by
  rcases adjust_cases before batchIdx writeValue writeMask with ⟨thrown, _⟩ |
    ⟨index, _, ⟨listed, _, left⟩ | ⟨listed, _⟩⟩
  · rw [Stateful.returns, done] at thrown
    cases thrown
  · rw [added] at listed
    cases listed
    rw [← Stateful.leaves_of_ok done, left]
  · rw [added] at listed
    cases listed

theorem getLsbD_onceValue_of_lt {readMask contents : BitVec 32} {writeValue writeMask : BitVec 64} {bit : Nat}
    (inside : bit < 32) : (onceValue readMask contents writeValue writeMask).getLsbD bit = true ↔
      writeValue.getLsbD bit = true ∨ (writeMask.getLsbD bit = false ∧ contents.getLsbD bit = true ∧
        readMask.getLsbD bit = true) := by
  simp [onceValue, inside, show bit < 64 by omega]

theorem writeMmioOnce_contents {contents : Device → BitVec 32 × BitVec 32 → BitVec 32}
    (file : driver.MmioFile contents) {cpuIndex : BitVec 32} {registerOffset : BitVec 16}
    {registerValue readMask : BitVec 32} {writeValue writeMask : BitVec 64}
    (done : (writeMmioOnce driver cpuIndex registerOffset registerValue readMask writeValue writeMask).run
      before = .ok () after) :
    contents after.device = Function.update (contents before.device) (cpuIndex, registerOffset.setWidth 32)
      (onceValue readMask (contents before.device (cpuIndex, registerOffset.setWidth 32)) writeValue
        writeMask) := by
  obtain ⟨side, ran, rfl⟩ := Objects.within_ok.mp done
  obtain ⟨answers, middle, asked, later⟩ := Stateful.ok_of_bind ran
  obtain ⟨outcome, _⟩ := Side.ioctl_ok asked
  obtain ⟨device, rfl⟩ := file.reads _ _ _ _ (by simp) outcome
  obtain ⟨_, last, written, returned⟩ := Stateful.ok_of_bind later
  cases returned
  obtain ⟨stored, _⟩ := Side.ioctl_ok written
  have changed := file.writes _ _ _ _ (by simp) stored
  rw [device] at changed
  exact changed

theorem writeMboxOnce_contents [DecidableEq Address] {gets puts : BitVec 16 → BitVec 16 → Prop}
    {address : MboxInterface → Address} {contents : Device → Address → BitVec 32}
    (file : driver.MboxFile gets puts address contents)
    (sameAddress : ∀ message value read, address { message with writeValue := value, readValue := read } =
      address message) {cpuIndex : BitVec 32} {command subcommand : BitVec 16}
    {interfaceParameter : BitVec 32} {readSubcommand : BitVec 16} {readInterfaceParameter readMask : BitVec 32}
    {writeValue writeMask : BitVec 64} (get : gets command readSubcommand) (put : puts command subcommand)
    (done : (writeMboxOnce driver cpuIndex command subcommand interfaceParameter readSubcommand
      readInterfaceParameter readMask writeValue writeMask).run before = .ok () after) :
    contents after.device = Function.update (contents before.device)
      (address ⟨cpuIndex, interfaceParameter, 0, 0, command, subcommand⟩)
      (onceValue readMask (contents before.device
        (address ⟨cpuIndex, readInterfaceParameter, 0, 0, command, readSubcommand⟩)) writeValue writeMask) := by
  obtain ⟨side, ran, rfl⟩ := Objects.within_ok.mp done
  obtain ⟨answers, middle, asked, later⟩ := Stateful.ok_of_bind ran
  obtain ⟨outcome, _⟩ := Side.ioctl_ok asked
  obtain ⟨device, rfl⟩ := file.reads _ _ _ _ (by simpa using get) outcome
  obtain ⟨_, last, written, returned⟩ := Stateful.ok_of_bind later
  cases returned
  obtain ⟨stored, _⟩ := Side.ioctl_ok written
  have changed := file.writes _ _ _ _ (by simpa using put) stored
  rw [device] at changed
  rw [← sameAddress]
  exact changed

end Writes

section Simple

theorem mmio_mmioMessage {registers : SstRegisters} {message : MmioInterface} (writes : message.isWrite = 1) :
    (fun address : BitVec 32 × BitVec 32 => (registers.mmioMessage message).1.mmio address.1 address.2) =
      mmioWire.store MmioInterface.address (fun address => registers.mmio address.1 address.2) message := by
  have notRead : message.isWrite ≠ 0 := by
    rw [writes]
    decide
  funext address
  obtain ⟨cpuIndex, registerOffset⟩ := address
  rw [SstRegisters.mmioMessage, if_neg notRead]
  simp only [Wire.store, mmioWire, MmioInterface.address, Function.update_apply, Prod.mk.injEq]
  by_cases sameCpu : cpuIndex = message.cpuIndex
  · by_cases sameOffset : registerOffset = message.registerOffset
    · simp [sameCpu, sameOffset]
    · simp [sameCpu, sameOffset]
  · simp [sameCpu]

theorem simpleDriver_mmioFile :
    simpleDriver.MmioFile fun registers address => registers.mmio address.1 address.2 where
  reads := answers_inOrder fun _ _ read => if_pos read
  result _ _ := rfl
  writes := by
    intro batch device next answers setting outcome
    cases outcome
    induction batch generalizing device with
    | nil => rfl
    | cons message rest ih =>
        rw [List.foldl_cons, ← mmio_mmioMessage (setting message (by simp))]
        exact ih _ fun other member => setting other (by simp [member])

theorem mbox_mboxMessage {registers : SstRegisters} {message : MboxInterface} (writes : message.subcommand ≠ 1) :
    (registers.mboxMessage message).1.mbox =
      mboxWire.store MboxInterface.cpuIndex registers.mbox message := by
  rw [SstRegisters.mboxMessage, if_neg writes]
  rfl

theorem simpleDriver_mboxFile : simpleDriver.MboxFile (fun _ subcommand => subcommand = 1)
    (fun _ subcommand => subcommand ≠ 1) MboxInterface.cpuIndex SstRegisters.mbox where
  reads := answers_inOrder fun _ _ get => if_pos get
  result _ _ := rfl
  writes := by
    intro batch device next answers setting outcome
    cases outcome
    induction batch generalizing device with
    | nil => rfl
    | cons message rest ih =>
        rw [List.foldl_cons, ← mbox_mboxMessage (setting message (by simp))]
        exact ih _ fun other member => setting other (by simp [member])

end Simple

end Sstio

end Geopm
