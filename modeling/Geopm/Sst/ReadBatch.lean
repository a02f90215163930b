import Geopm.Library.Run
import Geopm.Library.Table
import Geopm.Sst.Rounds

namespace Geopm

/-! The signals of `SSTIO`: reads in batches, and where the samples of each are found. -/

namespace Side

variable {Device Message : Type}

/-- What a read works on, with the structs that it has sent last. -/
structure Reading (Device Message : Type) where
  side : Side Device Message
  readBatch : List (List Message)

/-- The pass of the loop for a struct, whose answers take its place. -/
def readStruct (call : List Message → Device → Device × Option (List Message)) (failure : SstioError)
    (place : Nat) : EStateM SstioError (Reading Device Message) Unit := do
  let reading ← get
  match reading.readBatch[place]? with
  | none => throw .outOfBounds
  | some batch =>
      let answers ← Objects.within Reading.side (fun reading side => { reading with side }) id
        (ioctl call failure batch)
      modify fun reading => { reading with readBatch := reading.readBatch.set place answers }

/-- The half of `read_batch` for one type of message. -/
def readBatch (call : List Message → Device → Device × Option (List Message)) (failure : SstioError)
    (limit : Nat) : EStateM SstioError (Reading Device Message) Unit := do
  let reading ← get
  if ¬ reading.side.channel.readInterfaces.isEmpty then
    let structs := ioctlStructsFromVector limit reading.side.channel.readInterfaces
    set { reading with readBatch := structs }
    (List.range structs.length).forM (readStruct call failure)

end Side

/-- An `SSTIO` with the structs of its last read. -/
structure Sampling (Device : Type) where
  sstio : Sstio Device
  mboxReadBatch : List (List MboxInterface)
  mmioReadBatch : List (List MmioInterface)

namespace Sampling

variable {Device : Type}

def onMbox {Value : Type} : EStateM SstioError (Side.Reading Device MboxInterface) Value →
    EStateM SstioError (Sampling Device) Value :=
  Objects.within
    (fun sampling => ⟨⟨sampling.sstio.device, sampling.sstio.mbox, sampling.sstio.mboxSent⟩,
      sampling.mboxReadBatch⟩)
    (fun sampling reading => { sampling with
      sstio := { sampling.sstio with
        device := reading.side.device, mbox := reading.side.channel, mboxSent := reading.side.sent }
      mboxReadBatch := reading.readBatch }) id

def onMmio {Value : Type} : EStateM SstioError (Side.Reading Device MmioInterface) Value →
    EStateM SstioError (Sampling Device) Value :=
  Objects.within
    (fun sampling => ⟨⟨sampling.sstio.device, sampling.sstio.mmio, sampling.sstio.mmioSent⟩,
      sampling.mmioReadBatch⟩)
    (fun sampling reading => { sampling with
      sstio := { sampling.sstio with
        device := reading.side.device, mmio := reading.side.channel, mmioSent := reading.side.sent }
      mmioReadBatch := reading.readBatch }) id

/-- `read_batch`. -/
def readBatch (driver : SstDriver Device) : EStateM SstioError (Sampling Device) Unit := do
  let sampling ← get
  onMbox (Side.readBatch driver.mbox .readBatchMbox sampling.sstio.batchCommandLimit)
  onMmio (Side.readBatch driver.mmio .readBatchMmio sampling.sstio.batchCommandLimit)

/-- The message at a place of the vector that was divided into structs. -/
def messageAt {Message : Type} (limit : Nat) (batches : List (List Message)) (place : Nat) : Option Message :=
  match batches[place / limit]? with
  | none => none
  | some batch => batch[place % limit]?

/-- `sample`. -/
def sample (sampling : Sampling Device) (batchIdx : Nat) : Except SstioError (BitVec 64) :=
  match sampling.sstio.addedInterfaces[batchIdx]? with
  | none => .error .outOfBounds
  | some (.mmio, place) =>
      match messageAt sampling.sstio.batchCommandLimit sampling.mmioReadBatch place with
      | none => .error .outOfBounds
      | some interface => .ok (interface.value.setWidth 64)
  | some (.mbox, place) =>
      match messageAt sampling.sstio.batchCommandLimit sampling.mboxReadBatch place with
      | none => .error .outOfBounds
      | some interface => .ok (interface.readValue.setWidth 64)

end Sampling

/-- Ioctls one after another, with their structs before and after. -/
inductive Exchanges {Device Message : Type} (call : List Message → Device → Device × Option (List Message)) :
    Device → List (List Message × List Message) → Device → Prop where
  | nil (device : Device) : Exchanges call device [] device
  | cons {device next last : Device} {batch answers : List Message} {rest : List (List Message × List Message)}
      (answered : call batch device = (next, some answers)) (later : Exchanges call next rest last) :
      Exchanges call device ((batch, answers) :: rest) last

/-- The driver has been sent the message, and has put the answer in its place. -/
def Answered {Message : Type} (exchanges : List (List Message × List Message)) (message answer : Message) : Prop :=
  ∃ (batch answers : List Message) (place : Nat), (batch, answers) ∈ exchanges ∧ batch[place]? = some message ∧
    answers[place]? = some answer

/-- The answers to a struct take the places of its messages. -/
def InPlace {Device Message : Type} (call : List Message → Device → Device × Option (List Message)) : Prop :=
  ∀ batch device next answers, call batch device = (next, some answers) → answers.length = batch.length

section Structs

variable {Device Message : Type} {call : List Message → Device → Device × Option (List Message)}
  {limit passes place : Nat} {commands : List Message} {device last : Device}
  {exchanges : List (List Message × List Message)} {message : Message}

/-- The structs hold the commands, each at its quotient and remainder. -/
theorem messageAt_structs (positive : 0 < limit) (enough : commands.length ≤ passes) :
    Sampling.messageAt limit (structsWithin limit passes commands) place = commands[place]? := by
  induction passes generalizing commands place with
  | zero =>
      rw [List.length_eq_zero_iff.mp (Nat.le_zero.mp enough)]
      rfl
  | succ passes ih =>
      cases commands with
      | nil => rfl
      | cons command rest =>
          have fewer : ((command :: rest).drop limit).length ≤ passes := by
            rw [List.length_drop]
            omega
          rw [structsWithin, List.isEmpty_cons, if_neg Bool.false_ne_true]
          by_cases first : place < limit
          · rw [Sampling.messageAt, Nat.div_eq_of_lt first, Nat.mod_eq_of_lt first, List.getElem?_cons_zero]
            exact List.getElem?_take_of_lt first
          · have later := @ih (place - limit) ((command :: rest).drop limit) fewer
            rw [List.getElem?_drop, Nat.add_sub_cancel' (Nat.not_lt.mp first)] at later
            rw [← later, Sampling.messageAt, Sampling.messageAt, Nat.div_eq_sub_div positive (Nat.not_lt.mp first),
              Nat.mod_eq_sub_mod (Nat.not_lt.mp first), List.getElem?_cons_succ]

theorem Exchanges.length (exchanged : Exchanges call device exchanges last)
    (inPlace : ∀ batch device next answers, call batch device = (next, some answers) →
      answers.length = batch.length) :
    ∀ pair ∈ exchanges, pair.2.length = pair.1.length := by
  induction exchanged with
  | nil => simp
  | cons answered _ ih =>
      intro pair member
      rcases List.mem_cons.mp member with rfl | later
      · exact inPlace _ _ _ _ answered
      · exact ih pair later

/-- The answer to a command is at its place among the answers. -/
theorem Exchanges.answered (exchanged : Exchanges call device exchanges last)
    (inPlace : InPlace call) (positive : 0 < limit) (sent : exchanges.map Prod.fst = ioctlStructsFromVector limit commands)
    (listed : commands[place]? = some message) :
    ∃ answer, Answered exchanges message answer ∧
      Sampling.messageAt limit (exchanges.map Prod.snd) place = some answer := by
  rw [← messageAt_structs positive (Nat.le_refl _)] at listed
  change Sampling.messageAt limit (ioctlStructsFromVector limit commands) place = _ at listed
  rw [← sent] at listed
  unfold Sampling.messageAt at listed ⊢
  rw [List.getElem?_map] at listed ⊢
  cases found : exchanges[place / limit]? with
  | none => simp [found] at listed
  | some pair =>
      obtain ⟨batch, answers⟩ := pair
      rw [found] at listed
      have member := List.mem_of_getElem? found
      have same := exchanged.length inPlace _ member
      have inside := (List.getElem?_eq_some_iff.mp listed).1
      have known := List.getElem?_eq_getElem (same.symm ▸ inside : place % limit < answers.length)
      exact ⟨_, ⟨batch, answers, place % limit, member, listed, known⟩, known⟩

end Structs

namespace Side

variable {Device Message : Type} {call : List Message → Device → Device × Option (List Message)}
  {failure : SstioError} {before after : Reading Device Message}

theorem readStruct_ok {place : Nat} {batch : List Message} (stored : before.readBatch[place]? = some batch)
    (done : (readStruct call failure place).run before = .ok () after) :
    ∃ answers, call batch before.side.device = (after.side.device, some answers) ∧
      after.readBatch = before.readBatch.set place answers ∧ after.side.channel = before.side.channel := by
  rw [readStruct, Stateful.run_bind_ok (EStateM.run_get before)] at done
  simp only [stored] at done
  obtain ⟨answers, middle, called, changed⟩ := Stateful.ok_of_bind done
  obtain ⟨side, inner, rfl⟩ := Objects.within_ok.mp called
  obtain ⟨outcome, sent⟩ := ioctl_ok inner
  have channel : side.channel = before.side.channel := by rw [sent]
  cases changed
  exact ⟨answers, outcome, rfl, channel⟩

/-- The loop over the structs that are left. -/
theorem readStructs_ok {structs answered : List (List Message)}
    (stored : before.readBatch = answered ++ structs)
    (done : ((List.range' answered.length structs.length).forM (readStruct call failure)).run before =
      .ok () after) :
    ∃ exchanges, Exchanges call before.side.device exchanges after.side.device ∧
      exchanges.map Prod.fst = structs ∧ after.readBatch = answered ++ exchanges.map Prod.snd ∧
      after.side.channel = before.side.channel := by
  induction structs generalizing before answered with
  | nil =>
      cases done
      exact ⟨[], .nil _, rfl, stored, rfl⟩
  | cons batch rest ih =>
      rw [List.length_cons, List.range'_succ, List.forM_eq_forM, List.forM_cons] at done
      obtain ⟨_, middle, first, later⟩ := Stateful.ok_of_bind done
      have here : before.readBatch[answered.length]? = some batch := by rw [stored]; simp
      obtain ⟨answers, outcome, changed, channel⟩ := readStruct_ok here first
      have next : middle.readBatch = (answered ++ [answers]) ++ rest := by
        rw [changed, stored]
        simp
      rw [show answered.length + 1 = (answered ++ [answers]).length by simp] at later
      obtain ⟨exchanges, exchanged, sent, last, same⟩ := ih next later
      refine ⟨(batch, answers) :: exchanges, .cons outcome exchanged, by rw [List.map_cons, sent], ?_,
        same.trans channel⟩
      rw [last, List.map_cons, List.append_assoc]
      rfl

theorem readBatch_ok {limit : Nat} (done : (readBatch call failure limit).run before = .ok () after) :
    ∃ exchanges, Exchanges call before.side.device exchanges after.side.device ∧
      exchanges.map Prod.fst = ioctlStructsFromVector limit before.side.channel.readInterfaces ∧
      (before.side.channel.readInterfaces ≠ [] → after.readBatch = exchanges.map Prod.snd) ∧
      after.side.channel = before.side.channel := by
  rw [readBatch, Stateful.run_bind_ok (EStateM.run_get before)] at done
  by_cases empty : before.side.channel.readInterfaces.isEmpty = true
  · rw [if_neg (not_not_intro empty)] at done
    rw [List.isEmpty_iff] at empty
    cases done
    exact ⟨[], .nil _, by rw [empty]; rfl, fun some_read => absurd empty some_read, rfl⟩
  · rw [if_pos empty] at done
    obtain ⟨_, middle, stored, loop⟩ := Stateful.ok_of_bind done
    cases stored
    rw [List.range_eq_range'] at loop
    have begun : (⟨before.side, ioctlStructsFromVector limit before.side.channel.readInterfaces⟩ :
        Reading Device Message).readBatch =
          [] ++ ioctlStructsFromVector limit before.side.channel.readInterfaces := rfl
    obtain ⟨exchanges, exchanged, sent, last, same⟩ := readStructs_ok begun loop
    exact ⟨exchanges, exchanged, sent, fun _ => last, same⟩

end Side

namespace Sstio

variable {Device : Type}

/-- The calls that add an interface. -/
inductive Add where
  | mboxRead (cpuIndex : BitVec 32) (command subcommand : BitVec 16) (subcommandArg : BitVec 32)
  | mboxWrite (cpuIndex : BitVec 32) (command subcommand : BitVec 16) (interfaceParameter : BitVec 32)
      (readSubcommand : BitVec 16) (readInterfaceParameter readMask : BitVec 32)
  | mmioRead (cpuIndex : BitVec 32) (registerOffset : BitVec 16)
  | mmioWrite (cpuIndex : BitVec 32) (registerOffset : BitVec 16) (registerValue readMask : BitVec 32)

namespace Add

def perform : Add → EStateM SstioError (Sstio Device) Nat
  | mboxRead cpuIndex command subcommand subcommandArg =>
      addMboxRead cpuIndex command subcommand subcommandArg
  | mboxWrite cpuIndex command subcommand interfaceParameter readSubcommand readInterfaceParameter readMask =>
      addMboxWrite cpuIndex command subcommand interfaceParameter readSubcommand readInterfaceParameter readMask
  | mmioRead cpuIndex registerOffset => addMmioRead cpuIndex registerOffset
  | mmioWrite cpuIndex registerOffset registerValue readMask =>
      addMmioWrite cpuIndex registerOffset registerValue readMask

/-- The state after a call. -/
def step (sstio : Sstio Device) (add : Add) : Sstio Device := Stateful.leaves add.perform sstio

/-- The index leads to the interface of the call. -/
def Named (sstio : Sstio Device) (idx : Nat) : Add → Prop
  | mboxRead cpuIndex command subcommand subcommandArg => ∃ place,
      sstio.addedInterfaces[idx]? = some (.mbox, place) ∧
        sstio.mbox.readInterfaces[place]? = some ⟨cpuIndex, 0, subcommandArg, 0, command, subcommand⟩
  | mmioRead cpuIndex registerOffset => ∃ place,
      sstio.addedInterfaces[idx]? = some (.mmio, place) ∧
        sstio.mmio.readInterfaces[place]? = some ⟨0, cpuIndex, registerOffset.setWidth 32, 0⟩
  | mboxWrite .. | mmioWrite .. => True

/-- The sample is what the driver has answered to the interface of the call. -/
def Sampled (sampling : Sampling Device) (mboxExchanges : List (List MboxInterface × List MboxInterface))
    (mmioExchanges : List (List MmioInterface × List MmioInterface)) (idx : Nat) : Add → Prop
  | mboxRead cpuIndex command subcommand subcommandArg => ∃ answer,
      Answered mboxExchanges ⟨cpuIndex, 0, subcommandArg, 0, command, subcommand⟩ answer ∧
        sampling.sample idx = .ok (answer.readValue.setWidth 64)
  | mmioRead cpuIndex registerOffset => ∃ answer,
      Answered mmioExchanges ⟨0, cpuIndex, registerOffset.setWidth 32, 0⟩ answer ∧
        sampling.sample idx = .ok (answer.value.setWidth 64)
  | mboxWrite .. | mmioWrite .. => True

end Add

/-- Every mailbox has an index, and what is read has not been filled in. -/
structure Indexed (sstio : Sstio Device) : Prop where
  unread : ∀ interface ∈ sstio.mbox.readInterfaces, interface.readValue = 0
  reads : ∀ place < sstio.mbox.readInterfaces.length, (MessageType.mbox, place) ∈ sstio.addedInterfaces
  writes : ∀ place < sstio.mbox.writeInterfaces.length, (MessageType.mbox, place) ∈ sstio.addedInterfaces

/-- What is known stays known. -/
structure Extends (before after : Sstio Device) : Prop where
  limit : after.batchCommandLimit = before.batchCommandLimit
  added : before.addedInterfaces <+: after.addedInterfaces
  mbox : before.mbox.readInterfaces <+: after.mbox.readInterfaces
  mmio : before.mmio.readInterfaces <+: after.mmio.readInterfaces

section Adds

variable {sstio before after : Sstio Device} {idx place : Nat} {add : Add}

theorem Extends.refl : Extends sstio sstio :=
  ⟨rfl, List.prefix_refl _, List.prefix_refl _, List.prefix_refl _⟩

theorem Extends.trans {middle : Sstio Device} (first : Extends before middle) (second : Extends middle after) :
    Extends before after :=
  ⟨second.limit.trans first.limit, first.added.trans second.added, first.mbox.trans second.mbox,
    first.mmio.trans second.mmio⟩

theorem getElem?_of_prefix {Entry : Type} {short long : List Entry} {entry : Entry} (begins : short <+: long)
    (found : short[place]? = some entry) : long[place]? = some entry := by
  obtain ⟨rest, rfl⟩ := begins
  rw [List.getElem?_append_left (List.getElem?_eq_some_iff.mp found).1, found]

theorem Extends.named (grown : Extends before after) (named : add.Named before idx) : add.Named after idx := by
  cases add with
  | mboxRead cpuIndex command subcommand subcommandArg =>
      obtain ⟨place, found, stored⟩ := named
      exact ⟨place, getElem?_of_prefix grown.added found, getElem?_of_prefix grown.mbox stored⟩
  | mboxWrite => trivial
  | mmioRead cpuIndex registerOffset =>
      obtain ⟨place, found, stored⟩ := named
      exact ⟨place, getElem?_of_prefix grown.added found, getElem?_of_prefix grown.mmio stored⟩
  | mmioWrite => trivial

/-- A new mailbox gets an index of its own. -/
theorem mem_concat {places : Nat} {added : List (MessageType × Nat)} {entry : MessageType × Nat}
    (known : ∀ place < places, (MessageType.mbox, place) ∈ added) :
    ∀ place < places, (MessageType.mbox, place) ∈ added ++ [entry] := by
  intro place inside
  exact List.mem_append_left _ (known place inside)

theorem mem_concat_succ {places : Nat} {added : List (MessageType × Nat)}
    (known : ∀ place < places, (MessageType.mbox, place) ∈ added) :
    ∀ place < places + 1, (MessageType.mbox, place) ∈ added ++ [(.mbox, places)] := by
  intro place inside
  rcases Nat.lt_succ_iff_lt_or_eq.mp inside with before | rfl
  · exact List.mem_append_left _ (known place before)
  · simp

/-- A mailbox that is known has an index. -/
theorem idxOf?_some (known : (MessageType.mbox, place) ∈ sstio.addedInterfaces) :
    ∃ idx, sstio.addedInterfaces.idxOf? (.mbox, place) = some idx ∧
      sstio.addedInterfaces[idx]? = some (.mbox, place) := by
  cases found : sstio.addedInterfaces.idxOf? (.mbox, place) with
  | none => exact absurd known (List.idxOf?_eq_none_iff.mp found)
  | some idx =>
      rw [List.idxOf?, List.findIdx?_eq_some_iff_getElem] at found
      obtain ⟨inside, here, _⟩ := found
      exact ⟨idx, rfl, by rw [List.getElem?_eq_getElem inside, eq_of_beq here]⟩

/-- The fields that are compared tell a mailbox that has not been read. -/
theorem eq_of_read {interface : MboxInterface} {cpuIndex argument : BitVec 32} {command subcommand : BitVec 16}
    (same : interface.cpuIndex = cpuIndex ∧ interface.mboxInterfaceParam = 0 ∧ interface.command = command ∧
      interface.subcommand = subcommand ∧ interface.writeValue = argument)
    (unread : interface.readValue = 0) : interface = ⟨cpuIndex, 0, argument, 0, command, subcommand⟩ := by
  cases interface with
  | mk _ _ _ _ _ _ =>
      simp only at same unread
      obtain ⟨rfl, rfl, rfl, rfl, rfl⟩ := same
      rw [unread]

/-- Every call returns an index, and what is known stays known. -/
theorem perform_ok (indexed : sstio.Indexed) (add : Add) : ∃ idx next, add.perform.run sstio = .ok idx next ∧
    next.Indexed ∧ Extends sstio next ∧ add.Named next idx := by
  cases add with
  | mboxRead cpuIndex command subcommand subcommandArg =>
      unfold Add.perform addMboxRead
      simp only
      rw [Stateful.run_bind_ok (EStateM.run_get sstio)]
      cases found : sstio.mbox.readInterfaces.findIdx? _ with
      | none =>
          refine ⟨_, _, rfl, ⟨?_, ?_, mem_concat indexed.writes⟩,
            ⟨rfl, List.prefix_append _ _, List.prefix_append _ _, List.prefix_refl _⟩,
            sstio.mbox.readInterfaces.length, ?_, ?_⟩
          · intro interface member
            rcases List.mem_append.mp member with old | new
            · exact indexed.unread interface old
            · rw [List.mem_singleton.mp new]
          · rw [List.length_append]
            exact mem_concat_succ indexed.reads
          · simp
          · simp
      | some place =>
          obtain ⟨inside, same, _⟩ := List.findIdx?_eq_some_iff_getElem.mp found
          have filled := eq_of_read (of_decide_eq_true same) (indexed.unread _ (List.getElem_mem inside))
          obtain ⟨idx, first, known⟩ := idxOf?_some (indexed.reads place inside)
          simp only [first]
          refine ⟨idx, sstio, rfl, indexed, Extends.refl, place, known, ?_⟩
          rw [List.getElem?_eq_getElem inside, filled]
  | mboxWrite cpuIndex command subcommand interfaceParameter readSubcommand readInterfaceParameter readMask =>
      unfold Add.perform addMboxWrite
      simp only
      rw [Stateful.run_bind_ok (EStateM.run_get sstio)]
      cases found : sstio.mbox.writeInterfaces.findIdx? _ with
      | none =>
          refine ⟨_, _, rfl, ⟨indexed.unread, mem_concat indexed.reads, ?_⟩,
            ⟨rfl, List.prefix_append _ _, List.prefix_refl _, List.prefix_refl _⟩, trivial⟩
          rw [List.length_append]
          exact mem_concat_succ indexed.writes
      | some place =>
          obtain ⟨inside, _, _⟩ := List.findIdx?_eq_some_iff_getElem.mp found
          obtain ⟨idx, first, _⟩ := idxOf?_some (indexed.writes place inside)
          simp only [first]
          exact ⟨idx, sstio, rfl, indexed, Extends.refl, trivial⟩
  | mmioRead cpuIndex registerOffset =>
      refine ⟨_, _, rfl, ⟨indexed.unread, mem_concat indexed.reads, mem_concat indexed.writes⟩,
        ⟨rfl, List.prefix_append _ _, List.prefix_refl _, List.prefix_append _ _⟩,
        sstio.mmio.readInterfaces.length, ?_, ?_⟩
      · simp
      · simp
  | mmioWrite cpuIndex registerOffset registerValue readMask =>
      exact ⟨_, _, rfl, ⟨indexed.unread, mem_concat indexed.reads, mem_concat indexed.writes⟩,
        ⟨rfl, List.prefix_append _ _, List.prefix_refl _, List.prefix_refl _⟩, trivial⟩

theorem indexed_new (limit : Nat) (device : Device) : (Sstio.new limit device).Indexed :=
  ⟨by simp [Sstio.new], by simp [Sstio.new], by simp [Sstio.new]⟩

theorem step_ok (indexed : sstio.Indexed) (add : Add) :
    (Add.step sstio add).Indexed ∧ Extends sstio (Add.step sstio add) := by
  obtain ⟨idx, next, done, kept, grown, _⟩ := perform_ok indexed add
  rw [Add.step, Stateful.leaves_of_ok done]
  exact ⟨kept, grown⟩

theorem run_ok (indexed : sstio.Indexed) (adds : List Add) :
    (Transition.run Add.step sstio adds).Indexed ∧ Extends sstio (Transition.run Add.step sstio adds) := by
  induction adds generalizing sstio with
  | nil => exact ⟨indexed, Extends.refl⟩
  | cons add rest ih =>
      obtain ⟨kept, grown⟩ := step_ok indexed add
      obtain ⟨last, more⟩ := ih kept
      exact ⟨last, grown.trans more⟩

/-- What each call of a run has returned leads to its interface in the end. -/
theorem run_named {adds done : List Add} (indexed : sstio.Indexed) (called : done ++ [add] <+: adds) :
    ∃ idx next, add.perform.run (Transition.run Add.step sstio done) = .ok idx next ∧
      add.Named (Transition.run Add.step sstio adds) idx := by
  obtain ⟨later, rfl⟩ := called
  obtain ⟨before, _⟩ := run_ok indexed done
  obtain ⟨idx, next, performed, kept, _, named⟩ := perform_ok before add
  refine ⟨idx, next, performed, ?_⟩
  rw [Transition.run_append, Transition.run_concat, Add.step, Stateful.leaves_of_ok performed]
  exact (run_ok kept _).2.named named

/-- An index that leads to an interface samples the answer to it. -/
theorem sampled_of_named {driver : SstDriver Device} {before after : Sampling Device}
    (mboxInPlace : InPlace driver.mbox) (mmioInPlace : InPlace driver.mmio)
    (positive : 0 < before.sstio.batchCommandLimit) (read : (Sampling.readBatch driver).run before = .ok () after) :
    ∃ mboxExchanges mmioExchanges middle,
      Exchanges driver.mbox before.sstio.device mboxExchanges middle ∧
      Exchanges driver.mmio middle mmioExchanges after.sstio.device ∧
      ∀ add idx, Add.Named before.sstio idx add → add.Sampled after mboxExchanges mmioExchanges idx := by
  rw [Sampling.readBatch, Stateful.run_bind_ok (EStateM.run_get before)] at read
  obtain ⟨_, middle, first, second⟩ := Stateful.ok_of_bind read
  obtain ⟨mbox, mboxRead, rfl⟩ := Objects.within_ok.mp first
  obtain ⟨mmio, mmioRead, rfl⟩ := Objects.within_ok.mp second
  obtain ⟨mboxExchanges, mboxExchanged, mboxSent, mboxBatch, mboxChannel⟩ := Side.readBatch_ok mboxRead
  obtain ⟨mmioExchanges, mmioExchanged, mmioSent, mmioBatch, mmioChannel⟩ := Side.readBatch_ok mmioRead
  refine ⟨mboxExchanges, mmioExchanges, _, mboxExchanged, mmioExchanged, fun add idx named => ?_⟩
  cases add with
  | mboxRead cpuIndex command subcommand subcommandArg =>
      obtain ⟨place, found, stored⟩ := named
      obtain ⟨answer, answered, there⟩ := mboxExchanged.answered mboxInPlace positive mboxSent stored
      refine ⟨answer, answered, ?_⟩
      rw [← mboxBatch (fun none_read => by rw [none_read] at stored; cases stored)] at there
      simp only [Sampling.sample, found, there]
  | mboxWrite => trivial
  | mmioRead cpuIndex registerOffset =>
      obtain ⟨place, found, stored⟩ := named
      obtain ⟨answer, answered, there⟩ := mmioExchanged.answered mmioInPlace positive mmioSent stored
      refine ⟨answer, answered, ?_⟩
      rw [← mmioBatch (fun none_read => by rw [none_read] at stored; cases stored)] at there
      simp only [Sampling.sample, found, there]
  | mmioWrite => trivial

end Adds

/-- After any calls that add interfaces and a read that returns, the index that each call has returned samples
what the driver has answered to the interface of the call. -/
theorem sample_adds (driver : SstDriver Device) (mboxInPlace : InPlace driver.mbox)
    (mmioInPlace : InPlace driver.mmio) (batchCommandLimit : Nat) (positive : 0 < batchCommandLimit)
    (device : Device) (adds : List Add) (before after : Sampling Device)
    (added : before.sstio = Transition.run Add.step (new batchCommandLimit device) adds)
    (read : (Sampling.readBatch driver).run before = .ok () after) :
    ∃ mboxExchanges mmioExchanges middle,
      Exchanges driver.mbox before.sstio.device mboxExchanges middle ∧
      Exchanges driver.mmio middle mmioExchanges after.sstio.device ∧
      ∀ done add, done ++ [add] <+: adds → ∃ idx next,
        add.perform.run (Transition.run Add.step (new batchCommandLimit device) done) = .ok idx next ∧
          add.Sampled after mboxExchanges mmioExchanges idx := by
  have grown := (run_ok (indexed_new batchCommandLimit device) adds).2
  have limit : 0 < before.sstio.batchCommandLimit := by
    rw [added, grown.limit]
    exact positive
  obtain ⟨mboxExchanges, mmioExchanges, middle, first, second, sampled⟩ :=
    sampled_of_named mboxInPlace mmioInPlace limit read
  refine ⟨mboxExchanges, mmioExchanges, middle, first, second, fun done add called => ?_⟩
  obtain ⟨idx, next, performed, named⟩ := run_named (indexed_new batchCommandLimit device) called
  exact ⟨idx, next, performed, sampled add idx (added ▸ named)⟩

theorem length_inOrder {Message : Type} {one : Device → Message → Device × Message} {batch : List Message}
    {device : Device} : (inOrder one batch device).2.length = batch.length := by
  induction batch generalizing device with
  | nil => rfl
  | cons message rest ih => rw [inOrder, List.length_cons, List.length_cons, ih]

theorem inPlace_inOrder {Message : Type} {one : Device → Message → Device × Message} :
    InPlace fun batch device => ((inOrder one batch device).1, some (inOrder one batch device).2) := by
  intro batch device next answers outcome
  cases outcome
  exact length_inOrder

/-- Two registers and a mailbox that is added twice. -/
def addFour : List Add :=
  [.mmioRead 0 0x10, .mboxRead 3 0x7f 1 0, .mboxRead 3 0x7f 1 0, .mmioRead 0 0x14]

theorem sample_adds_addFour :
    ∃ after, (Sampling.readBatch simpleDriver).run
        ⟨Transition.run Add.step (new 1 twoRegisters) addFour, [], []⟩ = .ok () after ∧
      ∃ mboxExchanges mmioExchanges middle,
        Exchanges simpleDriver.mbox twoRegisters mboxExchanges middle ∧
        Exchanges simpleDriver.mmio middle mmioExchanges after.sstio.device ∧
        ∀ done add, done ++ [add] <+: addFour → ∃ idx next,
          add.perform.run (Transition.run Add.step (new 1 twoRegisters) done) = .ok idx next ∧
            add.Sampled after mboxExchanges mmioExchanges idx := by
  have succeeds : Stateful.returns (Sampling.readBatch simpleDriver)
      ⟨Transition.run Add.step (new 1 twoRegisters) addFour, [], []⟩ = true := rfl
  obtain ⟨_, after, read⟩ := Stateful.ok_of_returns succeeds
  exact ⟨after, read, sample_adds simpleDriver inPlace_inOrder inPlace_inOrder 1 (by decide) twoRegisters addFour
    _ after rfl read⟩

end Sstio

end Geopm
