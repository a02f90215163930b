import Geopm.Sst.Sstio

namespace Geopm

/-! What the batches of `write_batch` store in the interfaces.

The entries of every batch are merged into the interfaces at the start of the list: interface `k`
takes the bits that were read for all interfaces whose place is `k` modulo the limit.
-/

variable {Device Message : Type}

/-- A value can be put into a message and read back. -/
structure Wire.Lawful (wire : Wire Message) : Prop where
  value_withValue : ∀ (message : Message) (value : BitVec 32),
    wire.value (wire.withValue message value) = value
  withValue_value : ∀ message : Message, wire.withValue message (wire.value message) = message
  withValue_withValue : ∀ (message : Message) (first second : BitVec 32),
    wire.withValue (wire.withValue message first) second = wire.withValue message second

theorem mboxWire_lawful : mboxWire.Lawful :=
  ⟨fun _ _ => rfl, fun _ => rfl, fun _ _ _ => rfl⟩

theorem mmioWire_lawful : mmioWire.Lawful :=
  ⟨fun _ _ => rfl, fun _ => rfl, fun _ _ _ => rfl⟩

/-- An ioctl that returns has answered each of the messages that only ask, and has left the
device alone. -/
def Answers (call : List Message → Device → Device × Option (List Message)) (asks : Message → Prop)
    (answer : Device → Message → Message) : Prop :=
  ∀ batch device next answers, (∀ message ∈ batch, asks message) →
    call batch device = (next, some answers) → next = device ∧ answers = batch.map (answer device)

section Structs

variable {limit passes place : Nat} {commands : List Message}

theorem flatten_structsWithin (positive : 0 < limit) (enough : commands.length ≤ passes) :
    (structsWithin limit passes commands).flatten = commands := by
  induction passes generalizing commands with
  | zero =>
      rw [List.length_eq_zero_iff.mp (Nat.le_zero.mp enough)]
      rfl
  | succ passes ih =>
      cases commands with
      | nil => rfl
      | cons command rest =>
          have fewer : ((command :: rest).drop limit).length ≤ passes := by
            rw [List.length_drop]
            omega
          rw [structsWithin, List.isEmpty_cons, if_neg Bool.false_ne_true, List.flatten_cons, ih fewer,
            List.take_append_drop]

theorem flatten_structs (positive : 0 < limit) (commands : List Message) :
    (ioctlStructsFromVector limit commands).flatten = commands :=
  flatten_structsWithin positive (Nat.le_refl _)

theorem mem_structs (positive : 0 < limit) {batch : List Message} {command : Message}
    (listed : batch ∈ ioctlStructsFromVector limit commands) (member : command ∈ batch) : command ∈ commands := by
  rw [← flatten_structs positive commands]
  exact List.mem_flatten.mpr ⟨batch, listed, member⟩

/-- The places of the first batch, and those of the others. -/
theorem exists_place {property : Message → Prop} :
    (∃ index command, commands[index]? = some command ∧ index % limit = place ∧ property command) ↔
      (∃ command, (commands.take limit)[place]? = some command ∧ property command) ∨
        ∃ index command, (commands.drop limit)[index]? = some command ∧ index % limit = place ∧
          property command := by
  constructor
  · intro ⟨index, command, listed, same, holds⟩
    by_cases first : index < limit
    · rw [Nat.mod_eq_of_lt first] at same
      subst same
      exact .inl ⟨command, by rw [List.getElem?_take_of_lt first, listed], holds⟩
    · refine .inr ⟨index - limit, command, ?_, ?_, holds⟩
      · rw [List.getElem?_drop, show limit + (index - limit) = index by omega, listed]
      · rw [← same, Nat.mod_eq_sub_mod (Nat.not_lt.mp first)]
  · intro cases
    rcases cases with ⟨command, listed, holds⟩ | ⟨index, command, listed, same, holds⟩
    · have inside : place < limit := by
        have bound := (List.getElem?_eq_some_iff.mp listed).1
        rw [List.length_take] at bound
        omega
      rw [List.getElem?_take_of_lt inside] at listed
      exact ⟨place, command, listed, Nat.mod_eq_of_lt inside, holds⟩
    · rw [List.getElem?_drop] at listed
      exact ⟨limit + index, command, listed, by rw [Nat.add_mod_left, same], holds⟩

theorem exists_getElem?_map {change : Message → Message} {property : Message → Prop} :
    (∃ result, (commands.map change)[place]? = some result ∧ property result) ↔
      ∃ command, commands[place]? = some command ∧ property (change command) := by
  simp [List.getElem?_map]

end Structs

namespace Side

section Merge

variable {wire : Wire Message} {answers interfaces : List Message} {readMasks writeMasks : List (BitVec 32)}
  {place : Nat} {interface : Message} {readMask writeMask : BitVec 32}

@[simp] theorem length_merge :
    (merge wire answers readMasks writeMasks interfaces).length = interfaces.length := by
  fun_induction merge with
  | case1 _ _ _ _ _ _ _ _ ih => rw [List.length_cons, List.length_cons, ih]
  | case2 => rfl

theorem getElem?_merge : (merge wire answers readMasks writeMasks interfaces)[place]? =
    interfaces[place]?.map fun interface =>
      match answers[place]?, readMasks[place]?, writeMasks[place]? with
      | some answer, some readMask, some writeMask => mergeEntry wire answer readMask writeMask interface
      | _, _, _ => interface := by
  induction interfaces generalizing answers readMasks writeMasks place with
  | nil => cases answers <;> cases readMasks <;> cases writeMasks <;> rfl
  | cons interface rest ih =>
      cases answers with
      | nil => simp [merge]
      | cons answer answers =>
          cases readMasks with
          | nil => simp [merge]
          | cons readMask readMasks =>
              cases writeMasks with
              | nil => simp [merge]
              | cons writeMask writeMasks =>
                  cases place with
                  | zero => rfl
                  | succ place =>
                      rw [merge, List.getElem?_cons_succ, ih]
                      rfl

/-- An interface takes the bits of the answer at its own place. -/
theorem getElem?_merge_some (lawful : wire.Lawful) (stored : interfaces[place]? = some interface)
    (reading : readMasks[place]? = some readMask) (writing : writeMasks[place]? = some writeMask) :
    ∃ value, (merge wire answers readMasks writeMasks interfaces)[place]? =
        some (wire.withValue interface value) ∧
      ∀ bit, value.getLsbD bit = true ↔ (wire.value interface).getLsbD bit = true ∨
        (writeMask.getLsbD bit = false ∧ readMask.getLsbD bit = true ∧
          ∃ answer, answers[place]? = some answer ∧ (wire.result answer).getLsbD bit = true) := by
  rw [getElem?_merge, stored, reading, writing]
  cases found : answers[place]? with
  | none => exact ⟨wire.value interface, by rw [lawful.withValue_value]; rfl, by simp⟩
  | some answer =>
      refine ⟨_, rfl, fun bit => ?_⟩
      by_cases inside : bit < 32
      · simp [inside, and_left_comm, and_comm]
      · simp [BitVec.getLsbD_of_ge _ bit (Nat.not_lt.mp inside)]

/-- The loops over all batches. -/
def mergeAll (wire : Wire Message) (readMasks writeMasks : List (BitVec 32)) (batches : List (List Message))
    (interfaces : List Message) : List Message :=
  batches.foldl (fun interfaces answers => merge wire answers readMasks writeMasks interfaces) interfaces

/-- After the batches of some requests an interface has the bits that were read for all places that
are its own modulo the limit. -/
theorem getElem?_mergeAll {limit passes : Nat} {requests : List Message} (answer : Message → Message)
    (lawful : wire.Lawful) (positive : 0 < limit) (enough : requests.length ≤ passes)
    (stored : interfaces[place]? = some interface) (reading : readMasks[place]? = some readMask)
    (writing : writeMasks[place]? = some writeMask) :
    ∃ value, (mergeAll wire readMasks writeMasks ((structsWithin limit passes requests).map (·.map answer))
        interfaces)[place]? = some (wire.withValue interface value) ∧
      ∀ bit, value.getLsbD bit = true ↔ (wire.value interface).getLsbD bit = true ∨
        (writeMask.getLsbD bit = false ∧ readMask.getLsbD bit = true ∧
          ∃ index request, requests[index]? = some request ∧ index % limit = place ∧
            (wire.result (answer request)).getLsbD bit = true) := by
  induction passes generalizing requests interfaces interface with
  | zero =>
      have none_left : requests = [] := List.length_eq_zero_iff.mp (Nat.le_zero.mp enough)
      exact ⟨wire.value interface, by rw [lawful.withValue_value]; exact stored, by simp [none_left]⟩
  | succ passes ih =>
      cases requests with
      | nil => exact ⟨wire.value interface, by rw [lawful.withValue_value]; exact stored, by simp⟩
      | cons request rest =>
          have fewer : ((request :: rest).drop limit).length ≤ passes := by
            rw [List.length_drop]
            omega
          obtain ⟨first, merged, bits⟩ := @getElem?_merge_some Message wire
            (((request :: rest).take limit).map answer) _ _ _ _ _ _ _ lawful stored reading writing
          obtain ⟨value, last, others⟩ := ih fewer merged
          refine ⟨value, ?_, fun bit => ?_⟩
          · rw [lawful.withValue_withValue] at last
            exact last
          · have places : (∃ index asked, (request :: rest)[index]? = some asked ∧ index % limit = place ∧
                (wire.result (answer asked)).getLsbD bit = true) ↔ _ := exists_place
            rw [others bit, lawful.value_withValue, bits bit, exists_getElem?_map, places]
            simp only [and_or_left, or_assoc]

end Merge

section Calls

variable {wire : Wire Message} {call : List Message → Device → Device × Option (List Message)}
  {asks : Message → Prop} {answer : Device → Message → Message} {failure : SstioError}
  {before after : Side Device Message}

theorem ioctl_ok {batch answers : List Message}
    (done : (ioctl call failure batch).run before = .ok answers after) :
    call batch before.device = (after.device, some answers) ∧
      after = { before with device := after.device, sent := before.sent ++ batch } := by
  change ioctl call failure batch before = _ at done
  rw [ioctl] at done
  cases outcome : call batch before.device with
  | mk next answered =>
      rw [outcome] at done
      cases answered with
      | none => cases done
      | some answers =>
          cases done
          exact ⟨rfl, rfl⟩

/-- The pass of the reading loop. -/
def readPass (wire : Wire Message) (call : List Message → Device → Device × Option (List Message))
    (failure : SstioError) (batch : List Message) : EStateM SstioError (Side Device Message) Unit := do
  let answers ← ioctl call failure batch
  modify fun side => { side with
    channel := { side.channel with
      writeInterfaces := merge wire answers side.channel.rmwReadMasks side.channel.rmwWriteMasks
        side.channel.writeInterfaces } }

/-- The pass of the writing loop. -/
def writePass (call : List Message → Device → Device × Option (List Message)) (failure : SstioError)
    (batch : List Message) : EStateM SstioError (Side Device Message) Unit := do
  let _ ← ioctl call failure batch

theorem readPasses_ok (answered : Answers call asks answer) {batches : List (List Message)}
    (asked : ∀ batch ∈ batches, ∀ message ∈ batch, asks message)
    (done : (batches.forM (readPass wire call failure)).run before = .ok () after) :
    after.device = before.device ∧ after.sent = before.sent ++ batches.flatten ∧
      after.channel = { before.channel with
        writeInterfaces := mergeAll wire before.channel.rmwReadMasks before.channel.rmwWriteMasks
          (batches.map (·.map (answer before.device))) before.channel.writeInterfaces } := by
  induction batches generalizing before with
  | nil =>
      cases done
      exact ⟨rfl, (List.append_nil _).symm, rfl⟩
  | cons batch rest ih =>
      rw [List.forM_eq_forM, List.forM_cons] at done
      obtain ⟨_, middle, first, later⟩ := Stateful.ok_of_bind done
      obtain ⟨answers, read, called, merged⟩ := Stateful.ok_of_bind first
      obtain ⟨outcome, read_eq⟩ := ioctl_ok called
      obtain ⟨unchanged, answers_eq⟩ := answered _ _ _ _ (asked batch (by simp)) outcome
      cases merged
      obtain ⟨device, sent, channel⟩ := ih (fun other member => asked other (by simp [member])) later
      rw [read_eq] at device sent channel
      simp only at device sent channel
      rw [unchanged] at device channel
      refine ⟨device, ?_, ?_⟩
      · rw [sent, List.flatten_cons, List.append_assoc]
      · rw [channel, answers_eq]
        rfl

theorem writePasses_ok {batches : List (List Message)}
    (done : (batches.forM (writePass call failure)).run before = .ok () after) :
    after.sent = before.sent ++ batches.flatten ∧ after.channel = before.channel := by
  induction batches generalizing before with
  | nil =>
      cases done
      exact ⟨(List.append_nil _).symm, rfl⟩
  | cons batch rest ih =>
      rw [List.forM_eq_forM, List.forM_cons] at done
      obtain ⟨_, middle, first, later⟩ := Stateful.ok_of_bind done
      obtain ⟨answers, read, called, returned⟩ := Stateful.ok_of_bind first
      obtain ⟨_, read_eq⟩ := ioctl_ok called
      cases returned
      obtain ⟨sent, channel⟩ := ih later
      rw [read_eq] at sent channel
      exact ⟨by rw [sent, List.flatten_cons, List.append_assoc], channel⟩

/-- A half of `write_batch` reads for all requests, and then writes all interfaces. -/
theorem writeBatch_passes {limit : Nat} {readFailure writeFailure : SstioError}
    (paired : before.channel.rmwInterfaces.length = before.channel.writeInterfaces.length)
    (done : (writeBatch wire call readFailure writeFailure limit).run before = .ok () after) :
    ∃ middle, ((ioctlStructsFromVector limit before.channel.rmwInterfaces).forM
          (readPass wire call readFailure)).run before = .ok () middle ∧
      ((ioctlStructsFromVector limit middle.channel.writeInterfaces).forM
          (writePass call writeFailure)).run middle = .ok () after := by
  rw [writeBatch, Stateful.run_bind_ok (EStateM.run_get before)] at done
  by_cases empty : before.channel.writeInterfaces.isEmpty = true
  · rw [if_neg (not_not_intro empty)] at done
    rw [List.isEmpty_iff] at empty
    rw [empty, List.length_nil, List.length_eq_zero_iff] at paired
    cases done
    refine ⟨before, ?_, ?_⟩
    · rw [paired]
      rfl
    · rw [empty]
      rfl
  · rw [if_pos empty] at done
    obtain ⟨_, middle, first, later⟩ := Stateful.ok_of_bind done
    rw [Stateful.run_bind_ok (EStateM.run_get middle)] at later
    exact ⟨middle, first, later⟩

/-- What a half of `write_batch` has sent when it returns: the requests, and the interfaces with
the merged bits. -/
theorem writeBatch_ok {limit : Nat} {readFailure writeFailure : SstioError}
    (answered : Answers call asks answer) (positive : 0 < limit)
    (asked : ∀ message ∈ before.channel.rmwInterfaces, asks message)
    (paired : before.channel.rmwInterfaces.length = before.channel.writeInterfaces.length)
    (done : (writeBatch wire call readFailure writeFailure limit).run before = .ok () after) :
    after.sent = before.sent ++ before.channel.rmwInterfaces ++
        mergeAll wire before.channel.rmwReadMasks before.channel.rmwWriteMasks
          ((ioctlStructsFromVector limit before.channel.rmwInterfaces).map (·.map (answer before.device)))
          before.channel.writeInterfaces := by
  obtain ⟨middle, first, later⟩ := writeBatch_passes paired done
  obtain ⟨_, sent, channel⟩ := readPasses_ok answered
    (fun batch listed message member => asked message (mem_structs positive listed member)) first
  obtain ⟨last, _⟩ := writePasses_ok later
  rw [last, sent, flatten_structs positive, flatten_structs positive, channel]

end Calls

end Side

end Geopm
