import Geopm.Library.MaskedWrite
import Geopm.Library.Run
import Geopm.Library.Table
import Geopm.Sst.Merge

namespace Geopm

/-! Batched writes beside single writes. -/

/-- All that an interface has been adjusted to. -/
structure Total where
  value : BitVec 64
  mask : BitVec 64
  isAdjusted : Bool
deriving Repr, DecidableEq

namespace Total

def none : Total := ⟨0, 0, false⟩

def adjust (total : Total) (writeValue writeMask : BitVec 64) : Total where
  value := (total.value &&& ~~~writeMask) ||| writeValue
  mask := total.mask ||| writeMask
  isAdjusted := true

/-- The value has no bits outside the mask. -/
def Within (total : Total) : Prop := total.value &&& ~~~total.mask = 0

instance (total : Total) : Decidable total.Within := inferInstanceAs (Decidable (_ = _))

end Total

/-- A batch stores in the interface at a place what a single write would, where `stored` is its value from
before and `contents` is what the driver reads for all interfaces. -/
structure Fits (limit place : Nat) (stored readMask writeMask own : BitVec 32)
    (contents : List (BitVec 32)) : Prop where
  /-- What is stored from earlier rounds is still to be read. -/
  stale : (stored &&& ~~~writeMask) &&& ~~~(own &&& readMask) = 0
  /-- In the first batch: the interfaces at the same place of other batches add nothing. -/
  others : place < limit → ∀ (index : Nat) (other : BitVec 32), contents[index]? = some other →
    index % limit = place → (other &&& readMask &&& ~~~writeMask) &&& ~~~own = 0
  /-- In other batches: what is to be read is stored already. -/
  unread : limit ≤ place → (own &&& readMask &&& ~~~writeMask) &&& ~~~stored = 0

section Values

variable {limit place : Nat} {stored value readMask own : BitVec 32} {contents : List (BitVec 32)}
  {total : Total}

theorem getLsbD_onceValue {bit : Nat} (inside : bit < 32) :
    (onceValue readMask own total.value total.mask).getLsbD bit = true ↔
      total.value.getLsbD bit = true ∨
        (total.mask.getLsbD bit = false ∧ own.getLsbD bit = true ∧ readMask.getLsbD bit = true) := by
  simp [onceValue, inside, show bit < 64 by omega]

theorem eq_onceValue_iff (positive : 0 < limit) (within : total.Within)
    (adjusted : stored &&& total.mask.setWidth 32 = total.value.setWidth 32)
    (mine : contents[place]? = some own)
    (bits : ∀ bit, value.getLsbD bit = true ↔ stored.getLsbD bit = true ∨
      ((total.mask.setWidth 32).getLsbD bit = false ∧ readMask.getLsbD bit = true ∧
        ∃ index other, contents[index]? = some other ∧ index % limit = place ∧ other.getLsbD bit = true)) :
    value = onceValue readMask own total.value total.mask ↔
      Fits limit place stored readMask (total.mask.setWidth 32) own contents := by
  have inMask := MaskedWrite.and_not_eq_zero_iff.mp within
  have kept : ∀ bit < 32, (stored.getLsbD bit && total.mask.getLsbD bit) = total.value.getLsbD bit := by
    intro bit inside
    have here := congrArg (·.getLsbD bit) adjusted
    simpa [inside] using here
  have masked : ∀ bit < 32, (total.mask.setWidth 32).getLsbD bit = total.mask.getLsbD bit := by
    intro bit inside
    simp [inside]
  constructor
  · intro same
    have agree : ∀ bit < 32, _ ↔ _ := fun bit inside =>
      (bits bit).symm.trans (same ▸ getLsbD_onceValue inside)
    constructor
    case stale =>
        rw [MaskedWrite.and_not_eq_zero_iff]
        intro bit present
        have inside := BitVec.lt_of_getLsbD present
        simp only [BitVec.getLsbD_and, BitVec.getLsbD_not, inside, decide_true, Bool.true_and,
          Bool.and_eq_true, Bool.not_eq_true', masked bit inside] at present ⊢
        rcases (agree bit inside).mp (.inl present.1) with set | ⟨_, read⟩
        · rw [inMask bit set] at present
          exact absurd present.2 Bool.noConfusion
        · exact read
    case others =>
        intro first index other listed same_place
        rw [MaskedWrite.and_not_eq_zero_iff]
        intro bit present
        have inside := BitVec.lt_of_getLsbD present
        simp only [BitVec.getLsbD_and, BitVec.getLsbD_not, inside, decide_true, Bool.true_and,
          Bool.and_eq_true, Bool.not_eq_true'] at present
        rcases (agree bit inside).mp (.inr ⟨present.2, present.1.2, index, other, listed, same_place,
            present.1.1⟩) with set | ⟨_, read, _⟩
        · rw [masked bit inside, inMask bit set] at present
          exact absurd present.2 Bool.noConfusion
        · exact read
    case unread =>
        intro beyond
        rw [MaskedWrite.and_not_eq_zero_iff]
        intro bit present
        have inside := BitVec.lt_of_getLsbD present
        simp only [BitVec.getLsbD_and, BitVec.getLsbD_not, inside, decide_true, Bool.true_and,
          Bool.and_eq_true, Bool.not_eq_true', masked bit inside] at present
        rcases (agree bit inside).mpr (.inr ⟨present.2, present.1⟩) with found | ⟨_, _, index, _, _, same_place, _⟩
        · exact found
        · have below := Nat.mod_lt index positive
          omega
  · intro fits
    have stale := MaskedWrite.and_not_eq_zero_iff.mp fits.stale
    apply BitVec.eq_of_getLsbD_eq
    intro bit inside
    rw [Bool.eq_iff_iff, bits bit, getLsbD_onceValue inside, masked bit inside]
    constructor
    · intro present
      rcases present with found | ⟨free, read, index, other, listed, same_place, set⟩
      · cases mask : total.mask.getLsbD bit with
        | true => exact .inl (by rw [← kept bit inside, found, mask]; rfl)
        | false =>
            have read := stale bit (by simp [found, inside, mask])
            simp only [BitVec.getLsbD_and, Bool.and_eq_true] at read
            exact .inr ⟨rfl, read⟩
      · have first : place < limit := same_place ▸ Nat.mod_lt index positive
        have added := MaskedWrite.and_not_eq_zero_iff.mp (fits.others first index other listed same_place)
        exact .inr ⟨free, added bit (by simp [set, read, inside, free]), read⟩
    · intro present
      rcases present with set | ⟨free, mineSet, read⟩
      · have stored_set := kept bit inside
        rw [set, Bool.and_eq_true] at stored_set
        exact .inl stored_set.1
      · by_cases first : place < limit
        · exact .inr ⟨free, read, place, own, mine, Nat.mod_eq_of_lt first, mineSet⟩
        · have known := MaskedWrite.and_not_eq_zero_iff.mp (fits.unread (Nat.not_lt.mp first))
          exact .inl (known bit (by simp [mineSet, read, inside, free]))

theorem Total.Within.adjust {writeValue writeMask : BitVec 64} (within : total.Within)
    (proper : writeValue &&& ~~~writeMask = 0) : (total.adjust writeValue writeMask).Within := by
  have old := MaskedWrite.and_not_eq_zero_iff.mp within
  have new := MaskedWrite.and_not_eq_zero_iff.mp proper
  apply MaskedWrite.and_not_eq_zero_iff.mpr
  intro bit present
  simp only [Total.adjust, BitVec.getLsbD_or, BitVec.getLsbD_and, BitVec.getLsbD_not, Bool.or_eq_true,
    Bool.and_eq_true] at present ⊢
  rcases present with ⟨kept, _⟩ | set
  · exact .inl (old bit kept)
  · exact .inr (new bit set)

/-- `adjust` keeps the adjusted bits of the stored value those of the total. -/
theorem adjusted_adjust {writeValue writeMask : BitVec 64} (proper : writeValue &&& ~~~writeMask = 0)
    (adjusted : stored &&& total.mask.setWidth 32 = total.value.setWidth 32) :
    ((stored &&& (~~~writeMask).setWidth 32) ||| writeValue.setWidth 32) &&&
        (total.adjust writeValue writeMask).mask.setWidth 32 =
      (total.adjust writeValue writeMask).value.setWidth 32 := by
  have new := MaskedWrite.and_not_eq_zero_iff.mp proper
  apply BitVec.eq_of_getLsbD_eq
  intro bit inside
  have old := congrArg (·.getLsbD bit) adjusted
  have under := new bit
  simp only [BitVec.getLsbD_and, BitVec.getLsbD_setWidth, inside, decide_true, Bool.true_and] at old
  simp only [Total.adjust, BitVec.getLsbD_or, BitVec.getLsbD_and, BitVec.getLsbD_not, BitVec.getLsbD_setWidth,
    inside, show bit < 64 by omega, decide_true, Bool.true_and, ← old]
  revert under
  cases stored.getLsbD bit <;> cases writeMask.getLsbD bit <;> cases writeValue.getLsbD bit <;>
    cases total.mask.getLsbD bit <;> simp

/-- Bits that are merged are none of the adjusted ones. -/
theorem adjusted_merge {read : BitVec 32}
    (adjusted : stored &&& total.mask.setWidth 32 = total.value.setWidth 32) :
    (stored ||| (~~~(total.mask.setWidth 32) &&& read)) &&& total.mask.setWidth 32 =
      total.value.setWidth 32 := by
  rw [← adjusted]
  apply BitVec.eq_of_getLsbD_eq
  intro bit inside
  simp only [BitVec.getLsbD_or, BitVec.getLsbD_and, BitVec.getLsbD_not, inside, decide_true, Bool.true_and]
  cases (total.mask.setWidth 32).getLsbD bit <;> simp

end Values

/-- What holds of the interfaces of one type of message, whatever the driver has answered. -/
structure Channel.Tracks {Message : Type} (wire : Wire Message) (pairs : Message → Message → Prop)
    (totals : Nat → Total) (channel : Channel Message) : Prop where
  rmws : channel.rmwInterfaces.length = channel.writeInterfaces.length
  readMasks : channel.rmwReadMasks.length = channel.writeInterfaces.length
  writeMasks : channel.rmwWriteMasks.length = channel.writeInterfaces.length
  masks : ∀ (place : Nat) (mask : BitVec 32), channel.rmwWriteMasks[place]? = some mask →
    mask = (totals place).mask.setWidth 32
  values : ∀ (place : Nat) (interface : Message), channel.writeInterfaces[place]? = some interface →
    wire.value interface &&& (totals place).mask.setWidth 32 = (totals place).value.setWidth 32
  paired : ∀ (place : Nat) (interface request : Message), channel.writeInterfaces[place]? = some interface →
    channel.rmwInterfaces[place]? = some request → pairs interface request
  within : ∀ place, (totals place).Within
  untouched : ∀ place, channel.writeInterfaces.length ≤ place → totals place = .none

/-- What the driver is documented to do: a mailbox command that gets data and a read of a register leave
the device alone and return contents. -/
structure SstDriver.Documented {Device : Type} (driver : SstDriver Device)
    (gets : BitVec 16 → BitVec 16 → Prop) (mboxContents : Device → MboxInterface → BitVec 32)
    (mmioContents : Device → BitVec 32 → BitVec 32 → BitVec 32) : Prop where
  mbox : Answers driver.mbox (fun message => gets message.command message.subcommand)
    fun device message => { message with readValue := mboxContents device message }
  mmio : Answers driver.mmio (fun message => message.isWrite = 0)
    fun device message =>
      { message with value := mmioContents device message.cpuIndex message.registerOffset }

section Channels

variable {Device Message : Type} {wire : Wire Message} {pairs : Message → Message → Prop}
  {totals : Nat → Total} {channel : Channel Message} {writeValue writeMask : BitVec 64} {place : Nat}

theorem Channel.Tracks.empty : Channel.Tracks wire pairs (fun _ => .none) ⟨[], [], [], [], []⟩ where
  rmws := rfl
  readMasks := rfl
  writeMasks := rfl
  masks _ _ listed := by simp at listed
  values _ _ listed := by simp at listed
  paired _ _ _ listed := by simp at listed
  within _ := by decide
  untouched _ _ := rfl

theorem Channel.Tracks.reads (tracks : channel.Tracks wire pairs totals) (readInterfaces : List Message) :
    Channel.Tracks wire pairs totals { channel with readInterfaces } :=
  ⟨tracks.rmws, tracks.readMasks, tracks.writeMasks, tracks.masks, tracks.values, tracks.paired, tracks.within,
    tracks.untouched⟩

/-- Every request belongs to an interface. -/
theorem Channel.Tracks.asked (tracks : channel.Tracks wire pairs totals) {asks : Message → Prop}
    (each : ∀ interface request, pairs interface request → asks request) :
    ∀ request ∈ channel.rmwInterfaces, asks request := by
  intro request member
  obtain ⟨place, bound, requested⟩ := List.getElem_of_mem member
  have stored := List.getElem?_eq_getElem (tracks.rmws ▸ bound)
  exact each _ request (tracks.paired place _ request stored (requested ▸ List.getElem?_eq_getElem bound))

/-- An interface that is new has not been adjusted. -/
theorem Channel.Tracks.add (tracks : channel.Tracks wire pairs totals) {interface request : Message}
    (readMask : BitVec 32) (couple : pairs interface request) :
    Channel.Tracks wire pairs totals { channel with
      writeInterfaces := channel.writeInterfaces ++ [interface]
      rmwInterfaces := channel.rmwInterfaces ++ [request]
      rmwReadMasks := channel.rmwReadMasks ++ [readMask]
      rmwWriteMasks := channel.rmwWriteMasks ++ [0] } where
  rmws := by simp [tracks.rmws]
  readMasks := by simp [tracks.readMasks]
  writeMasks := by simp [tracks.writeMasks]
  masks index mask listed := by
    rcases Table.getElem?_concat_iff.mp listed with known | ⟨rfl, rfl⟩
    · exact tracks.masks index mask known
    · rw [tracks.untouched _ (Nat.le_of_eq tracks.writeMasks.symm)]
      rfl
  values index found listed := by
    rcases Table.getElem?_concat_iff.mp listed with known | ⟨rfl, rfl⟩
    · exact tracks.values index found known
    · rw [tracks.untouched _ (Nat.le_refl _)]
      simp [Total.none]
  paired index found asked listed requested := by
    rcases Table.getElem?_concat_iff.mp listed with known | ⟨rfl, rfl⟩
    · rcases Table.getElem?_concat_iff.mp requested with old | ⟨rfl, rfl⟩
      · exact tracks.paired index found asked known old
      · rw [tracks.rmws] at known
        simp at known
    · rcases Table.getElem?_concat_iff.mp requested with old | ⟨_, rfl⟩
      · rw [← tracks.rmws] at old
        simp at old
      · exact couple
  within := tracks.within
  untouched index beyond := by
    rw [List.length_append, List.length_singleton] at beyond
    exact tracks.untouched index (by omega)

/-- The pairing of the two messages of an interface says nothing of the value to write. -/
def Wire.Stable (wire : Wire Message) (pairs : Message → Message → Prop) : Prop :=
  ∀ interface request value, pairs interface request → pairs (wire.withValue interface value) request

theorem Channel.Tracks.adjust (tracks : channel.Tracks wire pairs totals) (lawful : wire.Lawful)
    (stable : wire.Stable pairs) (proper : writeValue &&& ~~~writeMask = 0)
    (known : place < channel.writeInterfaces.length) :
    (channel.adjust wire place writeValue writeMask).Tracks wire pairs
      (Function.update totals place ((totals place).adjust writeValue writeMask)) where
  rmws := by simp [Channel.adjust, tracks.rmws]
  readMasks := by simp [Channel.adjust, tracks.readMasks]
  writeMasks := by simp [Channel.adjust, tracks.writeMasks]
  masks index mask listed := by
    rw [Channel.adjust, List.getElem?_modify, Option.map_eq_map, Option.map_eq_some_iff] at listed
    obtain ⟨old, stored, rfl⟩ := listed
    have before := tracks.masks index old stored
    by_cases here : place = index
    · subst here
      simp [before, Total.adjust]
    · rw [if_neg here, before, Function.update_of_ne (Ne.symm here)]
  values index found listed := by
    rw [Channel.adjust, List.getElem?_modify, Option.map_eq_map, Option.map_eq_some_iff] at listed
    obtain ⟨old, stored, rfl⟩ := listed
    have before := tracks.values index old stored
    by_cases here : place = index
    · subst here
      rw [if_pos rfl, Function.update_self, lawful.value_withValue]
      exact adjusted_adjust proper before
    · rw [if_neg here, Function.update_of_ne (Ne.symm here), before]
  paired index found asked listed requested := by
    rw [Channel.adjust, List.getElem?_modify, Option.map_eq_map, Option.map_eq_some_iff] at listed
    obtain ⟨old, stored, rfl⟩ := listed
    have before := tracks.paired index old asked stored requested
    split
    · exact stable _ _ _ before
    · exact before
  within index := by
    by_cases here : index = place
    · rw [here, Function.update_self]
      exact (tracks.within place).adjust proper
    · rw [Function.update_of_ne here]
      exact tracks.within index
  untouched index beyond := by
    rw [Channel.adjust, List.length_modify] at beyond
    rw [Function.update_of_ne (by omega), tracks.untouched index beyond]

theorem Channel.Tracks.merge (tracks : channel.Tracks wire pairs totals) (lawful : wire.Lawful)
    (stable : wire.Stable pairs) (answers : List Message) :
    Channel.Tracks wire pairs totals { channel with
      writeInterfaces := Side.merge wire answers channel.rmwReadMasks channel.rmwWriteMasks
        channel.writeInterfaces } where
  rmws := tracks.rmws.trans Side.length_merge.symm
  readMasks := tracks.readMasks.trans Side.length_merge.symm
  writeMasks := tracks.writeMasks.trans Side.length_merge.symm
  masks := tracks.masks
  values index found listed := by
    rw [Side.getElem?_merge, Option.map_eq_some_iff] at listed
    obtain ⟨old, stored, rfl⟩ := listed
    have before := tracks.values index old stored
    split
    · rename_i answer readMask mask _ _ masked
      rw [Side.mergeEntry, lawful.value_withValue, tracks.masks index mask masked]
      exact adjusted_merge before
    · exact before
  paired index found asked listed requested := by
    rw [Side.getElem?_merge, Option.map_eq_some_iff] at listed
    obtain ⟨old, stored, rfl⟩ := listed
    have before := tracks.paired index old asked stored requested
    split
    · exact stable _ _ _ before
    · exact before
  within := tracks.within
  untouched index beyond := tracks.untouched index (Side.length_merge ▸ beyond)

theorem channel_ioctl {call : List Message → Device → Device × Option (List Message)} {failure : SstioError}
    {batch : List Message} {side : Side Device Message} :
    (Stateful.leaves (Side.ioctl call failure batch) side).channel = side.channel := by
  rw [Stateful.leaves, EStateM.run, Side.ioctl]
  cases (call batch side.device).2 <;> rfl

/-- However a half of `write_batch` ends, it keeps what the merging keeps. -/
theorem channel_writeBatch {call : List Message → Device → Device × Option (List Message)}
    {readFailure writeFailure : SstioError} {limit : Nat} {side : Side Device Message}
    (property : Channel Message → Prop)
    (merges : ∀ channel answers, property channel → property { channel with
      writeInterfaces := Side.merge wire answers channel.rmwReadMasks channel.rmwWriteMasks
        channel.writeInterfaces })
    (holds : property side.channel) :
    property (Stateful.leaves (Side.writeBatch wire call readFailure writeFailure limit) side).channel := by
  let kept : Side Device Message → Prop := fun side => property side.channel
  have sends : ∀ (failure : SstioError) (batch : List Message) (side : Side Device Message), kept side →
      kept (Stateful.leaves (Side.ioctl call failure batch) side) := by
    intro failure batch side holds
    change property (Stateful.leaves _ side).channel
    rw [channel_ioctl]
    exact holds
  have reads : ∀ (batch : List Message) (side : Side Device Message), kept side →
      kept (Stateful.leaves (Side.readPass wire call readFailure batch) side) := by
    intro batch side holds
    apply Stateful.leaves_bind kept (sends readFailure batch side holds)
    intro answers middle _ holds
    exact merges middle.channel answers holds
  have writes : ∀ (batch : List Message) (side : Side Device Message), kept side →
      kept (Stateful.leaves (Side.writePass call writeFailure batch) side) := by
    intro batch side holds
    exact Stateful.leaves_bind kept (sends writeFailure batch side holds) fun _ _ _ holds => holds
  apply Stateful.leaves_bind kept (show kept (Stateful.leaves get side) from holds)
  intro _ before got holds
  obtain ⟨rfl, rfl⟩ := EStateM.Result.ok.inj got
  split
  · apply Stateful.leaves_bind kept (Objects.leaves_forM kept (fun batch _ => reads batch) holds)
    intro _ middle _ holds
    apply Stateful.leaves_bind kept (show kept (Stateful.leaves get middle) from holds)
    intro _ last got holds
    obtain ⟨rfl, rfl⟩ := EStateM.Result.ok.inj got
    exact Objects.leaves_forM kept (fun batch _ => writes batch) holds
  · exact holds

theorem tracks_writeBatch {call : List Message → Device → Device × Option (List Message)}
    {readFailure writeFailure : SstioError} {limit : Nat} {side : Side Device Message} (lawful : wire.Lawful)
    (stable : wire.Stable pairs) (tracks : side.channel.Tracks wire pairs totals) :
    (Stateful.leaves (Side.writeBatch wire call readFailure writeFailure limit) side).channel.Tracks
      wire pairs totals :=
  channel_writeBatch (Channel.Tracks wire pairs totals) (fun _ answers tracks => tracks.merge lawful stable answers)
    tracks

/-- The message that a half of `write_batch` sends for an interface is that of a single write where the
condition is met. -/
theorem writeBatch_once_iff {call : List Message → Device → Device × Option (List Message)}
    {asks : Message → Prop} {answer : Device → Message → Message}
    {readFailure writeFailure : SstioError} {limit : Nat} {before after : Side Device Message}
    {interface request : Message} {readMask : BitVec 32} (lawful : wire.Lawful)
    (answered : Answers call asks answer) (positive : 0 < limit)
    (asked : ∀ message ∈ before.channel.rmwInterfaces, asks message)
    (tracks : before.channel.Tracks wire pairs totals)
    (done : (Side.writeBatch wire call readFailure writeFailure limit).run before = .ok () after)
    (stored : before.channel.writeInterfaces[place]? = some interface)
    (requested : before.channel.rmwInterfaces[place]? = some request)
    (reading : before.channel.rmwReadMasks[place]? = some readMask) :
    after.sent[before.sent.length + before.channel.rmwInterfaces.length + place]? =
        some (wire.withValue interface (onceValue readMask (wire.result (answer before.device request))
          (totals place).value (totals place).mask)) ↔
      Fits limit place (wire.value interface) readMask ((totals place).mask.setWidth 32)
        (wire.result (answer before.device request))
        (before.channel.rmwInterfaces.map fun request => wire.result (answer before.device request)) := by
  have bound := (List.getElem?_eq_some_iff.mp stored).1
  obtain ⟨mask, writing⟩ : ∃ mask, before.channel.rmwWriteMasks[place]? = some mask :=
    ⟨_, List.getElem?_eq_getElem (tracks.writeMasks ▸ bound)⟩
  have mask_eq := tracks.masks place mask writing
  subst mask_eq
  obtain ⟨value, written, bits⟩ := Side.getElem?_mergeAll (answer before.device) lawful positive
    (Nat.le_refl before.channel.rmwInterfaces.length) stored reading writing
  have taken : ∀ bit, value.getLsbD bit = true ↔ (wire.value interface).getLsbD bit = true ∨
      (((totals place).mask.setWidth 32).getLsbD bit = false ∧ readMask.getLsbD bit = true ∧
        ∃ index other, (before.channel.rmwInterfaces.map fun request =>
            wire.result (answer before.device request))[index]? = some other ∧
          index % limit = place ∧ other.getLsbD bit = true) := by
    intro bit
    rw [bits bit]
    simp [List.getElem?_map]
  rw [Side.writeBatch_ok answered positive asked tracks.rmws done, List.getElem?_append_right (by simp),
    List.length_append, Nat.add_sub_cancel_left, ioctlStructsFromVector, written, Option.some.injEq,
    ← eq_onceValue_iff positive (tracks.within place) (tracks.values place interface stored)
      (by rw [List.getElem?_map, requested]; rfl) taken]
  constructor
  · intro same
    rw [← lawful.value_withValue interface value, same, lawful.value_withValue]
  · intro same
    rw [same]

end Channels

end Geopm
