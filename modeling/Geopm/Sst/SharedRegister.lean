import Geopm.Sst.Registers

namespace Geopm

namespace Sstio

/-! Two controls of one register. -/

/-- Outside the second field a batch leaves what the first single write does: what is stored for the second
control, or read at its place modulo the limit, has the readable bits of the first value and, outside the first
field, of the register. -/
def SharedFits (limit place : Nat) (stored adjusted : BitVec 32) (contents : List (BitVec 32))
    (register firstReadMask readMask : BitVec 32) (firstValue firstMask value mask : BitVec 32) : Prop :=
  ∀ bit < 32, value.getLsbD bit = false → mask.getLsbD bit = false →
    ((stored.getLsbD bit = true ∨ (adjusted.getLsbD bit = false ∧ readMask.getLsbD bit = true ∧
        ∃ (index : Nat) (other : BitVec 32), contents[index]? = some other ∧ index % limit = place ∧
          other.getLsbD bit = true)) ↔
      readMask.getLsbD bit = true ∧ (firstValue.getLsbD bit = true ∨
        (firstMask.getLsbD bit = false ∧ firstReadMask.getLsbD bit = true ∧ register.getLsbD bit = true)))

/-- The condition for two controls that are new, of a register that can be read whole and is the only one that
is read at the place of the second: the register has the first value already. -/
theorem sharedFits_new {limit place : Nat} {contents : List (BitVec 32)} {register : BitVec 32}
    {firstValue firstMask value mask : BitVec 32} (disjoint : firstMask &&& mask = 0)
    (firstInside : firstValue &&& ~~~firstMask = 0) (inside : value &&& ~~~mask = 0)
    (own : contents[place]? = some register) (first : place % limit = place)
    (alone : ∀ index other, contents[index]? = some other → index % limit = place → other = register) :
    SharedFits limit place 0 0 contents register (BitVec.allOnes 32) (BitVec.allOnes 32) firstValue firstMask
      value mask ↔ register &&& firstMask = firstValue := by
  have exists_iff : ∀ bit, (∃ (index : Nat) (other : BitVec 32), contents[index]? = some other ∧
      index % limit = place ∧ other.getLsbD bit = true) ↔ register.getLsbD bit = true := by
    intro bit
    constructor
    · rintro ⟨index, other, listed, same, set⟩
      rwa [alone index other listed same] at set
    · exact fun set => ⟨place, register, own, first, set⟩
  have firstBits := fun bit => congrArg (·.getLsbD bit) firstInside
  have bits := fun bit => congrArg (·.getLsbD bit) inside
  have apart := fun bit => congrArg (·.getLsbD bit) disjoint
  simp only [BitVec.getLsbD_and, BitVec.getLsbD_not] at firstBits bits apart
  constructor
  · intro fits
    apply BitVec.eq_of_getLsbD_eq
    intro bit inWord
    have fit := fits bit inWord
    rw [exists_iff bit] at fit
    have inField := firstBits bit
    have other := bits bit
    have differ := apart bit
    simp only [BitVec.getLsbD_and, BitVec.getLsbD_allOnes, inWord, decide_true, Bool.true_and] at fit inField other ⊢
    revert fit inField other differ
    cases register.getLsbD bit <;> cases firstMask.getLsbD bit <;> cases firstValue.getLsbD bit <;>
      cases mask.getLsbD bit <;> cases value.getLsbD bit <;> simp
  · intro same bit inWord noValue noMask
    rw [exists_iff bit]
    have inField := firstBits bit
    simp only [BitVec.getLsbD_allOnes, inWord, decide_true, Bool.true_and] at inField ⊢
    rw [← same, BitVec.getLsbD_and] at inField ⊢
    cases register.getLsbD bit <;> cases firstMask.getLsbD bit <;> simp

section Shared

variable {Device : Type} {driver : SstDriver Device} {before after : Sstio Device}

/-- Two controls of a register that no other has: their indices and places, and what is stored for the second. -/
structure Shared (sstio : Sstio Device) (cpuIndex : BitVec 32) (registerOffset : BitVec 16)
    (firstIdx secondIdx first second : Nat) (stored adjusted firstReadMask readMask : BitVec 32) : Prop where
  firstAdded : sstio.addedInterfaces[firstIdx]? = some (.mmio, first)
  secondAdded : sstio.addedInterfaces[secondIdx]? = some (.mmio, second)
  order : first < second
  firstStored : ∃ value, sstio.mmio.writeInterfaces[first]? =
    some ⟨1, cpuIndex, registerOffset.setWidth 32, value⟩
  secondStored : sstio.mmio.writeInterfaces[second]? = some ⟨1, cpuIndex, registerOffset.setWidth 32, stored⟩
  firstReading : sstio.mmio.rmwReadMasks[first]? = some firstReadMask
  reading : sstio.mmio.rmwReadMasks[second]? = some readMask
  writing : sstio.mmio.rmwWriteMasks[second]? = some adjusted
  alone : ∀ (place : Nat) (interface : MmioInterface), sstio.mmio.writeInterfaces[place]? = some interface →
    interface.address = (cpuIndex, registerOffset.setWidth 32) → place = first ∨ place = second

/-- The part of a round before the registers are written. -/
def adjustBoth (driver : SstDriver Device) (firstIdx secondIdx : Nat)
    (firstValue firstMask value mask : BitVec 64) : EStateM SstioError (Sstio Device) Unit := do
  adjust firstIdx firstValue firstMask
  adjust secondIdx value mask
  writeMbox driver

def writeBothOnce (driver : SstDriver Device) (cpuIndex : BitVec 32) (registerOffset : BitVec 16)
    (firstReadMask readMask : BitVec 32) (firstValue firstMask value mask : BitVec 64) :
    EStateM SstioError (Sstio Device) Unit := do
  writeMmioOnce driver cpuIndex registerOffset 0 firstReadMask firstValue firstMask
  writeMmioOnce driver cpuIndex registerOffset 0 readMask value mask

variable {cpuIndex : BitVec 32} {registerOffset : BitVec 16} {firstIdx secondIdx first second : Nat}
  {stored adjusted firstReadMask readMask : BitVec 32} {firstValue firstMask value mask : BitVec 64}
  {contents : Device → BitVec 32 × BitVec 32 → BitVec 32}

theorem writeBothOnce_contents (file : driver.MmioFile contents)
    (done : (writeBothOnce driver cpuIndex registerOffset firstReadMask readMask firstValue firstMask value
      mask).run before = .ok () after) :
    contents after.device (cpuIndex, registerOffset.setWidth 32) =
      onceValue readMask (onceValue firstReadMask
        (contents before.device (cpuIndex, registerOffset.setWidth 32)) firstValue firstMask) value mask := by
  obtain ⟨_, middle, one, other⟩ := Stateful.ok_of_bind done
  rw [writeMmioOnce_contents file other, writeMmioOnce_contents file one, Function.update_self,
    Function.update_self]

/-- The channel when the registers are written. -/
theorem adjustBoth_ok (shared : before.Shared cpuIndex registerOffset firstIdx secondIdx first second stored
      adjusted firstReadMask readMask)
    (done : (adjustBoth driver firstIdx secondIdx firstValue firstMask value mask).run before = .ok () after) :
    after.batchCommandLimit = before.batchCommandLimit ∧
      after.mmio = (before.mmio.adjust mmioWire first firstValue firstMask).adjust mmioWire second value mask := by
  obtain ⟨_, middle, one, later⟩ := Stateful.ok_of_bind done
  obtain ⟨_, last, other, mboxes⟩ := Stateful.ok_of_bind later
  obtain rfl := adjust_mmio shared.firstAdded one
  obtain rfl := adjust_mmio (by exact shared.secondAdded) other
  exact writeMbox_mmio mboxes

/-- The second interface when the registers are written. -/
theorem Shared.interface (shared : before.Shared cpuIndex registerOffset firstIdx secondIdx first second stored
      adjusted firstReadMask readMask)
    {channel : Channel MmioInterface} (channel_eq : channel = (before.mmio.adjust mmioWire first firstValue
      firstMask).adjust mmioWire second value mask) :
    channel.writeInterfaces[second]? = some ⟨1, cpuIndex, registerOffset.setWidth 32,
        (stored &&& (~~~mask).setWidth 32) ||| value.setWidth 32⟩ ∧
      channel.rmwReadMasks[second]? = some readMask ∧
      channel.rmwWriteMasks[second]? = some (adjusted ||| mask.setWidth 32) ∧
      ∀ (later : Nat) (other : MmioInterface), second < later → channel.writeInterfaces[later]? = some other →
        other.address ≠ (cpuIndex, registerOffset.setWidth 32) := by
  have differ : first ≠ second := Nat.ne_of_lt shared.order
  rw [channel_eq]
  simp only [Channel.adjust, List.getElem?_modify, if_pos, if_neg differ, shared.secondStored, shared.writing,
    Option.map_eq_map, Option.map_some]
  refine ⟨rfl, shared.reading, trivial, ?_⟩
  intro later other after listed sameAddress
  have old : before.mmio.writeInterfaces[later]? = some other := by
    simpa [Nat.ne_of_lt after, Nat.ne_of_lt (shared.order.trans after)] using listed
  rcases shared.alone later other old sameAddress with rfl | rfl
  · exact absurd after (Nat.not_lt.mpr (Nat.le_of_lt shared.order))
  · exact absurd after (Nat.lt_irrefl _)

/-- One bit of the register: what the batch leaves beside what the single writes leave. -/
theorem sharedBit_iff {old stored adjusted read firstRead firstValue firstMask value mask : Bool} {merged : Prop} :
    (((stored && !mask || value) = true ∨ ((adjusted || mask) = false ∧ read = true ∧ merged)) ↔
        (value = true ∨ (mask = false ∧
          (firstValue = true ∨ (firstMask = false ∧ old = true ∧ firstRead = true)) ∧ read = true))) ↔
      (value = false → mask = false → ((stored = true ∨ (adjusted = false ∧ read = true ∧ merged)) ↔
        read = true ∧ (firstValue = true ∨ (firstMask = false ∧ firstRead = true ∧ old = true)))) := by
  cases value <;> cases mask <;> simp
  cases read <;> cases old <;> simp

/-- A round leaves in a register of two controls what the single writes leave, if and only if what is stored and
read outside the second field is what the first single write leaves there. -/
theorem writeBatch_shared_iff (gets puts : BitVec 16 → BitVec 16 → Prop) (file : driver.MmioFile contents)
    (batchCommandLimit : Nat) (positive : 0 < batchCommandLimit) (device : Device) (calls : List (Call Device))
    (documented : ∀ call ∈ calls, call.Documented gets puts)
    (shared : (Transition.run (Sstio.afterCall driver) (new batchCommandLimit device) calls).Shared cpuIndex
      registerOffset firstIdx secondIdx first second stored adjusted firstReadMask readMask)
    (ready batched once : Sstio Device)
    (adjusts : (adjustBoth driver firstIdx secondIdx firstValue firstMask value mask).run
      (Transition.run (Sstio.afterCall driver) (new batchCommandLimit device) calls) = .ok () ready)
    (batch : (writeMmio driver).run ready = .ok () batched)
    (single : (writeBothOnce driver cpuIndex registerOffset firstReadMask readMask firstValue firstMask value
      mask).run ready = .ok () once) :
    contents batched.device (cpuIndex, registerOffset.setWidth 32) =
        contents once.device (cpuIndex, registerOffset.setWidth 32) ↔
      SharedFits ready.batchCommandLimit second stored adjusted
        (ready.mmio.rmwInterfaces.map fun request => contents ready.device request.address)
        (contents ready.device (cpuIndex, registerOffset.setWidth 32)) firstReadMask readMask
        (firstValue.setWidth 32) (firstMask.setWidth 32) (value.setWidth 32) (mask.setWidth 32) := by
  have begun : (Transition.run (Sstio.afterCall driver) _ calls).Ready _ _ :=
    (ready_new positive device).run documented
  obtain ⟨limit, channel⟩ := adjustBoth_ok shared adjusts
  obtain ⟨storedNow, reading, writing, last⟩ := shared.interface channel
  have formed : ready.mmio.Formed MmioPair := by
    rw [channel]
    exact (begun.mmio.adjust mmioPair_stable _ _).adjust mmioPair_stable _ _
  have half : (onMmio (Side.writeBatch mmioWire driver.mmio .batchMmioRead .batchMmioWrite
      ready.batchCommandLimit)).run ready = .ok () batched := batch
  obtain ⟨side, ran, rfl⟩ := Objects.within_ok.mp half
  have bits := Side.writeBatch_contents file mmioWire_lawful (fun _ _ => rfl) (fun _ _ => rfl)
    (limit ▸ begun.positive) formed (fun _ _ pair => ⟨pair.isWrite.1, pair.isWrite.2⟩) ran storedNow reading
    writing last
  rw [writeBothOnce_contents file single]
  have words : ∀ left right : BitVec 32, left = right ↔
      ∀ bit < 32, (left.getLsbD bit = true ↔ right.getLsbD bit = true) := by
    intro left right
    constructor
    · rintro rfl bit _
      rfl
    · exact fun same => BitVec.eq_of_getLsbD_eq fun bit inside => Bool.eq_iff_iff.mpr (same bit inside)
  rw [words, SharedFits]
  refine forall_congr' fun bit => forall_congr' fun inside => ?_
  have left := bits bit
  have wide : bit < 64 := by omega
  have sources : (∃ (index : Nat) (other : BitVec 32),
      (ready.mmio.rmwInterfaces.map fun request => contents ready.device request.address)[index]? = some other ∧
        index % ready.batchCommandLimit = second ∧ other.getLsbD bit = true) ↔
      ∃ index request, ready.mmio.rmwInterfaces[index]? = some request ∧
        index % ready.batchCommandLimit = second ∧ (contents ready.device request.address).getLsbD bit = true := by
    simp [List.getElem?_map]
  rw [← sources] at left
  simp only [MmioInterface.address, mmioWire, BitVec.getLsbD_or, BitVec.getLsbD_and, BitVec.getLsbD_not,
    BitVec.getLsbD_setWidth, inside, wide, decide_true, Bool.true_and] at left
  rw [getLsbD_onceValue_of_lt inside, getLsbD_onceValue_of_lt inside, left]
  simp only [BitVec.getLsbD_setWidth, inside, decide_true, Bool.true_and]
  exact sharedBit_iff

end Shared

section Simple

/-- Two fields of a register. -/
def addTwice : List (Call SstRegisters) := 
  [.addMmioWrite 0 0x10 0 (.allOnes 32), .addMmioWrite 0 0x10 0 (.allOnes 32)]

theorem shared_addTwice (registers : SstRegisters) :
    (Transition.run (afterCall simpleDriver) (new 2 registers) addTwice).Shared 0 0x10 0 1 0 1 0 0
      (.allOnes 32) (.allOnes 32) where
  firstAdded := rfl
  secondAdded := rfl
  order := by decide
  firstStored := ⟨0, rfl⟩
  secondStored := rfl
  firstReading := rfl
  reading := rfl
  writing := rfl
  alone place interface stored _ := by
    match place with
    | 0 => exact .inl rfl
    | 1 => exact .inr rfl
    | place + 2 => cases stored

/-- The register has the first value already. -/
theorem writeBatch_shared_unchanged : ∃ ready batched once,
    (adjustBoth simpleDriver 0 1 1 0xf 0x20 0xf0).run
      (Transition.run (afterCall simpleDriver) (new 2 ⟨fun _ => 0, fun _ _ => 1⟩) addTwice) = .ok () ready ∧
    (writeMmio simpleDriver).run ready = .ok () batched ∧
    (writeBothOnce simpleDriver 0 0x10 (.allOnes 32) (.allOnes 32) 1 0xf 0x20 0xf0).run ready = .ok () once ∧
    batched.device.mmio 0 0x10 = once.device.mmio 0 0x10 := by
  refine ⟨_, _, _, rfl, rfl, rfl, ?_⟩
  refine (writeBatch_shared_iff (fun _ _ => True) (fun _ _ => True) simpleDriver_mmioFile 2 (by decide) _ addTwice
    ?_ (shared_addTwice _) _ _ _ rfl rfl rfl).mpr ?_
  · intro call member
    simp only [addTwice, List.mem_cons, List.not_mem_nil, or_false] at member
    rcases member with rfl | rfl <;> trivial
  · refine (sharedFits_new (by decide) (by decide) (by decide) rfl rfl ?_).mpr (by decide)
    intro index other listed same
    match index with
    | 0 => exact absurd same (by decide)
    | 1 =>
        cases listed
        rfl
    | index + 2 => cases listed

/-- The value of the first field is lost. -/
theorem not_writeBatch_shared : ∃ ready batched once,
    (Transition.run (afterCall simpleDriver) (new 2 ⟨fun _ => 0, fun _ _ => 0⟩) addTwice).Shared 0 0x10 0 1 0 1
      0 0 (.allOnes 32) (.allOnes 32) ∧
    (0xf : BitVec 64) &&& 0xf0 = 0 ∧
    (adjustBoth simpleDriver 0 1 1 0xf 0x20 0xf0).run
      (Transition.run (afterCall simpleDriver) (new 2 ⟨fun _ => 0, fun _ _ => 0⟩) addTwice) = .ok () ready ∧
    (writeMmio simpleDriver).run ready = .ok () batched ∧
    (writeBothOnce simpleDriver 0 0x10 (.allOnes 32) (.allOnes 32) 1 0xf 0x20 0xf0).run ready = .ok () once ∧
    batched.device.mmio 0 0x10 = 0x20 ∧ once.device.mmio 0 0x10 = 0x21 := by
  refine ⟨_, _, _, shared_addTwice _, by decide, rfl, rfl, rfl, ?_, ?_⟩
  · decide +kernel
  · decide +kernel

end Simple

end Sstio

end Geopm
