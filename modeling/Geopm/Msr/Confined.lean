import Geopm.Msr.Formed
import Mathlib.Data.Set.Basic

namespace Geopm

open MaskedWrite (store select)

/-! Which bits of the registers a sequence of accesses may have changed. -/

/-- A bit of a register: CPU, offset and position. -/
abbrev Bit := Nat × Nat × Nat

/-- Some of the bits of one register. -/
structure Field where
  cpu : Nat
  offset : Nat
  mask : Word
deriving DecidableEq

def Field.bits (field : Field) : Set Bit :=
  {bit | bit.1 = field.cpu ∧ bit.2.1 = field.offset ∧ field.mask.getLsbD bit.2.2 = true}

/-- The bits that a write can change. -/
def writableBits (writable : Nat → Word) : Set Bit :=
  {bit | (writable bit.2.1).getLsbD bit.2.2 = true}

def Registers.bit (registers : Registers) (bit : Bit) : Bool :=
  (registers bit.1 bit.2.1).getLsbD bit.2.2

/-- The bits that are not as they were. -/
def difference (base registers : Registers) : Set Bit :=
  {bit | registers.bit bit ≠ base.bit bit}

theorem Field.mem_bits {field : Field} {bit : Bit} : bit ∈ field.bits ↔
    bit.1 = field.cpu ∧ bit.2.1 = field.offset ∧ field.mask.getLsbD bit.2.2 = true := Iff.rfl

theorem mem_writableBits {writable : Nat → Word} {bit : Bit} :
    bit ∈ writableBits writable ↔ (writable bit.2.1).getLsbD bit.2.2 = true := Iff.rfl

theorem mem_difference {base registers : Registers} {bit : Bit} :
    bit ∈ difference base registers ↔ registers.bit bit ≠ base.bit bit := Iff.rfl

section Difference

variable {writable : Nat → Word} {base registers : Registers} {cpu offset : Nat}
  {value mask : Word} {bit : Bit}

@[simp] theorem difference_self : difference base base = ∅ := by
  ext bit
  simp [mem_difference]

theorem eq_of_difference (same : difference base registers ⊆ ∅) : registers = base := by
  funext cpu offset
  apply BitVec.eq_of_getLsbD_eq
  intro position _
  by_contra different
  exact same (show (cpu, offset, position) ∈ difference base registers from different)

/-- What a masked write sets a bit to. -/
theorem bit_written (obeys : value &&& mask = value) :
    (bit ∈ (⟨cpu, offset, mask⟩ : Field).bits ∩ writableBits writable →
      (registers.set cpu offset (select (writable offset) (registers cpu offset)
        (store mask value (registers cpu offset)))).bit bit = value.getLsbD bit.2.2) ∧
    (bit ∉ (⟨cpu, offset, mask⟩ : Field).bits ∩ writableBits writable →
      (registers.set cpu offset (select (writable offset) (registers cpu offset)
        (store mask value (registers cpu offset)))).bit bit = registers.bit bit) := by
  obtain ⟨other, at', position⟩ := bit
  by_cases here : (other, at') = (cpu, offset)
  · obtain ⟨rfl, rfl⟩ := Prod.mk.inj here
    by_cases bound : position < 64
    · have under := congrArg (·.getLsbD position) obeys
      simp only [BitVec.getLsbD_and] at under
      simp only [Registers.bit, Registers.set_self, MaskedWrite.getLsbD_select bound,
        MaskedWrite.getLsbD_store bound, Set.mem_inter_iff, Field.mem_bits, mem_writableBits,
        true_and]
      revert under
      cases (writable at').getLsbD position <;> cases mask.getLsbD position <;>
        cases value.getLsbD position <;> simp
    · have beyond : ∀ word : Word, word.getLsbD position = false := fun word =>
        BitVec.getLsbD_of_ge word position (by omega)
      simp [Registers.bit, beyond]
  · have outside : (other, at', position) ∉ (⟨cpu, offset, mask⟩ : Field).bits := by
      rintro ⟨same, sameOffset, _⟩
      exact here (Prod.ext same sameOffset)
    refine ⟨fun member => absurd member.1 outside, fun _ => ?_⟩
    simp only [Registers.bit, Registers.set_other here]

theorem difference_written (obeys : value &&& mask = value) :
    difference base (registers.set cpu offset (select (writable offset) (registers cpu offset)
      (store mask value (registers cpu offset)))) ⊆
      difference base registers ∪ (⟨cpu, offset, mask⟩ : Field).bits ∩ writableBits writable := by
  intro bit changed
  by_cases inside : bit ∈ (⟨cpu, offset, mask⟩ : Field).bits ∩ writableBits writable
  · exact .inr inside
  · left
    rwa [mem_difference, (bit_written obeys).2 inside] at changed

/-- A field that is written as it was does not differ any more. -/
theorem difference_restored (within : difference base registers ⊆ writableBits writable) :
    difference base (registers.set cpu offset (select (writable offset) (registers cpu offset)
      (store mask (base cpu offset &&& mask) (registers cpu offset)))) ⊆
      difference base registers \ (⟨cpu, offset, mask⟩ : Field).bits := by
  intro bit changed
  have obeys : base cpu offset &&& mask &&& mask = base cpu offset &&& mask := by
    rw [BitVec.and_assoc, BitVec.and_self]
  by_cases inside : bit ∈ (⟨cpu, offset, mask⟩ : Field).bits ∩ writableBits writable
  · rw [mem_difference, (bit_written obeys).1 inside] at changed
    obtain ⟨⟨sameCpu, sameOffset, under⟩, _⟩ := inside
    refine absurd ?_ changed
    rw [BitVec.getLsbD_and, under, Bool.and_true, Registers.bit, sameCpu, sameOffset]
  · rw [mem_difference, (bit_written obeys).2 inside] at changed
    exact ⟨changed, fun member => inside ⟨member, within changed⟩⟩

end Difference

/-- Both direct accesses to the register succeed. -/
structure Driver.Accessible (driver : Driver) (cpu offset : Nat) : Prop where
  pread : ∀ registers, (driver.pread registers cpu offset).isSome = true
  pwrite : ∀ registers value, (driver.pwrite registers cpu offset value).isSome = true

/-- Whether a register can be accessed does not change, and a batch succeeds on
registers that can be accessed. The mask of a register is read on the first CPU. -/
structure Driver.Steady (driver : Driver) : Prop where
  pread : ∀ {registers cpu offset}, (driver.pread registers cpu offset).isSome = true →
    ∀ other, (driver.pread other cpu offset).isSome = true
  pwrite : ∀ {registers cpu offset value},
    (driver.pwrite registers cpu offset value).isSome = true →
    ∀ other value', (driver.pwrite other cpu offset value').isSome = true
  ioctl : ∀ registers ops,
    (∀ op ∈ ops, ∃ cpu, driver.Accessible cpu op.msr ∧ (op.cpu = cpu ∨ op.cpu = 0)) →
    ∃ next done, driver.ioctl registers ops = some (next, done) ∧ ∀ op ∈ done, op.err = 0

/-- At no time a bit differed that is not among the given ones. -/
def Machine.Stays (machine : Machine) (base : Registers) (bits : Set Bit) : Prop :=
  ∀ contents ∈ machine.registers :: machine.past, difference base contents ⊆ bits

def WriteSlot.field (slot : WriteSlot) : Field := ⟨slot.op.cpu, slot.op.msr, slot.mask⟩

theorem Machine.Stays.changed {machine : Machine} {base registers : Registers} {bits : Set Bit}
    (stays : machine.Stays base bits) (within : difference base registers ⊆ bits) :
    (machine.changed registers).Stays base bits := by
  intro contents member
  rcases List.mem_cons.mp member with rfl | old
  · exact within
  · exact stays contents old

/-- A batch changes bits under the masks of its slots. -/
theorem difference_settled {writable : Nat → Word} {slots : List WriteSlot}
    {base before after : Registers} (settled : Settled writable slots before after)
    (obeys : ∀ slot ∈ slots, slot.val &&& slot.mask = slot.val) {bits : Set Bit}
    (within : difference base before ⊆ bits)
    (inside : ∀ slot ∈ slots, slot.field.bits ∩ writableBits writable ⊆ bits) :
    difference base after ⊆ bits := by
  intro bit changed
  by_cases member : (bit.1, bit.2.1) ∈ slots.map WriteSlot.address
  · obtain ⟨slot, present, same⟩ := List.mem_map.mp member
    obtain ⟨sameCpu, sameOffset⟩ := Prod.mk.inj same
    by_cases under : bit ∈ slot.field.bits ∩ writableBits writable
    · exact inside slot present under
    · have kept := (@bit_written writable before _ _ _ _ bit (obeys slot present)).2 under
      apply within
      rw [mem_difference] at changed ⊢
      rw [← kept]
      have equal := settled.inside slot present
      simp only [WriteSlot.pending] at equal
      simpa only [Registers.bit, ← sameCpu, ← sameOffset, Registers.set_self, equal] using changed
  · apply within
    rw [mem_difference] at changed ⊢
    rwa [Registers.bit, settled.outside bit.1 bit.2.1 member] at changed

namespace Msrio

variable {driver : Driver} {writable : Nat → Word} {machine after : Machine} {base : Registers}
  {bits : Set Bit} {cpu offset : Nat} {rawValue writeMask : Word}

theorem writeMsr_stays (documented : driver.Documented writable) (stays : machine.Stays base bits)
    (inside : (⟨cpu, offset, writeMask⟩ : Field).bits ∩ writableBits writable ⊆ bits) :
    (Stateful.leaves (writeMsr driver cpu offset rawValue writeMask) machine).Stays base bits ∧
      (Stateful.leaves (writeMsr driver cpu offset rawValue writeMask) machine).msrio =
        machine.msrio := by
  cases ran : (writeMsr driver cpu offset rawValue writeMask).run machine with
  | ok value after =>
      rw [Stateful.leaves_of_ok ran]
      obtain ⟨obeys, rfl⟩ := writeMsr_ok documented ran
      refine ⟨stays.changed ((difference_written obeys).trans ?_), rfl⟩
      exact Set.union_subset (stays _ (by simp)) inside
  | error reason after =>
      rw [Stateful.leaves_of_error ran, writeMsr_thrown_state ran]
      exact ⟨stays, rfl⟩

theorem writeEach_stays {slots : List WriteSlot} (documented : driver.Documented writable)
    (stays : machine.Stays base bits)
    (inside : ∀ slot ∈ slots, slot.field.bits ∩ writableBits writable ⊆ bits) :
    (Stateful.leaves (writeEach driver slots) machine).Stays base bits ∧
      (Stateful.leaves (writeEach driver slots) machine).msrio = machine.msrio := by
  induction slots generalizing machine with
  | nil => exact ⟨stays, rfl⟩
  | cons slot rest ih =>
      have first := @writeMsr_stays _ _ _ _ _ _ _ slot.val _ documented stays (inside slot (by simp))
      refine Stateful.leaves_bind (fun state : Machine =>
        state.Stays base bits ∧ state.msrio = machine.msrio) first fun _ middle ran kept => ?_
      obtain ⟨last, same⟩ := ih kept.1 fun other member =>
        inside other (List.mem_cons_of_mem slot member)
      exact ⟨last, same.trans kept.2⟩

theorem msrIoctl_exists (steady : driver.Steady)
    (accessible : ∀ slot ∈ machine.msrio.writeBatchOp,
      driver.Accessible slot.op.cpu slot.op.msr) :
    ∃ after, (msrIoctl driver).run machine = .ok () after := by
  obtain ⟨next, done, called, succeeded⟩ := steady.ioctl machine.registers
    (machine.msrio.writeBatchOp.map (·.op)) (by
      intro op member
      obtain ⟨slot, present, rfl⟩ := List.mem_map.mp member
      exact ⟨_, accessible slot present, .inl rfl⟩)
  have failed : done.find? (·.err ≠ 0) = none := by
    simpa [List.find?_eq_none] using succeeded
  simp only [msrIoctl, EStateM.run_bind, EStateM.run_get, called, EStateM.run_set, failed,
    EStateM.run_pure]
  exact ⟨_, rfl⟩

theorem msrIoctlWrite_exists (documented : driver.Documented writable) (steady : driver.Steady)
    (reading : ∀ slot ∈ machine.msrio.writeBatchOp, slot.op.isrdmsr = true)
    (accessible : ∀ slot ∈ machine.msrio.writeBatchOp,
      driver.Accessible slot.op.cpu slot.op.msr) :
    ∃ after, (msrIoctlWrite driver).run machine = .ok () after := by
  obtain ⟨first, read⟩ := msrIoctl_exists steady accessible
  have readOps : ∀ op ∈ machine.msrio.writeBatchOp.map (·.op), op.isrdmsr = true := by
    simpa using reading
  have fetched := msrIoctl_ok documented read
  rw [executeAll_read readOps] at fetched
  simp only [List.map_map, List.zipWith_map_right, List.zipWith_self] at fetched
  have prepared : ∀ slot ∈ (first.mapBatch WriteSlot.prepare).msrio.writeBatchOp,
      driver.Accessible slot.op.cpu slot.op.msr := by
    rw [fetched]
    intro slot member
    simp only [Machine.mapBatch, List.map_map, List.mem_map] at member
    obtain ⟨old, present, rfl⟩ := member
    exact accessible old present
  obtain ⟨second, written⟩ := msrIoctl_exists steady prepared
  simp only [msrIoctlWrite, EStateM.run_bind, read, EStateM.run_modify, written]
  exact ⟨_, rfl⟩

theorem systemWriteMask_exists (documented : driver.Documented writable) (steady : driver.Steady)
    (bound : offset < 2 ^ 32) (accessible : driver.Accessible cpu offset) :
    ∃ value after, (systemWriteMask driver offset).run machine = .ok value after := by
  by_cases batched : machine.msrio.isBatchEnabled = true
  · cases known : machine.msrio.offsetMaskMap offset with
    | some mask =>
        simp only [systemWriteMask, EStateM.run_bind, EStateM.run_get, batched, known]
        exact ⟨_, _, rfl⟩
    | none =>
        obtain ⟨next, done, called, succeeded⟩ := steady.ioctl machine.registers [maskOp offset] (by
          intro op member
          rw [List.mem_singleton.mp member]
          exact ⟨cpu, by rwa [maskOp, Nat.mod_eq_of_lt bound], .inr rfl⟩)
        have read := documented.ioctl_eq called succeeded
        rw [executeAll_read (by simp [maskOp]), Prod.mk.injEq] at read
        obtain ⟨rfl, rfl⟩ := read
        simp [systemWriteMask, batched, known, called]
  · simp [systemWriteMask, batched]

theorem addWrite_exists (documented : driver.Documented writable) (steady : driver.Steady)
    (bound : offset < 2 ^ 32) (accessible : driver.Accessible cpu offset)
    (inside : cpu < machine.msrio.numCpu) :
    ∃ index after, (addWrite driver cpu offset).run machine = .ok index after := by
  have within : ¬ machine.msrio.numCpu ≤ cpu := by omega
  cases known : machine.msrio.writeBatchIdxMap cpu offset with
  | some index => exact ⟨index, machine, by simp [addWrite, known, within]⟩
  | none =>
      obtain ⟨value, middle, masked⟩ :=
        @systemWriteMask_exists _ _ machine _ _ documented steady bound accessible
      simp [addWrite, within, known, masked]

end Msrio

/-- The batch stays within what is pending, and the registers within what was written. -/
structure Machine.Confined (machine : Machine) (driver : Driver) (writable : Nat → Word)
    (base : Registers) (written pending : Set Bit) : Prop where
  formed : machine.Formed writable
  stays : machine.Stays base (written ∩ writableBits writable)
  pending : ∀ slot ∈ machine.msrio.writeBatchOp, slot.field.bits ⊆ pending
  accessible : ∀ address ∈ machine.addresses, driver.Accessible address.1 address.2

namespace Machine.Confined

variable {driver : Driver} {writable : Nat → Word} {machine after : Machine} {base : Registers}
  {written pending : Set Bit} {cpu offset : Nat} {rawValue writeMask : Word}

theorem mono {more others : Set Bit} (confined : machine.Confined driver writable base written pending)
    (wider : written ⊆ more) (longer : pending ⊆ others) :
    machine.Confined driver writable base more others where
  formed := confined.formed
  stays contents member :=
    (confined.stays contents member).trans (Set.inter_subset_inter_left _ wider)
  pending slot member := (confined.pending slot member).trans longer
  accessible := confined.accessible

theorem of_msrio (confined : machine.Confined driver writable base written pending)
    (same : after.msrio = machine.msrio)
    (stays : after.Stays base (written ∩ writableBits writable)) :
    after.Confined driver writable base written pending where
  formed := by
    obtain ⟨distinct, index, ready, cached⟩ := confined.formed
    refine ⟨?_, ?_, ?_, ?_⟩ <;> simpa only [Machine.addresses, same]
  stays
  pending := same ▸ confined.pending
  accessible := by
    simpa only [Machine.addresses, same] using confined.accessible

theorem writeMsr (confined : machine.Confined driver writable base written pending)
    (documented : driver.Documented writable)
    (inside : (⟨cpu, offset, writeMask⟩ : Field).bits ⊆ written) :
    (Stateful.leaves (Msrio.writeMsr driver cpu offset rawValue writeMask) machine).Confined driver
        writable base written pending ∧
      (Stateful.leaves (Msrio.writeMsr driver cpu offset rawValue writeMask) machine).msrio =
        machine.msrio := by
  obtain ⟨stays, same⟩ := @Msrio.writeMsr_stays _ _ _ _ _ _ _ rawValue _ documented confined.stays
    (Set.inter_subset_inter_left _ inside)
  exact ⟨confined.of_msrio same stays, same⟩

/-- A field is written back. -/
theorem restoreMsr (confined : machine.Confined driver writable base written pending)
    (documented : driver.Documented writable)
    (done : (Msrio.writeMsr driver cpu offset (base cpu offset &&& writeMask) writeMask).run machine =
      .ok () after) :
    after.Confined driver writable base written pending ∧ after.msrio = machine.msrio ∧
      difference base after.registers ⊆
        difference base machine.registers \ (⟨cpu, offset, writeMask⟩ : Field).bits := by
  obtain ⟨_, rfl⟩ := Msrio.writeMsr_ok documented done
  have now : difference base machine.registers ⊆ written ∩ writableBits writable :=
    confined.stays _ (by simp)
  have shrinks := @difference_restored _ _ _ cpu offset writeMask (now.trans Set.inter_subset_right)
  have within := (shrinks.trans Set.sdiff_subset).trans now
  exact ⟨confined.of_msrio rfl (confined.stays.changed within), rfl, shrinks⟩

theorem addWrite {index : Nat} (confined : machine.Confined driver writable base written pending)
    (documented : driver.Documented writable) (small : cpu < 2 ^ 16) (bound : offset < 2 ^ 32)
    (accessible : driver.Accessible cpu offset)
    (done : (Msrio.addWrite driver cpu offset).run machine = .ok index after) :
    after.Confined driver writable base written pending := by
  obtain ⟨formed, added⟩ := confined.formed.addWrite documented small bound done
  obtain ⟨new, slots, empty⟩ := added.slots
  refine ⟨formed, ?_, ?_, ?_⟩
  · intro contents member
    rcases List.mem_cons.mp member with rfl | old
    · rw [added.registers]
      exact confined.stays _ (by simp)
    · rcases added.past contents old with before | rfl
      · exact confined.stays contents (List.mem_cons_of_mem _ before)
      · exact confined.stays _ (by simp)
  · intro slot member
    rw [slots] at member
    rcases List.mem_append.mp member with old | fresh
    · exact confined.pending slot old
    · obtain ⟨_, _, _, mask⟩ := empty slot fresh
      rintro bit ⟨_, _, under⟩
      simp [WriteSlot.field, mask] at under
  · intro address member
    rw [added.addresses] at member
    split at member
    · exact confined.accessible address member
    · rcases List.mem_append.mp member with old | fresh
      · exact confined.accessible address old
      · rw [List.mem_singleton.mp fresh]
        exact accessible

/-- An adjustment of a register that is pending. -/
theorem adjust {batchIdx : Int} (confined : machine.Confined driver writable base written pending)
    (target : machine.addresses[batchIdx.toNat]? = some (cpu, offset))
    (inside : (⟨cpu, offset, writeMask⟩ : Field).bits ⊆ pending) :
    (Stateful.leaves (Msrio.adjust batchIdx rawValue writeMask) machine).Confined driver writable
        base written pending ∧
      (Stateful.leaves (Msrio.adjust batchIdx rawValue writeMask) machine).addresses =
        machine.addresses ∧
      (Stateful.leaves (Msrio.adjust batchIdx rawValue writeMask) machine).msrio.numCpu =
        machine.msrio.numCpu := by
  cases ran : (Msrio.adjust batchIdx rawValue writeMask).run machine with
  | error reason after =>
      rw [Stateful.leaves_of_error ran, Msrio.adjust_thrown_state ran]
      exact ⟨confined, rfl, rfl⟩
  | ok _ after =>
      rw [Stateful.leaves_of_ok ran]
      obtain ⟨formed, addresses⟩ := confined.formed.adjust ran
      obtain ⟨_, _, slot, found, _, rfl⟩ := Msrio.adjust_ok ran
      refine ⟨⟨formed, confined.stays, ?_, ?_⟩, addresses, rfl⟩
      · intro other changed
        obtain ⟨_, _, old⟩ | ⟨old, there, rfl⟩ := Table.mem_modify changed
        · exact confined.pending other (List.mem_of_getElem? old)
        · have named : old.address = (cpu, offset) := by
            rw [Machine.addresses, List.getElem?_map, there] at target
            exact Option.some.inj target
          obtain ⟨rfl, rfl⟩ := Prod.mk.inj named
          rintro bit ⟨sameCpu, sameOffset, under⟩
          have either : old.mask.getLsbD bit.2.2 = true ∨ writeMask.getLsbD bit.2.2 = true := by
            simpa [WriteSlot.field, Msrio.WriteSlot.adjust] using under
          rcases either with before | new
          · exact confined.pending old (List.mem_of_getElem? there) ⟨sameCpu, sameOffset, before⟩
          · exact inside ⟨sameCpu, sameOffset, new⟩
      · rw [addresses]
        exact confined.accessible

theorem writeBatch (confined : machine.Confined driver writable base written pending)
    (documented : driver.Documented writable) (steady : driver.Steady)
    (inside : pending ⊆ written) :
    (Stateful.leaves (Msrio.writeBatch driver) machine).Confined driver writable base written
        pending ∧
      (Stateful.leaves (Msrio.writeBatch driver) machine).addresses = machine.addresses ∧
      (Stateful.leaves (Msrio.writeBatch driver) machine).msrio.numCpu = machine.msrio.numCpu := by
  have settling : ∀ slot ∈ machine.msrio.writeBatchOp,
      slot.field.bits ∩ writableBits writable ⊆ written ∩ writableBits writable :=
    fun slot member =>
      Set.inter_subset_inter_left _ ((confined.pending slot member).trans inside)
  have ready := confined.formed.ready
  have cleared : ∀ {after : Machine}, (Msrio.writeBatch driver).run machine = .ok () after →
      (∀ contents ∈ after.past, difference base contents ⊆ written ∩ writableBits writable) →
      after.Confined driver writable base written pending ∧ after.addresses = machine.addresses ∧
        after.msrio.numCpu = machine.msrio.numCpu := by
    intro after done past
    obtain ⟨formed, addresses, numCpu, settled, empty⟩ :=
      confined.formed.writeBatch documented done
    refine ⟨⟨formed, ?_, ?_, addresses ▸ confined.accessible⟩, addresses, numCpu⟩
    · intro contents member
      rcases List.mem_cons.mp member with rfl | old
      · exact difference_settled settled (fun slot present => (ready slot present).obeys)
          (confined.stays _ (by simp)) settling
      · exact past contents old
    · rintro slot member bit ⟨_, _, under⟩
      simp [WriteSlot.field, empty slot member] at under
  by_cases batched : machine.msrio.isBatchEnabled = true
  · obtain ⟨after, ran⟩ := Msrio.msrIoctlWrite_exists documented steady
      (fun slot member => (ready slot member).reading)
      fun slot member => confined.accessible slot.address (List.mem_map_of_mem member)
    obtain ⟨_, past, _⟩ := Msrio.msrIoctlWrite_ok documented
      (fun slot member => (ready slot member).reading) confined.formed.distinct ran
    have done : (Msrio.writeBatch driver).run machine =
        .ok () (after.mapBatch Msrio.WriteSlot.clear) := by
      simp only [Msrio.writeBatch, EStateM.run_bind, Msrio.writeAdjusted_eq, batched, if_true, ran,
        EStateM.run_modify]
    rw [Stateful.leaves_of_ok done]
    refine cleared done fun contents member => ?_
    rw [Machine.mapBatch, past] at member
    rcases List.mem_cons.mp member with rfl | again
    · exact confined.stays _ (by simp)
    · exact confined.stays contents again
  · obtain ⟨stays, same⟩ := Msrio.writeEach_stays documented confined.stays settling
    cases ran : (Msrio.writeEach driver machine.msrio.writeBatchOp).run machine with
    | error reason after =>
        have thrown : (Msrio.writeBatch driver).run machine = .error reason after := by
          simp only [Msrio.writeBatch, EStateM.run_bind, Msrio.writeAdjusted_eq, batched, ran]
          rfl
        rw [Stateful.leaves_of_error ran] at stays same
        rw [Stateful.leaves_of_error thrown]
        refine ⟨confined.of_msrio same stays, ?_, ?_⟩
        · rw [Machine.addresses, same, Machine.addresses]
        · rw [same]
    | ok _ after =>
        have done : (Msrio.writeBatch driver).run machine =
            .ok () (after.mapBatch Msrio.WriteSlot.clear) := by
          simp only [Msrio.writeBatch, EStateM.run_bind, Msrio.writeAdjusted_eq, batched, ran]
          rfl
        rw [Stateful.leaves_of_ok ran] at stays
        rw [Stateful.leaves_of_ok done]
        exact cleared done fun contents member => stays contents (List.mem_cons_of_mem _ member)

end Machine.Confined

end Geopm
