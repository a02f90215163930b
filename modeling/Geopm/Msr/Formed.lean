import Geopm.Library.Table
import Geopm.Msr.Access

namespace Geopm

/-! The batch of a machine: one slot for each register, found by its index. -/

namespace Machine

/-- The registers of the batch, in the order of their indices. -/
def addresses (machine : Machine) : List (Nat × Nat) :=
  machine.msrio.writeBatchOp.map WriteSlot.address

structure Formed (machine : Machine) (writable : Nat → Word) : Prop where
  distinct : machine.addresses.Nodup
  index : ∀ cpu offset index, machine.msrio.writeBatchIdxMap cpu offset = some index ↔
    machine.addresses[index]? = some (cpu, offset)
  ready : ∀ slot ∈ machine.msrio.writeBatchOp, slot.Ready machine.msrio writable
  cached : machine.msrio.Cached writable

/-- The part of it that does not depend on the contents of the slots. -/
structure Indexed (machine : Machine) (writable : Nat → Word) : Prop where
  distinct : machine.addresses.Nodup
  index : ∀ cpu offset index, machine.msrio.writeBatchIdxMap cpu offset = some index ↔
    machine.addresses[index]? = some (cpu, offset)
  cached : machine.msrio.Cached writable

/-- A register has its slot, and nothing else was changed. -/
structure Added (machine after : Machine) (cpu offset index : Nat) : Prop where
  registers : after.registers = machine.registers
  past : ∀ contents ∈ after.past, contents ∈ machine.past ∨ contents = machine.registers
  numCpu : after.msrio.numCpu = machine.msrio.numCpu
  slots : ∃ new, after.msrio.writeBatchOp = machine.msrio.writeBatchOp ++ new ∧
    ∀ slot ∈ new, slot.address = (cpu, offset) ∧ slot.address ∉ machine.addresses ∧
      slot.val = 0 ∧ slot.mask = 0
  addresses : after.addresses = if (cpu, offset) ∈ machine.addresses then machine.addresses
    else machine.addresses ++ [(cpu, offset)]
  index : after.addresses[index]? = some (cpu, offset)

/-- The constructor, on a machine with the given registers. -/
def start (registers : Registers) (numCpu : Nat) (isBatchEnabled : Bool) : Machine where
  registers
  past := []
  msrio := .new numCpu isBatchEnabled

namespace Indexed

variable {driver : Driver} {writable : Nat → Word} {machine after : Machine} {cpu offset : Nat}

/-- Only the registers of the batch and its caches matter. -/
theorem of_eq (indexed : machine.Indexed writable) (addresses : after.addresses = machine.addresses)
    (map : after.msrio.writeBatchIdxMap = machine.msrio.writeBatchIdxMap)
    (masks : after.msrio.offsetMaskMap = machine.msrio.offsetMaskMap) : after.Indexed writable where
  distinct := addresses ▸ indexed.distinct
  index := by
    rw [addresses, map]
    exact indexed.index
  cached := by
    unfold Msrio.Cached
    rw [masks]
    exact indexed.cached

/-- A slot that was not there before is ready. -/
theorem addWrite {index : Nat} (indexed : machine.Indexed writable)
    (documented : driver.Documented writable) (small : cpu < 2 ^ 16) (bound : offset < 2 ^ 32)
    (done : (Msrio.addWrite driver cpu offset).run machine = .ok index after) :
    after.Indexed writable ∧ machine.Added after cpu offset index ∧
      after.msrio.isBatchEnabled = machine.msrio.isBatchEnabled ∧
      ∀ slot ∈ after.msrio.writeBatchOp, slot ∈ machine.msrio.writeBatchOp ∨
        slot.Ready after.msrio writable := by
  cases looked : machine.msrio.writeBatchIdxMap cpu offset with
  | some other =>
      obtain ⟨rfl, rfl⟩ := Msrio.addWrite_known looked done
      have found := (indexed.index cpu offset _).mp looked
      refine ⟨indexed, ⟨rfl, fun _ member => .inl member, rfl, ⟨[], by simp, by simp⟩, ?_, found⟩,
        rfl, fun _ member => .inl member⟩
      rw [if_pos (List.mem_of_getElem? found)]
  | none =>
      obtain ⟨same, inside, middle, refreshed, rfl⟩ :=
        Msrio.addWrite_new documented indexed.cached small bound looked done
      have fresh : (cpu, offset) ∉ machine.addresses := by
        intro member
        obtain ⟨position, found⟩ := List.mem_iff_getElem?.mp member
        simp [(indexed.index cpu offset position).mpr found] at looked
      have length : index = machine.addresses.length := by rw [same, addresses, List.length_map]
      have masks : middle.msrio.isBatchEnabled = machine.msrio.isBatchEnabled ∧
          middle.msrio.numCpu = machine.msrio.numCpu := by
        rw [refreshed.msrio]
        exact ⟨rfl, rfl⟩
      have extended : ∀ slot : WriteSlot, slot.address = (cpu, offset) →
          (machine.msrio.writeBatchOp ++ [slot]).map WriteSlot.address =
            machine.addresses ++ [(cpu, offset)] := by
        intro slot named
        rw [List.map_append, List.map_singleton, named]
        rfl
      refine ⟨⟨?_, ?_, refreshed.cached⟩, ⟨refreshed.registers, refreshed.past, masks.2,
        ⟨_, rfl, fun slot member => ?_⟩, ?_, ?_⟩, masks.1, fun slot member => ?_⟩
      · rw [addresses, extended _ rfl]
        exact List.nodup_append.mpr ⟨indexed.distinct, by simp, by
          rintro other member _ single rfl
          exact fresh (List.mem_singleton.mp single ▸ member)⟩
      · intro other at' position
        rw [addresses, extended _ rfl, Table.getElem?_concat_iff, length]
        by_cases here : (cpu, offset) = (other, at')
        · obtain ⟨rfl, rfl⟩ := Prod.mk.inj here
          have absent : machine.addresses[position]? ≠ some (cpu, offset) := fun found =>
            fresh (List.mem_of_getElem? found)
          simp [absent, eq_comm]
        · simp only [here, and_false, or_false, ← indexed.index]
          by_cases sameCpu : other = cpu
          · subst sameCpu
            have apart : at' ≠ offset := fun equal => here (by rw [equal])
            simp [apart]
          · simp [sameCpu]
      · rw [List.mem_singleton.mp member]
        exact ⟨rfl, fresh, rfl, rfl⟩
      · rw [if_neg fresh]
        exact extended _ rfl
      · rw [addresses, extended _ rfl, length]
        simp
      · rcases List.mem_append.mp member with old | new
        · exact .inl old
        · rw [List.mem_singleton.mp new]
          refine .inr ⟨rfl, ?_, masks.2 ▸ inside, by simp⟩
          rw [Msrio.systemMask, Msrio.systemMask, masks.1]

end Indexed

namespace Formed

variable {driver : Driver} {writable : Nat → Word} {machine after : Machine} {cpu offset : Nat}

theorem start (registers : Registers) (numCpu : Nat) (isBatchEnabled : Bool) :
    (Machine.start registers numCpu isBatchEnabled).Formed writable where
  distinct := List.nodup_nil
  index _ _ _ := by simp [Machine.start, Msrio.new, addresses]
  ready := by simp [Machine.start, Msrio.new]
  cached _ _ found := by simp [Machine.start, Msrio.new] at found

theorem indexed (formed : machine.Formed writable) : machine.Indexed writable :=
  ⟨formed.distinct, formed.index, formed.cached⟩

theorem addWrite {index : Nat} (formed : machine.Formed writable)
    (documented : driver.Documented writable) (small : cpu < 2 ^ 16) (bound : offset < 2 ^ 32)
    (done : (Msrio.addWrite driver cpu offset).run machine = .ok index after) :
    after.Formed writable ∧ machine.Added after cpu offset index := by
  obtain ⟨⟨distinct, located, cached⟩, added, mode, slots⟩ :=
    formed.indexed.addWrite documented small bound done
  refine ⟨⟨distinct, located, fun slot member => ?_, cached⟩, added⟩
  rcases slots slot member with old | ready
  · exact (formed.ready slot old).of_eq added.numCpu mode
  · exact ready

/-- An adjustment changes neither the registers nor the addresses of the slots. -/
theorem adjust {batchIdx : Int} {rawValue writeMask : Word} (formed : machine.Formed writable)
    (done : (Msrio.adjust batchIdx rawValue writeMask).run machine = .ok () after) :
    after.Formed writable ∧ after.addresses = machine.addresses := by
  obtain ⟨_, obeys, slot, found, _, rfl⟩ := Msrio.adjust_ok done
  have addresses : Machine.addresses { machine with
      msrio := { machine.msrio with
        writeBatchOp := machine.msrio.writeBatchOp.modify batchIdx.toNat
          (Msrio.WriteSlot.adjust rawValue writeMask) } } = machine.addresses :=
    Table.map_modify fun _ => rfl
  obtain ⟨distinct, located, cached⟩ := formed.indexed.of_eq addresses rfl rfl
  refine ⟨⟨distinct, located, fun other changed => ?_, cached⟩, addresses⟩
  obtain ⟨position, _, old⟩ | ⟨old, there, rfl⟩ := Table.mem_modify changed
  · exact (formed.ready other (List.mem_of_getElem? old)).of_eq rfl rfl
  · obtain ⟨reading, wmask, known, under⟩ := formed.ready old (List.mem_of_getElem? there)
    exact ⟨reading, wmask, known, MaskedWrite.store_obeys under obeys⟩

/-- The batch settles the registers and empties the slots. -/
theorem writeBatch (formed : machine.Formed writable) (documented : driver.Documented writable)
    (done : (Msrio.writeBatch driver).run machine = .ok () after) :
    after.Formed writable ∧ after.addresses = machine.addresses ∧
      after.msrio.numCpu = machine.msrio.numCpu ∧
      Settled writable machine.msrio.writeBatchOp machine.registers after.registers ∧
      ∀ slot ∈ after.msrio.writeBatchOp, slot.val = 0 ∧ slot.mask = 0 := by
  obtain ⟨settled, change, same, changed⟩ :=
    Msrio.writeBatch_ok documented formed.ready formed.distinct done
  have addresses : after.addresses = machine.addresses := by
    rw [Machine.addresses, same, Machine.addresses, List.map_map]
    exact List.map_congr_left fun slot member => (changed slot member).1
  obtain ⟨distinct, located, cached⟩ :=
    formed.indexed.of_eq addresses (by rw [same]) (by rw [same])
  refine ⟨⟨distinct, located, ?_, cached⟩, addresses, ?_, settled, ?_⟩
  · intro slot member
    rw [same] at member ⊢
    obtain ⟨old, before, rfl⟩ := List.mem_map.mp member
    exact (changed old before).2.1.of_eq rfl rfl
  · rw [same]
  · intro slot member
    rw [same] at member
    obtain ⟨old, before, rfl⟩ := List.mem_map.mp member
    exact (changed old before).2.2

end Formed

end Machine

end Geopm
