import Geopm.Library.Run
import Geopm.Msr.Batch

namespace Geopm

open MaskedWrite (store select)
open Stateful (leaves)

/-! Write batches after some that have failed.

`msr_ioctl_write` reads the registers and writes them in two system calls, with
the operations of one array turned from reads into writes in between. Every
call comes with the system calls that it meets, so that any of them may fail.
-/

/-- The fields of an operation that are results are `err`, `msrdata` and `wmask`. -/
structure BatchOp.Answered (writable : Nat → Word) (op answer : BatchOp) : Prop where
  cpu : answer.cpu = op.cpu
  msr : answer.msr = op.msr
  isrdmsr : answer.isrdmsr = op.isrdmsr
  wmask : answer.wmask = op.wmask ∨ answer.wmask = writable op.msr

/-- What a batch leaves of its operations, also where some of them have failed. -/
def Driver.Answers (driver : Driver) (writable : Nat → Word) : Prop :=
  ∀ {registers ops next done}, driver.ioctl registers ops = some (next, done) →
    List.Forall₂ (BatchOp.Answered writable) ops done

/-- A value and a mask that `adjust` has accepted for an index. -/
structure Adjustment where
  batchIdx : Nat
  rawValue : Word
  writeMask : Word
deriving DecidableEq

def Adjustment.apply (index : Nat) (word : Word) (adjustment : Adjustment) : Word :=
  if adjustment.batchIdx = index then store adjustment.writeMask adjustment.rawValue word else word

/-- The word with the adjusted bits of an index replaced. -/
def replaced (adjustments : List Adjustment) (index : Nat) (word : Word) : Word :=
  adjustments.foldl (Adjustment.apply index) word

/-- A machine, and the adjustments since a write batch has last returned. -/
structure Outstanding where
  machine : Machine
  adjustments : List Adjustment

namespace Outstanding

/-- A call of the object, whether it returns or throws, or a change of the
registers from elsewhere. Reads are left out, they change neither. -/
inductive Action where
  | addWrite (driver : Driver) (cpu offset : Nat)
  | adjust (batchIdx : Int) (rawValue writeMask : Word)
  | writeBatch (driver : Driver)
  | writeMsr (driver : Driver) (cpu offset : Nat) (rawValue writeMask : Word)
  | outside (registers : Registers)

def start (registers : Registers) (numCpu : Nat) : Outstanding :=
  ⟨Machine.start registers numCpu true, []⟩

def step (state : Outstanding) : Action → Outstanding
  | .addWrite driver cpu offset =>
      { state with machine := leaves (Msrio.addWrite driver cpu offset) state.machine }
  | .adjust batchIdx rawValue writeMask =>
      match (Msrio.adjust batchIdx rawValue writeMask).run state.machine with
      | .ok _ after =>
          ⟨after, state.adjustments ++ [⟨batchIdx.toNat, rawValue, writeMask⟩]⟩
      | .error _ after => { state with machine := after }
  | .writeBatch driver =>
      match (Msrio.writeBatch driver).run state.machine with
      | .ok _ after => ⟨after, []⟩
      | .error _ after => { state with machine := after }
  | .writeMsr driver cpu offset rawValue writeMask =>
      { state with
        machine := leaves (Msrio.writeMsr driver cpu offset rawValue writeMask) state.machine }
  | .outside registers => { state with machine := state.machine.changed registers }

/-- The kernel does what is documented, and the address of a register has 32 bits. -/
def Action.Proper (writable : Nat → Word) : Action → Prop
  | .addWrite driver _ offset => driver.Documented writable ∧ offset < 2 ^ 32
  | .writeBatch driver => driver.Documented writable ∧ driver.Answers writable
  | _ => True

/-- Each register of the batch has its adjusted bits replaced and no other was changed. -/
structure Lands (state : Outstanding) (after : Registers) : Prop where
  inside : ∀ index slot, state.machine.msrio.writeBatchOp[index]? = some slot →
    after slot.op.cpu slot.op.msr =
      replaced state.adjustments index (state.machine.registers slot.op.cpu slot.op.msr)
  outside : ∀ cpu offset, (cpu, offset) ∉ state.machine.addresses →
    after cpu offset = state.machine.registers cpu offset

end Outstanding

/-- The bits that a batch writes back as it has found them. -/
def WriteSlot.kept (writable : Nat → Word) (slot : WriteSlot) : Word :=
  writable slot.op.msr &&& ~~~slot.mask

/-- The slot will be read before it is written, or what it has read before is still so. -/
def WriteSlot.Current (writable : Nat → Word) (registers : Registers) (slot : WriteSlot) : Prop :=
  slot.op.isrdmsr = true ∨ slot.op.msrdata &&& slot.kept writable =
    registers slot.op.cpu slot.op.msr &&& slot.kept writable

instance (writable : Nat → Word) (registers : Registers) (slot : WriteSlot) :
    Decidable (slot.Current writable registers) := inferInstanceAs (Decidable (_ ∨ _))

/-- The word that a batch replaces bits of. -/
def WriteSlot.found (registers : Registers) (slot : WriteSlot) : Word :=
  if slot.op.isrdmsr then registers slot.op.cpu slot.op.msr else slot.op.msrdata

/-- A slot with other results of its operation. -/
structure WriteSlot.Rewritten (writable : Nat → Word) (slot other : WriteSlot) : Prop where
  address : other.address = slot.address
  wmask : other.op.wmask = slot.op.wmask ∨ other.op.wmask = writable slot.op.msr
  val : other.val = slot.val
  mask : other.mask = slot.mask

/-- A machine with other results in its batch. -/
structure Machine.Rewritten (writable : Nat → Word) (machine after : Machine) : Prop where
  slots : List.Forall₂ (WriteSlot.Rewritten writable) machine.msrio.writeBatchOp
    after.msrio.writeBatchOp
  msrio : after.msrio =
    { machine.msrio with writeBatchOp := after.msrio.writeBatchOp }

section Execute

variable {writable : Nat → Word} {registers other : Registers} {ops : List BatchOp} {op : BatchOp}

theorem BatchOp.execute_other {cpu offset : Nat} (apart : (cpu, offset) ≠ op.address) :
    (op.execute writable registers).1 cpu offset = registers cpu offset := by
  unfold BatchOp.execute
  split
  · rfl
  · exact Registers.set_other apart

theorem BatchOp.execute_address : (op.execute writable registers).2.address = op.address := by
  unfold BatchOp.execute
  split <;> rfl

theorem BatchOp.execute_answered (op : BatchOp) :
    op.Answered writable (op.execute writable registers).2 := by
  unfold BatchOp.execute
  split <;> exact ⟨rfl, rfl, rfl, .inr rfl⟩

/-- An operation depends on its own register only. -/
theorem BatchOp.execute_congr (same : registers op.cpu op.msr = other op.cpu op.msr) :
    (op.execute writable registers).2 = (op.execute writable other).2 ∧
      (op.execute writable registers).1 op.cpu op.msr =
        (op.execute writable other).1 op.cpu op.msr := by
  unfold BatchOp.execute
  split
  · exact ⟨by rw [same], same⟩
  · refine ⟨rfl, ?_⟩
    simp only [Registers.set_self, same]

/-- In a batch on different registers every operation is as if alone. -/
theorem executeAll_distinct (distinct : (ops.map BatchOp.address).Nodup) :
    (executeAll writable registers ops).2 =
        ops.map (fun op => (op.execute writable registers).2) ∧
      ∀ op ∈ ops, (executeAll writable registers ops).1 op.cpu op.msr =
        (op.execute writable registers).1 op.cpu op.msr := by
  induction ops generalizing registers with
  | nil => exact ⟨rfl, by simp⟩
  | cons first rest ih =>
      obtain ⟨fresh, others⟩ := List.nodup_cons.mp distinct
      obtain ⟨results, contents⟩ := @ih (first.execute writable registers).1 others
      have alone : ∀ op ∈ rest, (first.execute writable registers).1 op.cpu op.msr =
          registers op.cpu op.msr := fun op member =>
        BatchOp.execute_other fun same => fresh (same ▸ List.mem_map_of_mem member)
      constructor
      · refine congrArg _ (results.trans ?_)
        exact List.map_congr_left fun op member => (BatchOp.execute_congr (alone op member)).1
      · intro op member
        rcases List.mem_cons.mp member with rfl | later
        · exact executeAll_other rest fresh
        · exact (contents op later).trans (BatchOp.execute_congr (alone op later)).2

end Execute

theorem WriteSlot.Rewritten.refl {writable : Nat → Word} (slot : WriteSlot) :
    slot.Rewritten writable slot := ⟨rfl, .inl rfl, rfl, rfl⟩

theorem WriteSlot.Rewritten.trans {writable : Nat → Word} {first second third : WriteSlot}
    (before : first.Rewritten writable second) (after : second.Rewritten writable third) :
    first.Rewritten writable third where
  address := after.address.trans before.address
  wmask := by
    have msr : second.op.msr = first.op.msr := congrArg Prod.snd before.address
    rcases after.wmask with same | read
    · rw [same]
      exact before.wmask
    · exact .inr (msr ▸ read)
  val := after.val.trans before.val
  mask := after.mask.trans before.mask

namespace Machine.Rewritten

variable {writable : Nat → Word} {machine middle after : Machine} {driver : Driver}

theorem refl (machine : Machine) : machine.Rewritten writable machine :=
  ⟨List.forall₂_same.mpr fun slot _ => .refl slot, rfl⟩

theorem trans (first : machine.Rewritten writable middle) (second : middle.Rewritten writable after) :
    machine.Rewritten writable after where
  slots := Table.forall₂_trans (fun _ _ _ => WriteSlot.Rewritten.trans) first.slots second.slots
  msrio := by
    rw [second.msrio, first.msrio]

theorem mapBatch {change : WriteSlot → WriteSlot}
    (rewrites : ∀ slot, WriteSlot.Rewritten writable slot (change slot)) :
    machine.Rewritten writable (machine.mapBatch change) where
  slots := by
    rw [Machine.mapBatch, List.forall₂_map_right_iff]
    exact List.forall₂_same.mpr fun slot _ => rewrites slot
  msrio := rfl

theorem slots_of_answered {slots : List WriteSlot} {done : List BatchOp}
    (answered : List.Forall₂ (BatchOp.Answered writable) (slots.map (·.op)) done) :
    List.Forall₂ (WriteSlot.Rewritten writable) slots
      (slots.zipWith (fun slot op => { slot with op }) done) := by
  induction slots generalizing done with
  | nil => exact .nil
  | cons slot rest ih =>
      cases answered with
      | cons head others =>
          exact .cons ⟨Prod.ext head.cpu head.msr, head.wmask, rfl, rfl⟩ (ih others)

/-- Whether it returns or throws, a system call rewrites results at most. -/
theorem msrIoctl (answers : driver.Answers writable) :
    machine.Rewritten writable (leaves (Msrio.msrIoctl driver) machine) := by
  cases called : driver.ioctl machine.registers (machine.msrio.writeBatchOp.map (·.op)) with
  | none =>
      have thrown : (Msrio.msrIoctl driver).run machine = .error .ioctlFailed machine := by
        simp [Msrio.msrIoctl, called]
      rw [Stateful.leaves_of_error thrown]
      exact .refl machine
  | some result =>
      obtain ⟨registers, done⟩ := result
      have left : leaves (Msrio.msrIoctl driver) machine =
          { machine.changed registers with
            msrio := { machine.msrio with
              writeBatchOp :=
                machine.msrio.writeBatchOp.zipWith (fun slot op => { slot with op }) done } } := by
        cases failed : done.find? (·.err ≠ 0) <;>
          simp only [leaves, Msrio.msrIoctl, EStateM.run_bind, EStateM.run_get, called, EStateM.run_set,
            failed, Stateful.run_throw, EStateM.run_pure]
      rw [left]
      exact ⟨slots_of_answered (answers called), rfl⟩

theorem msrIoctlWrite (answers : driver.Answers writable) :
    machine.Rewritten writable (leaves (Msrio.msrIoctlWrite driver) machine) := by
  refine Stateful.leaves_bind (machine.Rewritten writable) (.msrIoctl answers)
    fun _ read _ reads => ?_
  have prepared : read.Rewritten writable (read.mapBatch Msrio.WriteSlot.prepare) :=
    .mapBatch fun slot => ⟨rfl, .inl rfl, rfl, rfl⟩
  refine Stateful.leaves_bind (machine.Rewritten writable) (reads.trans prepared)
    fun _ _ _ prepares => ?_
  refine Stateful.leaves_bind (machine.Rewritten writable) (prepares.trans (.msrIoctl answers))
    fun _ written _ writes => writes.trans ?_
  exact .mapBatch fun slot => ⟨rfl, .inl rfl, rfl, rfl⟩

theorem addresses (rewritten : machine.Rewritten writable after) :
    after.addresses = machine.addresses := by
  have same : List.Forall₂ (· = ·) machine.addresses after.addresses := by
    rw [Machine.addresses, Machine.addresses, List.forall₂_map_left_iff, List.forall₂_map_right_iff]
    exact rewritten.slots.imp fun _ _ slot => slot.address.symm
  rw [List.forall₂_eq_eq_eq] at same
  exact same.symm

end Machine.Rewritten

namespace Msrio

variable {driver : Driver} {writable : Nat → Word} {machine after : Machine} {reason : MsrError}

/-- The registers of a batch are written from what the first call has found or left. -/
theorem msrIoctlWrite_found (documented : driver.Documented writable)
    (distinct : machine.addresses.Nodup)
    (done : (msrIoctlWrite driver).run machine = .ok () after) :
    (∀ slot ∈ machine.msrio.writeBatchOp, after.registers slot.op.cpu slot.op.msr =
      select (writable slot.op.msr) (machine.registers slot.op.cpu slot.op.msr)
        (store slot.mask slot.val (slot.found machine.registers))) ∧
    ∀ cpu offset, (cpu, offset) ∉ machine.addresses →
      after.registers cpu offset = machine.registers cpu offset := by
  obtain ⟨_, first, read, rest⟩ := Stateful.ok_of_bind done
  obtain ⟨_, second, prepared, later⟩ := Stateful.ok_of_bind rest
  obtain ⟨_, third, written, last⟩ := Stateful.ok_of_bind later
  simp only [EStateM.run_modify, EStateM.Result.ok.injEq, true_and] at prepared last
  have same : (machine.msrio.writeBatchOp.map (·.op)).map BatchOp.address = machine.addresses := by
    rw [List.map_map]
    rfl
  obtain ⟨results, contents⟩ := @executeAll_distinct writable machine.registers _ (same ▸ distinct)
  have fetched := msrIoctl_ok documented read
  have stored := msrIoctl_ok documented written
  rw [results] at fetched
  subst fetched prepared
  simp only [Machine.mapBatch, Machine.changed, List.map_map, List.zipWith_map_right,
    List.zipWith_self, Function.comp_def] at stored
  set ops := machine.msrio.writeBatchOp.map fun slot => (WriteSlot.prepare
    { slot with op := (slot.op.execute writable machine.registers).2 }).op with named
  have writing : ∀ op ∈ ops, op.isrdmsr = false := by
    intro op member
    obtain ⟨slot, _, rfl⟩ := List.mem_map.mp member
    rfl
  have addresses : ops.map BatchOp.address = machine.addresses := by
    rw [named, List.map_map]
    exact List.map_congr_left fun slot _ => BatchOp.execute_address
  subst stored last
  refine ⟨fun slot member => ?_, fun cpu offset absent => ?_⟩
  · have here := contents slot.op (List.mem_map_of_mem member)
    have prepared : (WriteSlot.prepare
        { slot with op := (slot.op.execute writable machine.registers).2 }).op ∈ ops :=
      List.mem_map_of_mem member
    have written := @executeAll_write writable (executeAll writable machine.registers
      (machine.msrio.writeBatchOp.map (·.op))).1 ops writing (addresses ▸ distinct) _ prepared
    cases reading : slot.op.isrdmsr with
    | true =>
        simp only [BatchOp.execute, reading, if_true] at here written
        rw [WriteSlot.found, if_pos reading]
        exact here ▸ written
    | false =>
        simp only [BatchOp.execute, reading, Bool.false_eq_true, if_false, Registers.set_self] at here written
        rw [WriteSlot.found, reading, if_neg Bool.false_ne_true]
        refine Eq.trans written ?_
        rw [WriteSlot.prepare, here, MaskedWrite.select_select]
  · refine (executeAll_other ops (addresses ▸ absent)).trans ?_
    exact executeAll_other _ (same ▸ absent)

theorem systemWriteMask_thrown_msrio {offset : Nat}
    (thrown : (systemWriteMask driver offset).run machine = .error reason after) :
    after.msrio = machine.msrio := by
  by_cases batched : machine.msrio.isBatchEnabled = true
  · cases known : machine.msrio.offsetMaskMap offset with
    | some mask => simp [systemWriteMask, batched, known] at thrown
    | none =>
        cases called : driver.ioctl machine.registers [maskOp offset] with
        | none =>
            simp [systemWriteMask, batched, known, called] at thrown
            rw [← thrown.2]
        | some result =>
            obtain ⟨registers, ops⟩ := result
            rcases ops with _ | ⟨op, _ | ⟨other, rest⟩⟩
            · simp [systemWriteMask, batched, known, called] at thrown
              rw [← thrown.2]
            · by_cases failed : op.err = 0
              · simp [systemWriteMask, batched, known, called, failed] at thrown
              · simp [systemWriteMask, batched, known, called, failed] at thrown
                rw [← thrown.2, Machine.changed_msrio]
            · simp [systemWriteMask, batched, known, called] at thrown
              rw [← thrown.2]
  · simp [systemWriteMask, batched] at thrown

theorem addWrite_thrown_msrio {cpu offset : Nat}
    (thrown : (addWrite driver cpu offset).run machine = .error reason after) :
    after.msrio = machine.msrio := by
  by_cases beyond : machine.msrio.numCpu ≤ cpu
  · simp only [addWrite, EStateM.run_bind, EStateM.run_get, beyond, if_true, Stateful.run_throw,
      EStateM.Result.error.injEq] at thrown
    rw [← thrown.2]
  · cases known : machine.msrio.writeBatchIdxMap cpu offset with
    | some index => simp [addWrite, known, beyond] at thrown
    | none =>
        cases masked : (systemWriteMask driver offset).run machine with
        | ok mask middle => simp [addWrite, known, beyond, masked] at thrown
        | error other middle =>
            simp only [addWrite, known, EStateM.run_bind, EStateM.run_get, beyond, if_false, masked,
              EStateM.Result.error.injEq] at thrown
            rw [← thrown.2]
            exact systemWriteMask_thrown_msrio masked

theorem writeMsr_msrio {cpu offset : Nat} {rawValue writeMask : Word} :
    (leaves (writeMsr driver cpu offset rawValue writeMask) machine).msrio = machine.msrio := by
  cases ran : (writeMsr driver cpu offset rawValue writeMask).run machine with
  | error reason after => rw [Stateful.leaves_of_error ran, writeMsr_thrown_state ran]
  | ok value after =>
      rw [Stateful.leaves_of_ok ran]
      rw [writeMsr_eq] at ran
      split at ran
      · cases ran
      · cases read : (readMsr driver cpu offset).run machine with
        | error reason middle => simp [read] at ran
        | ok value middle =>
            cases written : driver.pwrite machine.registers cpu offset
                (store writeMask rawValue value) with
            | none => simp [read, written] at ran
            | some registers =>
                simp only [read, written, EStateM.Result.ok.injEq, true_and] at ran
                rw [← ran, Machine.changed_msrio]

theorem writeBatch_thrown_rewritten (answers : driver.Answers writable)
    (batched : machine.msrio.isBatchEnabled = true)
    (thrown : (writeBatch driver).run machine = .error reason after) :
    machine.Rewritten writable after := by
  rcases Stateful.error_of_bind thrown with failed | ⟨_, middle, _, last⟩
  · rw [writeAdjusted_eq, if_pos batched] at failed
    exact Stateful.leaves_of_error failed ▸ .msrIoctlWrite answers
  · simp at last

theorem writeBatch_cleared (answers : driver.Answers writable)
    (batched : machine.msrio.isBatchEnabled = true)
    (done : (writeBatch driver).run machine = .ok () after) :
    ∃ middle, (msrIoctlWrite driver).run machine = .ok () middle ∧
      machine.Rewritten writable middle ∧ after = middle.mapBatch WriteSlot.clear := by
  obtain ⟨_, middle, written, last⟩ := Stateful.ok_of_bind done
  rw [writeAdjusted_eq, if_pos batched] at written
  simp only [EStateM.run_modify, EStateM.Result.ok.injEq, true_and] at last
  exact ⟨middle, written, Stateful.leaves_of_ok written ▸ .msrIoctlWrite answers, last.symm⟩

end Msrio

/-- What a slot is for the adjustments of its index. -/
structure WriteSlot.Holds (writable : Nat → Word) (adjustments : List Adjustment) (index : Nat)
    (slot : WriteSlot) : Prop where
  wmask : slot.op.wmask = writable slot.op.msr
  within : ~~~writable slot.op.msr &&& slot.mask = 0
  obeys : slot.val &&& slot.mask = slot.val
  replaces : ∀ word, replaced adjustments index word = store slot.mask slot.val word

section Replaced

variable {adjustments : List Adjustment} {adjustment : Adjustment} {index : Nat} {word : Word}

theorem replaced_concat : replaced (adjustments ++ [adjustment]) index word =
    adjustment.apply index (replaced adjustments index word) := by
  rw [replaced, List.foldl_append]
  rfl

theorem replaced_other (others : ∀ adjustment ∈ adjustments, adjustment.batchIdx ≠ index) :
    replaced adjustments index word = word := by
  induction adjustments with
  | nil => rfl
  | cons first rest ih =>
      have apart := others first List.mem_cons_self
      rw [replaced, List.foldl_cons, Adjustment.apply, if_neg apart]
      exact ih fun adjustment member => others adjustment (List.mem_cons_of_mem first member)

end Replaced

theorem WriteSlot.Holds.of_empty {writable : Nat → Word} {adjustments : List Adjustment} {index : Nat}
    {slot : WriteSlot} (wmask : slot.op.wmask = writable slot.op.msr) (val : slot.val = 0)
    (mask : slot.mask = 0) (others : ∀ adjustment ∈ adjustments, adjustment.batchIdx ≠ index) :
    slot.Holds writable adjustments index where
  wmask := wmask
  within := by simp [mask]
  obeys := by simp [val]
  replaces word := by simp [replaced_other others, val, mask]

/-- An accepted adjustment is stored in the slot. -/
theorem WriteSlot.Holds.adjust {writable : Nat → Word} {adjustments : List Adjustment} {index : Nat}
    {slot : WriteSlot} {rawValue writeMask : Word} (holds : slot.Holds writable adjustments index)
    (inside : ~~~slot.op.wmask &&& writeMask = 0) (under : rawValue &&& writeMask = rawValue) :
    (Msrio.WriteSlot.adjust rawValue writeMask slot).Holds writable
      (adjustments ++ [⟨index, rawValue, writeMask⟩]) index where
  wmask := holds.wmask
  within := by
    rw [holds.wmask] at inside
    simp only [Msrio.WriteSlot.adjust, BitVec.and_or_distrib_left, holds.within, inside, BitVec.or_self]
  obeys := MaskedWrite.store_obeys holds.obeys under
  replaces word := by
    rw [replaced_concat, holds.replaces, Adjustment.apply, if_pos rfl]
    exact MaskedWrite.store_store

theorem WriteSlot.Holds.adjust_other {writable : Nat → Word} {adjustments : List Adjustment}
    {adjustment : Adjustment} {index : Nat} {slot : WriteSlot}
    (holds : slot.Holds writable adjustments index) (apart : adjustment.batchIdx ≠ index) :
    slot.Holds writable (adjustments ++ [adjustment]) index where
  wmask := holds.wmask
  within := holds.within
  obeys := holds.obeys
  replaces word := by
    rw [replaced_concat, Adjustment.apply, if_neg apart]
    exact holds.replaces word

namespace Outstanding

structure Sound (writable : Nat → Word) (state : Outstanding) : Prop where
  numCpu : state.machine.msrio.numCpu ≤ 2 ^ 16
  batched : state.machine.msrio.isBatchEnabled = true
  indexed : state.machine.Indexed writable
  holds : ∀ index (slot : WriteSlot), state.machine.msrio.writeBatchOp[index]? = some slot →
    slot.Holds writable state.adjustments index
  known : ∀ adjustment ∈ state.adjustments,
    adjustment.batchIdx < state.machine.msrio.writeBatchOp.length

namespace Sound

variable {driver : Driver} {writable : Nat → Word} {state : Outstanding} {machine : Machine}
  {reason : MsrError}

theorem start (registers : Registers) {numCpu : Nat} (small : numCpu ≤ 2 ^ 16) :
    (Outstanding.start registers numCpu).Sound writable where
  numCpu := small
  batched := rfl
  indexed := (Machine.Formed.start registers numCpu true).indexed
  holds index slot found := by simp [Outstanding.start, Machine.start, Msrio.new] at found
  known := by simp [Outstanding.start]

/-- Nothing of it depends on the registers. -/
theorem of_msrio (sound : state.Sound writable) (same : machine.msrio = state.machine.msrio) :
    Sound writable { state with machine } where
  numCpu := same ▸ sound.numCpu
  batched := same ▸ sound.batched
  indexed := sound.indexed.of_eq (by rw [Machine.addresses, same, Machine.addresses])
    (by rw [same]) (by rw [same])
  holds := same ▸ sound.holds
  known := same ▸ sound.known

theorem rewritten (sound : state.Sound writable)
    (rewritten : state.machine.Rewritten writable machine) :
    Sound writable { state with machine } where
  numCpu := by
    rw [rewritten.msrio]
    exact sound.numCpu
  batched := by
    rw [rewritten.msrio]
    exact sound.batched
  indexed := sound.indexed.of_eq rewritten.addresses (by rw [rewritten.msrio])
    (by rw [rewritten.msrio])
  holds index slot found := by
    obtain ⟨old, before, address, wmask, val, mask⟩ := Table.getElem?_of_forall₂ rewritten.slots found
    have msr : slot.op.msr = old.op.msr := congrArg Prod.snd address
    obtain ⟨read, within, obeys, replaces⟩ := sound.holds index old before
    refine ⟨?_, by rwa [msr, mask], by rwa [val, mask], by rwa [val, mask]⟩
    rcases wmask with same | fresh
    · rw [same, msr]
      exact read
    · rw [fresh, msr]
  known := rewritten.slots.length_eq ▸ sound.known

theorem cleared (sound : state.Sound writable) :
    Sound writable ⟨state.machine.mapBatch Msrio.WriteSlot.clear, []⟩ where
  numCpu := sound.numCpu
  batched := sound.batched
  indexed := by
    refine sound.indexed.of_eq ?_ rfl rfl
    rw [Machine.addresses, Machine.addresses, Machine.mapBatch, List.map_map]
    rfl
  holds index slot found := by
    rw [Machine.mapBatch, List.getElem?_map, Option.map_eq_some_iff] at found
    obtain ⟨old, before, rfl⟩ := found
    exact .of_empty (sound.holds index old before).wmask rfl rfl (by simp)
  known := by simp

/-- A new slot has no adjustments. -/
theorem added {after : Machine} {cpu offset index : Nat} (sound : state.Sound writable)
    (documented : driver.Documented writable) (bound : offset < 2 ^ 32)
    (done : (Msrio.addWrite driver cpu offset).run state.machine = .ok index after) :
    Sound writable { state with machine := after } := by
  have inside : cpu < state.machine.msrio.numCpu := by
    by_contra beyond
    simp [Msrio.addWrite, not_lt.mp beyond] at done
  obtain ⟨indexed, added, mode, ready⟩ := sound.indexed.addWrite documented
    (lt_of_lt_of_le inside sound.numCpu) bound done
  obtain ⟨new, slots, empty⟩ := added.slots
  have batched := mode.trans sound.batched
  refine ⟨added.numCpu ▸ sound.numCpu, batched, indexed, fun position slot found => ?_,
    fun adjustment member => ?_⟩
  · rw [slots, List.getElem?_append] at found
    split at found
    case isTrue old => exact sound.holds position slot found
    case isFalse beyond =>
        have member := List.mem_of_getElem? found
        obtain ⟨_, absent, val, mask⟩ := empty slot member
        have fresh : slot ∉ state.machine.msrio.writeBatchOp := fun old =>
          absent (List.mem_map_of_mem old)
        have unread := (ready slot (slots ▸ List.mem_append_right _ member)).resolve_left fresh
        refine .of_empty ?_ val mask fun adjustment pending => ?_
        · rw [unread.wmask, Msrio.systemMask, if_pos batched]
        · have known := sound.known adjustment pending
          omega
  · have known := sound.known adjustment member
    rw [slots, List.length_append]
    omega

theorem adjusted {after : Machine} {batchIdx : Int} {rawValue writeMask : Word}
    (sound : state.Sound writable)
    (done : (Msrio.adjust batchIdx rawValue writeMask).run state.machine = .ok () after) :
    Sound writable ⟨after, state.adjustments ++ [⟨batchIdx.toNat, rawValue, writeMask⟩]⟩ := by
  obtain ⟨_, obeys, slot, found, inside, rfl⟩ := Msrio.adjust_ok done
  refine ⟨sound.numCpu, sound.batched, sound.indexed.of_eq ?_ rfl rfl, fun index other changed => ?_,
    fun adjustment member => ?_⟩
  · exact Table.map_modify fun _ => rfl
  · rw [List.getElem?_modify] at changed
    obtain ⟨old, before, stored⟩ := Option.map_eq_some_iff.mp changed
    have holds := sound.holds index old before
    by_cases here : batchIdx.toNat = index
    · rw [if_pos here] at stored
      obtain rfl : old = slot := Option.some.inj (before.symm.trans (here ▸ found))
      rw [← stored, here]
      exact holds.adjust inside obeys
    · rw [if_neg here] at stored
      rw [← stored]
      exact holds.adjust_other here
  · rw [List.length_modify]
    rcases List.mem_append.mp member with old | new
    · exact sound.known adjustment old
    · rw [List.mem_singleton.mp new]
      exact (List.getElem?_eq_some_iff.mp found).1

theorem step (sound : state.Sound writable) {action : Action} (proper : action.Proper writable) :
    (state.step action).Sound writable := by
  cases action with
  | addWrite driver cpu offset =>
      obtain ⟨documented, bound⟩ := proper
      cases ran : (Msrio.addWrite driver cpu offset).run state.machine with
      | ok index after =>
          rw [Outstanding.step, Stateful.leaves_of_ok ran]
          exact sound.added documented bound ran
      | error reason after =>
          rw [Outstanding.step, Stateful.leaves_of_error ran]
          exact sound.of_msrio (Msrio.addWrite_thrown_msrio ran)
  | adjust batchIdx rawValue writeMask =>
      cases ran : (Msrio.adjust batchIdx rawValue writeMask).run state.machine with
      | ok value after =>
          simp only [Outstanding.step, ran]
          exact sound.adjusted ran
      | error reason after =>
          simp only [Outstanding.step, ran]
          exact sound.of_msrio (by rw [Msrio.adjust_thrown_state ran])
  | writeBatch driver =>
      obtain ⟨documented, answers⟩ := proper
      cases ran : (Msrio.writeBatch driver).run state.machine with
      | ok value after =>
          obtain ⟨middle, _, rewritten, rfl⟩ := Msrio.writeBatch_cleared answers sound.batched ran
          simp only [Outstanding.step, ran]
          exact (sound.rewritten rewritten).cleared
      | error reason after =>
          simp only [Outstanding.step, ran]
          exact sound.rewritten (Msrio.writeBatch_thrown_rewritten answers sound.batched ran)
  | writeMsr driver cpu offset rawValue writeMask => exact sound.of_msrio Msrio.writeMsr_msrio
  | outside registers => exact sound.of_msrio rfl

theorem run {actions : List Action} (sound : state.Sound writable)
    (proper : ∀ action ∈ actions, action.Proper writable) :
    (Transition.run Outstanding.step state actions).Sound writable := by
  induction actions generalizing state with
  | nil => exact sound
  | cons action rest ih =>
      exact ih (sound.step (proper action List.mem_cons_self))
        fun other member => proper other (List.mem_cons_of_mem action member)

/-- A batch replaces the adjusted bits just when every slot is current. -/
theorem lands_iff {after : Machine} (sound : state.Sound writable)
    (documented : driver.Documented writable) (answers : driver.Answers writable)
    (done : (Msrio.writeBatch driver).run state.machine = .ok () after) :
    state.Lands after.registers ↔ ∀ slot ∈ state.machine.msrio.writeBatchOp,
      slot.Current writable state.machine.registers := by
  obtain ⟨middle, written, _, rfl⟩ := Msrio.writeBatch_cleared answers sound.batched done
  obtain ⟨inside, outside⟩ :=
    Msrio.msrIoctlWrite_found documented sound.indexed.distinct written
  have slots : ∀ index slot, state.machine.msrio.writeBatchOp[index]? = some slot →
      (middle.registers slot.op.cpu slot.op.msr = replaced state.adjustments index
          (state.machine.registers slot.op.cpu slot.op.msr) ↔
        slot.Current writable state.machine.registers) := by
    intro index slot found
    obtain ⟨_, within, obeys, replaces⟩ := sound.holds index slot found
    rw [inside slot (List.mem_of_getElem? found), replaces,
      MaskedWrite.select_store_eq_iff within obeys, WriteSlot.found, WriteSlot.Current, WriteSlot.kept]
    cases slot.op.isrdmsr <;> simp
  constructor
  · intro lands slot member
    obtain ⟨index, found⟩ := List.mem_iff_getElem?.mp member
    exact (slots index slot found).mp (lands.inside index slot found)
  · intro current
    refine ⟨fun index slot found => ?_, outside⟩
    exact (slots index slot found).mpr (current slot (List.mem_of_getElem? found))

end Sound

/-- After any calls, some of which have thrown, a batch that returns replaces the
adjusted bits of the contents of that time just when each of its slots is either
to be read or agrees with its register on the bits that are not adjusted. -/
theorem writeBatch_lands_iff {writable : Nat → Word} {driver : Driver} {after : Machine}
    {numCpu : Nat} (small : numCpu ≤ 2 ^ 16) (registers : Registers) (actions : List Action)
    (proper : ∀ action ∈ actions, action.Proper writable)
    (documented : driver.Documented writable) (answers : driver.Answers writable)
    (done : (Msrio.writeBatch driver).run
      (Transition.run step (start registers numCpu) actions).machine = .ok () after) :
    (Transition.run step (start registers numCpu) actions).Lands after.registers ↔
      ∀ slot ∈ (Transition.run step (start registers numCpu) actions).machine.msrio.writeBatchOp,
        slot.Current writable
          (Transition.run step (start registers numCpu) actions).machine.registers :=
  ((Sound.start registers small).run proper).lands_iff documented answers done

/-- System calls that fail on any batch that has a write in it. -/
def readOnly (writable : Nat → Word) : Driver :=
  { Msrio.Driver.ideal writable with
    ioctl := fun registers ops =>
      if ops.all (·.isrdmsr) then some (executeAll writable registers ops) else none }

theorem readOnly_documented (writable : Nat → Word) : (readOnly writable).Documented writable where
  pread_eq read := (Option.some.inj read).symm
  pwrite_eq wrote := (Option.some.inj wrote).symm
  ioctl_eq called _ := by
    rw [readOnly, Option.ite_none_right_eq_some] at called
    exact (Option.some.inj called.2).symm

theorem executeAll_answers {writable : Nat → Word} {registers : Registers} (ops : List BatchOp) :
    List.Forall₂ (BatchOp.Answered writable) ops (executeAll writable registers ops).2 := by
  induction ops generalizing registers with
  | nil => exact .nil
  | cons op rest ih =>
      exact .cons (BatchOp.execute_answered op) ih

theorem ideal_answers (writable : Nat → Word) : (Msrio.Driver.ideal writable).Answers writable := by
  intro registers ops next done called
  obtain ⟨rfl, rfl⟩ := Prod.mk.inj (Option.some.inj called)
  exact executeAll_answers ops

theorem readOnly_answers (writable : Nat → Word) : (readOnly writable).Answers writable := by
  intro registers ops next done called
  rw [readOnly, Option.ite_none_right_eq_some] at called
  obtain ⟨rfl, rfl⟩ := Prod.mk.inj (Option.some.inj called.2)
  exact executeAll_answers ops

/-- An adjustment whose first batch fails in its second system call. -/
def attempt : List Action :=
  [.addWrite (Msrio.Driver.ideal fun _ => 0xFFFF) 0 0x610, .adjust 0 0x3 0xF,
    .writeBatch (readOnly fun _ => 0xFFFF)]

theorem attempt_proper : ∀ action ∈ attempt, action.Proper fun _ => 0xFFFF := by
  intro action member
  simp only [attempt, List.mem_cons, List.not_mem_nil, or_false] at member
  rcases member with rfl | rfl | rfl
  · exact ⟨Msrio.Driver.ideal_documented _, by decide⟩
  · trivial
  · exact ⟨readOnly_documented _, readOnly_answers _⟩

theorem writeBatch_lands_unchanged : ∃ after,
    (Msrio.writeBatch (Msrio.Driver.ideal fun _ => 0xFFFF)).run
        (Transition.run step (start (fun _ _ => 0x1230) 1) attempt).machine = .ok () after ∧
      (Transition.run step (start (fun _ _ => 0x1230) 1) attempt).Lands after.registers := by
  obtain ⟨_, after, done⟩ := Stateful.ok_of_returns (by decide +kernel : Stateful.returns
    (Msrio.writeBatch (Msrio.Driver.ideal fun _ => 0xFFFF))
    (Transition.run step (start (fun _ _ => 0x1230) 1) attempt).machine = true)
  refine ⟨after, done, ?_⟩
  exact (writeBatch_lands_iff (by decide) (fun _ _ => 0x1230) attempt attempt_proper
    (Msrio.Driver.ideal_documented _) (ideal_answers _) done).mpr (by decide +kernel)

/-- The retry writes the bits that the failed attempt has read. -/
theorem not_writeBatch_lands : ¬ ∀ (writable : Nat → Word) (driver : Driver) (numCpu : Nat)
    (registers : Registers) (actions : List Action) (after : Machine), numCpu ≤ 2 ^ 16 →
    (∀ action ∈ actions, action.Proper writable) → driver.Documented writable →
    driver.Answers writable →
    (Msrio.writeBatch driver).run (Transition.run step (start registers numCpu) actions).machine =
      .ok () after →
    (Transition.run step (start registers numCpu) actions).Lands after.registers := by
  intro always
  let actions := attempt ++ [.outside fun _ _ => 0xFF00]
  obtain ⟨_, after, done⟩ := Stateful.ok_of_returns (by decide +kernel : Stateful.returns
    (Msrio.writeBatch (Msrio.Driver.ideal fun _ => 0xFFFF))
    (Transition.run step (start (fun _ _ => 0x1230) 1) actions).machine = true)
  have proper : ∀ action ∈ actions, action.Proper fun _ => 0xFFFF := by
    intro action member
    rcases List.mem_append.mp member with old | new
    · exact attempt_proper action old
    · rw [List.mem_singleton.mp new]
      trivial
  have lands := always (fun _ => 0xFFFF) _ 1 (fun _ _ => 0x1230) actions after (by decide) proper
    (Msrio.Driver.ideal_documented _) (ideal_answers _) done
  have stored := lands.inside 0 ⟨⟨0, false, 0, 0x610, 0x1233, 0xFFFF⟩, 0x3, 0xF⟩ (by decide +kernel)
  rw [← Stateful.leaves_of_ok done] at stored
  exact absurd stored (by decide +kernel)

end Outstanding

end Geopm
