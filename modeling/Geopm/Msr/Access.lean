import Geopm.Msr.Msrio
import Mathlib.Tactic.Set

namespace Geopm

open MaskedWrite (store select)

/-! What the functions of `Msrio` do where they return, and why they throw. -/

namespace Registers

variable {registers : Registers} {cpu offset : Nat} {value : Word}

@[simp] theorem set_self : registers.set cpu offset value cpu offset = value := by
  simp [Registers.set]

theorem set_other {other at' : Nat} (different : (other, at') ≠ (cpu, offset)) :
    registers.set cpu offset value other at' = registers other at' := by
  by_cases same : other = cpu
  · subst same
    have apart : at' ≠ offset := fun equal => different (by rw [equal])
    simp [Registers.set, apart]
  · simp [Registers.set, same]

end Registers

/-- The register that an operation is about. -/
def BatchOp.address (op : BatchOp) : Nat × Nat := (op.cpu, op.msr)

def WriteSlot.address (slot : WriteSlot) : Nat × Nat := slot.op.address

/-- What the register of a slot will hold after the batch. -/
def WriteSlot.pending (writable : Nat → Word) (slot : WriteSlot) (old : Word) : Word :=
  select (writable slot.op.msr) old (store slot.mask slot.val old)

section Execute

variable {writable : Nat → Word} {registers : Registers} {ops : List BatchOp}

/-- A batch of reads fetches every register and changes none. -/
theorem executeAll_read (reading : ∀ op ∈ ops, op.isrdmsr = true) :
    executeAll writable registers ops = (registers, ops.map fun op =>
      { op with err := 0, msrdata := registers op.cpu op.msr, wmask := writable op.msr }) := by
  induction ops with
  | nil => rfl
  | cons op rest ih =>
      have others := ih fun other member => reading other (List.mem_cons_of_mem op member)
      simp only [executeAll, BatchOp.execute, reading op (by simp), if_true, others, List.map_cons]

theorem executeAll_other (ops : List BatchOp) {cpu offset : Nat}
    (absent : (cpu, offset) ∉ ops.map BatchOp.address) :
    (executeAll writable registers ops).1 cpu offset = registers cpu offset := by
  induction ops generalizing registers with
  | nil => rfl
  | cons op rest ih =>
      rw [List.map_cons, List.mem_cons, not_or] at absent
      simp only [executeAll, BatchOp.execute]
      split
      · exact ih absent.2
      · exact (ih absent.2).trans (Registers.set_other absent.1)

/-- A batch of writes to different registers writes each from its own operation. -/
theorem executeAll_write (writing : ∀ op ∈ ops, op.isrdmsr = false)
    (distinct : (ops.map BatchOp.address).Nodup) {op : BatchOp} (member : op ∈ ops) :
    (executeAll writable registers ops).1 op.cpu op.msr =
      select (writable op.msr) (registers op.cpu op.msr) op.msrdata := by
  induction ops generalizing registers with
  | nil => simp at member
  | cons first rest ih =>
      rw [List.map_cons, List.nodup_cons] at distinct
      have others := fun other member => writing other (List.mem_cons_of_mem first member)
      simp only [executeAll, BatchOp.execute, writing first (by simp)]
      rcases List.mem_cons.mp member with rfl | later
      · exact (executeAll_other rest distinct.1).trans Registers.set_self
      · refine (ih others distinct.2 later).trans ?_
        have apart : (op.cpu, op.msr) ≠ (first.cpu, first.msr) := fun same =>
          distinct.1 (List.mem_map.mpr ⟨op, later, same⟩)
        simp only [Bool.false_eq_true, if_false, Registers.set_other apart]

theorem executeAll_ops (writing : ∀ op ∈ ops, op.isrdmsr = false) :
    (executeAll writable registers ops).2 =
      ops.map fun op => { op with err := 0, wmask := writable op.msr } := by
  induction ops generalizing registers with
  | nil => rfl
  | cons first rest ih =>
      have others := fun other member => writing other (List.mem_cons_of_mem first member)
      simp only [executeAll, BatchOp.execute, writing first (by simp), List.map_cons, ih others]
      rfl

end Execute

namespace Msrio

variable {driver : Driver} {writable : Nat → Word} {machine after : Machine} {cpu offset : Nat}
  {value rawValue writeMask : Word} {reason : MsrError}

theorem readMsr_eq : (readMsr driver cpu offset).run machine =
    if machine.msrio.numCpu < cpu then .error (.cpuOutOfRange cpu) machine
    else match driver.pread machine.registers cpu offset with
      | none => .error (.readFailed offset) machine
      | some value => .ok value machine := by
  by_cases beyond : machine.msrio.numCpu < cpu
  · simp [readMsr, msrDesc, beyond]
  · cases found : driver.pread machine.registers cpu offset <;>
      simp [readMsr, msrDesc, beyond, found]

theorem writeAdjusted_eq : (writeAdjusted driver).run machine =
    if machine.msrio.isBatchEnabled then (msrIoctlWrite driver).run machine
    else (writeEach driver machine.msrio.writeBatchOp).run machine := by
  simp [writeAdjusted]

theorem writeMsr_eq : (writeMsr driver cpu offset rawValue writeMask).run machine =
    if rawValue &&& writeMask ≠ rawValue then .error (.valueOutsideMask rawValue writeMask) machine
    else match (readMsr driver cpu offset).run machine with
      | .error reason after => .error reason after
      | .ok value _ =>
          match driver.pwrite machine.registers cpu offset (store writeMask rawValue value) with
          | none => .error (.writeFailed offset) machine
          | some registers => .ok () (machine.changed registers) := by
  by_cases outside : rawValue &&& writeMask ≠ rawValue
  · simp [writeMsr, outside]
  · by_cases beyond : machine.msrio.numCpu < cpu
    · simp [writeMsr, outside, readMsr_eq, beyond]
    · cases found : driver.pread machine.registers cpu offset with
      | none => simp [writeMsr, outside, readMsr_eq, beyond, found]
      | some value =>
          cases written : driver.pwrite machine.registers cpu offset
            (store writeMask rawValue value) <;>
            simp [writeMsr, outside, readMsr_eq, beyond, found, written, msrDesc]

theorem readMsr_ok (documented : driver.Documented writable)
    (done : (readMsr driver cpu offset).run machine = .ok value after) :
    after = machine ∧ value = machine.registers cpu offset := by
  rw [readMsr_eq] at done
  split at done
  · simp at done
  · cases found : driver.pread machine.registers cpu offset with
    | none => simp [found] at done
    | some read =>
        simp only [found, EStateM.Result.ok.injEq] at done
        exact ⟨done.2.symm, done.1 ▸ documented.pread_eq found⟩

theorem readMsr_thrown (known : cpu ≤ machine.msrio.numCpu)
    (thrown : (readMsr driver cpu offset).run machine = .error reason after) :
    after = machine ∧ reason.isSystem = true := by
  rw [readMsr_eq, if_neg (by omega)] at thrown
  cases found : driver.pread machine.registers cpu offset with
  | none =>
      simp only [found, EStateM.Result.error.injEq] at thrown
      exact ⟨thrown.2.symm, thrown.1 ▸ rfl⟩
  | some value => simp [found] at thrown

/-- The bits under the mask that can be written are replaced. -/
theorem writeMsr_ok (documented : driver.Documented writable)
    (done : (writeMsr driver cpu offset rawValue writeMask).run machine = .ok () after) :
    rawValue &&& writeMask = rawValue ∧
      after = machine.changed (machine.registers.set cpu offset
        (select (writable offset) (machine.registers cpu offset)
          (store writeMask rawValue (machine.registers cpu offset)))) := by
  rw [writeMsr_eq] at done
  split at done
  · simp at done
  · rename_i obeys
    refine ⟨not_not.mp obeys, ?_⟩
    cases read : (readMsr driver cpu offset).run machine with
    | error reason middle => simp [read] at done
    | ok value middle =>
        obtain ⟨_, rfl⟩ := readMsr_ok documented read
        cases written : driver.pwrite machine.registers cpu offset
            (store writeMask rawValue (machine.registers cpu offset)) with
        | none => simp [read, written] at done
        | some registers =>
            simp only [read, written, EStateM.Result.ok.injEq, true_and] at done
            rw [← done, documented.pwrite_eq written]

theorem writeMsr_thrown_state
    (thrown : (writeMsr driver cpu offset rawValue writeMask).run machine = .error reason after) :
    after = machine := by
  rw [writeMsr_eq] at thrown
  split at thrown
  · exact (EStateM.Result.error.inj thrown).2.symm
  · rw [readMsr_eq] at thrown
    by_cases beyond : machine.msrio.numCpu < cpu
    · simp only [beyond, if_true, EStateM.Result.error.injEq] at thrown
      exact thrown.2.symm
    · cases read : driver.pread machine.registers cpu offset with
      | none =>
          simp only [beyond, if_false, read, EStateM.Result.error.injEq] at thrown
          exact thrown.2.symm
      | some value =>
          cases written : driver.pwrite machine.registers cpu offset
              (store writeMask rawValue value) with
          | none =>
              simp only [beyond, if_false, read, written, EStateM.Result.error.injEq] at thrown
              exact thrown.2.symm
          | some registers => simp [beyond, read, written] at thrown

theorem writeMsr_thrown (obeys : rawValue &&& writeMask = rawValue) (known : cpu ≤ machine.msrio.numCpu)
    (thrown : (writeMsr driver cpu offset rawValue writeMask).run machine = .error reason after) :
    after = machine ∧ reason.isSystem = true := by
  rw [writeMsr_eq, if_neg (not_not.mpr obeys)] at thrown
  cases read : (readMsr driver cpu offset).run machine with
  | error other middle =>
      simp only [read, EStateM.Result.error.injEq] at thrown
      obtain ⟨rfl, rfl⟩ := thrown
      exact readMsr_thrown known read
  | ok value middle =>
      cases written : driver.pwrite machine.registers cpu offset
          (store writeMask rawValue value) with
      | none =>
          simp only [read, written, EStateM.Result.error.injEq] at thrown
          exact ⟨thrown.2.symm, thrown.1 ▸ rfl⟩
      | some registers => simp [read, written] at thrown

end Msrio

/-- The masks that were read are those of the system. -/
def Msrio.Cached (msrio : Msrio) (writable : Nat → Word) : Prop :=
  ∀ offset mask, msrio.offsetMaskMap offset = some mask → offset < 2 ^ 32 → mask = writable offset

/-- The mask that `adjust` holds an adjustment against. -/
def Msrio.systemMask (msrio : Msrio) (writable : Nat → Word) (offset : Nat) : Word :=
  if msrio.isBatchEnabled then writable offset else BitVec.allOnes 64

/-- At most the known masks differ, and the registers were read. -/
structure Machine.Refreshed (writable : Nat → Word) (machine after : Machine) : Prop where
  registers : after.registers = machine.registers
  past : ∀ contents ∈ after.past, contents ∈ machine.past ∨ contents = machine.registers
  msrio : after.msrio =
    { machine.msrio with offsetMaskMap := after.msrio.offsetMaskMap }
  cached : after.msrio.Cached writable

namespace Msrio

variable {driver : Driver} {writable : Nat → Word} {machine after : Machine} {cpu offset : Nat}
  {value rawValue writeMask : Word} {reason : MsrError}

theorem systemWriteMask_ok (documented : driver.Documented writable)
    (cached : machine.msrio.Cached writable) (bound : offset < 2 ^ 32)
    (done : (systemWriteMask driver offset).run machine = .ok value after) :
    value = machine.msrio.systemMask writable offset ∧ machine.Refreshed writable after := by
  have unchanged : machine.Refreshed writable machine :=
    ⟨rfl, fun _ member => .inl member, rfl, cached⟩
  by_cases batched : machine.msrio.isBatchEnabled = true
  · simp only [systemMask, batched, if_true]
    cases known : machine.msrio.offsetMaskMap offset with
    | some mask =>
        simp [systemWriteMask, batched, known] at done
        obtain ⟨rfl, rfl⟩ := done
        exact ⟨cached offset mask known bound, unchanged⟩
    | none =>
        have small : offset % 2 ^ 32 = offset := Nat.mod_eq_of_lt bound
        cases called : driver.ioctl machine.registers [maskOp offset] with
        | none => simp [systemWriteMask, batched, known, called] at done
        | some result =>
            obtain ⟨registers, ops⟩ := result
            rcases ops with _ | ⟨op, _ | ⟨other, rest⟩⟩
            · simp [systemWriteMask, batched, known, called] at done
            · by_cases failed : op.err = 0
              · simp [systemWriteMask, batched, known, called, failed] at done
                have read := documented.ioctl_eq called (by simp [failed])
                rw [executeAll_read (by simp [maskOp]), Prod.mk.injEq] at read
                obtain ⟨rfl, same⟩ := read
                simp only [List.map_cons, List.map_nil, maskOp, small] at same
                obtain rfl := (List.cons.inj same).1
                obtain ⟨rfl, rfl⟩ := done
                refine ⟨rfl, rfl, ?_, by simp [batched], ?_⟩
                · intro contents member
                  rcases List.mem_cons.mp member with same | old
                  · exact .inr same
                  · exact .inl old
                · intro other mask found within
                  by_cases same : other = offset
                  · subst same
                    simpa [Machine.changed] using found.symm
                  · exact cached other mask (by simpa [Machine.changed, same] using found) within
              · simp [systemWriteMask, batched, known, called, failed] at done
            · simp [systemWriteMask, batched, known, called] at done
  · simp [systemWriteMask, batched] at done
    obtain ⟨rfl, rfl⟩ := done
    exact ⟨by simp [systemMask, batched], unchanged⟩

theorem systemWriteMask_thrown
    (thrown : (systemWriteMask driver offset).run machine = .error reason after) :
    reason = .maskReadFailed := by
  by_cases batched : machine.msrio.isBatchEnabled = true
  · cases known : machine.msrio.offsetMaskMap offset with
    | some mask => simp [systemWriteMask, batched, known] at thrown
    | none =>
        cases called : driver.ioctl machine.registers [maskOp offset] with
        | none =>
            simp [systemWriteMask, batched, known, called] at thrown
            exact thrown.1.symm
        | some result =>
            obtain ⟨registers, ops⟩ := result
            rcases ops with _ | ⟨op, _ | ⟨other, rest⟩⟩
            · simp [systemWriteMask, batched, known, called] at thrown
              exact thrown.1.symm
            · by_cases failed : op.err = 0
              · simp [systemWriteMask, batched, known, called, failed] at thrown
              · simp [systemWriteMask, batched, known, called, failed] at thrown
                exact thrown.1.symm
            · simp [systemWriteMask, batched, known, called] at thrown
              exact thrown.1.symm
  · simp [systemWriteMask, batched] at thrown

/-- A new register gets an empty slot at the end of the batch. -/
theorem addWrite_new {index : Nat} (documented : driver.Documented writable)
    (cached : machine.msrio.Cached writable) (small : cpu < 2 ^ 16) (bound : offset < 2 ^ 32)
    (unknown : machine.msrio.writeBatchIdxMap cpu offset = none)
    (done : (addWrite driver cpu offset).run machine = .ok index after) :
    index = machine.msrio.writeBatchOp.length ∧ cpu < machine.msrio.numCpu ∧
      ∃ middle, machine.Refreshed writable middle ∧ after = { middle with
        msrio := { middle.msrio with
          writeBatchOp := machine.msrio.writeBatchOp ++
            [⟨⟨cpu, true, 0, offset, 0, machine.msrio.systemMask writable offset⟩, 0, 0⟩]
          writeBatchIdxMap := Function.update machine.msrio.writeBatchIdxMap cpu
            (Function.update (machine.msrio.writeBatchIdxMap cpu) offset (some index)) } } := by
  by_cases beyond : machine.msrio.numCpu ≤ cpu
  · simp [addWrite, beyond] at done
  · cases masked : (systemWriteMask driver offset).run machine with
    | error reason middle => simp [addWrite, beyond, unknown, masked] at done
    | ok mask middle =>
        obtain ⟨rfl, refreshed⟩ := systemWriteMask_ok documented cached bound masked
        simp only [addWrite, unknown, EStateM.run_bind, EStateM.run_get, beyond, if_false, masked,
          EStateM.run_modify, EStateM.run_pure, EStateM.Result.ok.injEq, Nat.mod_eq_of_lt small,
          Nat.mod_eq_of_lt bound] at done
        obtain ⟨rfl, rfl⟩ := done
        refine ⟨rfl, by omega, middle, refreshed, ?_⟩
        rw [refreshed.msrio]

theorem addWrite_known {index result : Nat}
    (known : machine.msrio.writeBatchIdxMap cpu offset = some index)
    (done : (addWrite driver cpu offset).run machine = .ok result after) :
    result = index ∧ after = machine := by
  by_cases beyond : machine.msrio.numCpu ≤ cpu
  · simp [addWrite, beyond] at done
  · simp only [addWrite, known, EStateM.run_bind, EStateM.run_get, beyond, if_false,
      EStateM.run_pure, EStateM.Result.ok.injEq] at done
    exact ⟨done.1.symm, done.2.symm⟩

theorem addWrite_thrown (within : cpu < machine.msrio.numCpu)
    (thrown : (addWrite driver cpu offset).run machine = .error reason after) :
    reason.isSystem = true := by
  have inside : ¬ machine.msrio.numCpu ≤ cpu := by omega
  cases known : machine.msrio.writeBatchIdxMap cpu offset with
  | some index => simp [addWrite, known, inside] at thrown
  | none =>
      cases masked : (systemWriteMask driver offset).run machine with
      | error other middle =>
          simp only [addWrite, known, EStateM.run_bind, EStateM.run_get, inside, if_false, masked,
            EStateM.Result.error.injEq] at thrown
          rw [← thrown.1, systemWriteMask_thrown masked]
          rfl
      | ok mask middle => simp [addWrite, known, inside, masked] at thrown

/-- An adjustment that is accepted changes the slot of its index. -/
theorem adjust_ok {index : Int}
    (done : (adjust index rawValue writeMask).run machine = .ok () after) :
    0 ≤ index ∧ rawValue &&& writeMask = rawValue ∧
      ∃ slot, machine.msrio.writeBatchOp[index.toNat]? = some slot ∧
        ~~~slot.op.wmask &&& writeMask = 0 ∧
        after = { machine with
          msrio := { machine.msrio with
            writeBatchOp := machine.msrio.writeBatchOp.modify index.toNat
              (WriteSlot.adjust rawValue writeMask) } } := by
  by_cases negative : index < 0
  · simp [adjust, negative] at done
  · cases found : machine.msrio.writeBatchOp[index.toNat]? with
    | none => simp [adjust, negative, found] at done
    | some slot =>
        by_cases beyond : ~~~slot.op.wmask &&& writeMask = 0
        · by_cases obeys : rawValue &&& writeMask = rawValue
          · simp only [adjust, EStateM.run_bind, EStateM.run_get, negative, if_false, found, beyond,
              obeys, ne_eq, not_true_eq_false, EStateM.run_set, EStateM.Result.ok.injEq,
              true_and] at done
            exact ⟨by omega, obeys, slot, rfl, beyond, done.symm⟩
          · simp [adjust, negative, found, beyond, obeys] at done
        · simp only [adjust, EStateM.run_bind, EStateM.run_get, negative, if_false, found, ne_eq,
            beyond, not_false_eq_true, if_true, Stateful.run_throw, reduceCtorEq] at done

theorem adjust_thrown_state {index : Int}
    (thrown : (adjust index rawValue writeMask).run machine = .error reason after) :
    after = machine := by
  by_cases negative : index < 0
  · simp only [adjust, EStateM.run_bind, EStateM.run_get, negative, if_true, Stateful.run_throw,
      EStateM.Result.error.injEq] at thrown
    exact thrown.2.symm
  · cases found : machine.msrio.writeBatchOp[index.toNat]? with
    | none =>
        simp only [adjust, EStateM.run_bind, EStateM.run_get, negative, if_false, found,
          Stateful.run_throw, EStateM.Result.error.injEq] at thrown
        exact thrown.2.symm
    | some slot =>
        by_cases beyond : ~~~slot.op.wmask &&& writeMask = 0 <;>
          by_cases obeys : rawValue &&& writeMask = rawValue <;>
          simp only [adjust, EStateM.run_bind, EStateM.run_get, negative, if_false, found, ne_eq,
            beyond, obeys, not_true_eq_false, not_false_eq_true, if_true, Stateful.run_throw,
            EStateM.run_set, EStateM.Result.error.injEq, reduceCtorEq] at thrown
        all_goals exact thrown.2.symm

theorem adjust_exists {index : Int} {slot : WriteSlot} (nonnegative : 0 ≤ index)
    (found : machine.msrio.writeBatchOp[index.toNat]? = some slot)
    (within : ~~~slot.op.wmask &&& writeMask = 0) (obeys : rawValue &&& writeMask = rawValue) :
    ∃ after, (adjust index rawValue writeMask).run machine = .ok () after := by
  have inside : ¬ index < 0 := by omega
  simp [adjust, inside, found, within, obeys]

theorem msrIoctl_ok (documented : driver.Documented writable)
    (done : (msrIoctl driver).run machine = .ok () after) :
    after = { machine.changed (executeAll writable machine.registers
        (machine.msrio.writeBatchOp.map (·.op))).1 with
      msrio := { machine.msrio with
        writeBatchOp := machine.msrio.writeBatchOp.zipWith (fun slot op => { slot with op })
          (executeAll writable machine.registers (machine.msrio.writeBatchOp.map (·.op))).2 } } := by
  cases called : driver.ioctl machine.registers (machine.msrio.writeBatchOp.map (·.op)) with
  | none => simp [msrIoctl, called] at done
  | some result =>
      obtain ⟨registers, ops⟩ := result
      cases failed : ops.find? (·.err ≠ 0) with
      | some op =>
          simp only [msrIoctl, EStateM.run_bind, EStateM.run_get, called, EStateM.run_set, failed,
            Stateful.run_throw, reduceCtorEq] at done
      | none =>
          have succeeded : ∀ op ∈ ops, op.err = 0 := by
            simpa using List.find?_eq_none.mp failed
          have executed := documented.ioctl_eq called succeeded
          simp only [msrIoctl, EStateM.run_bind, EStateM.run_get, called, EStateM.run_set, failed,
            EStateM.run_pure, EStateM.Result.ok.injEq, true_and] at done
          rw [← executed, ← done]

/-- A slot after its register was read and written. -/
def WriteSlot.fetched (writable : Nat → Word) (registers : Registers) (slot : WriteSlot) :
    WriteSlot :=
  { slot with
    op := { slot.op with
      isrdmsr := true
      err := 0
      msrdata := store slot.mask slot.val (registers slot.op.cpu slot.op.msr)
      wmask := writable slot.op.msr } }

end Msrio

/-- Each register of the batch holds what was pending for it, no other was changed. -/
structure Settled (writable : Nat → Word) (slots : List WriteSlot) (before after : Registers) :
    Prop where
  inside : ∀ slot ∈ slots, after slot.op.cpu slot.op.msr =
    slot.pending writable (before slot.op.cpu slot.op.msr)
  outside : ∀ cpu offset, (cpu, offset) ∉ slots.map WriteSlot.address →
    after cpu offset = before cpu offset

namespace Msrio

variable {driver : Driver} {writable : Nat → Word} {machine after : Machine} {cpu offset : Nat}
  {value rawValue writeMask : Word} {reason : MsrError}

theorem msrIoctlWrite_ok (documented : driver.Documented writable)
    (reading : ∀ slot ∈ machine.msrio.writeBatchOp, slot.op.isrdmsr = true)
    (distinct : (machine.msrio.writeBatchOp.map WriteSlot.address).Nodup)
    (done : (msrIoctlWrite driver).run machine = .ok () after) :
    Settled writable machine.msrio.writeBatchOp machine.registers after.registers ∧
      after.past = machine.registers :: machine.registers :: machine.past ∧
      after.msrio = { machine.msrio with
        writeBatchOp :=
          machine.msrio.writeBatchOp.map (WriteSlot.fetched writable machine.registers) } := by
  obtain ⟨_, first, read, rest⟩ := Stateful.ok_of_bind done
  obtain ⟨_, second, prepared, later⟩ := Stateful.ok_of_bind rest
  obtain ⟨_, third, written, last⟩ := Stateful.ok_of_bind later
  have readOps : ∀ op ∈ machine.msrio.writeBatchOp.map (·.op), op.isrdmsr = true := by
    simpa using reading
  have fetched := msrIoctl_ok documented read
  rw [executeAll_read readOps] at fetched
  simp only [List.map_map, List.zipWith_map_right, List.zipWith_self] at fetched
  simp only [EStateM.run_modify, EStateM.Result.ok.injEq, true_and] at prepared last
  have stored := msrIoctl_ok documented written
  subst fetched prepared
  simp only [Machine.mapBatch, Machine.changed, List.map_map, Function.comp_def] at stored
  set ops := machine.msrio.writeBatchOp.map fun slot => (WriteSlot.prepare
    { slot with op := { slot.op with
      err := 0, msrdata := machine.registers slot.op.cpu slot.op.msr,
      wmask := writable slot.op.msr } }).op with named
  have writing : ∀ op ∈ ops, op.isrdmsr = false := by
    intro op member
    obtain ⟨slot, _, rfl⟩ := List.mem_map.mp member
    rfl
  have addresses : ops.map BatchOp.address = machine.msrio.writeBatchOp.map WriteSlot.address := by
    rw [named, List.map_map]
    rfl
  rw [executeAll_ops writing] at stored
  subst stored last
  refine ⟨⟨?_, ?_⟩, rfl, ?_⟩
  · intro slot member
    exact executeAll_write writing (addresses ▸ distinct) (List.mem_map_of_mem member)
  · intro cpu offset absent
    exact executeAll_other ops (addresses ▸ absent)
  · simp only [Machine.mapBatch, named, List.map_map, List.zipWith_map_left, List.zipWith_map_right,
      List.zipWith_self]
    rfl

theorem msrIoctl_thrown (thrown : (msrIoctl driver).run machine = .error reason after) :
    reason.isSystem = true := by
  cases called : driver.ioctl machine.registers (machine.msrio.writeBatchOp.map (·.op)) with
  | none =>
      simp [msrIoctl, called] at thrown
      exact thrown.1 ▸ rfl
  | some result =>
      obtain ⟨registers, ops⟩ := result
      cases failed : ops.find? (·.err ≠ 0) with
      | some op =>
          simp only [msrIoctl, EStateM.run_bind, EStateM.run_get, called, EStateM.run_set, failed,
            Stateful.run_throw, EStateM.Result.error.injEq] at thrown
          exact thrown.1 ▸ rfl
      | none =>
          simp only [msrIoctl, EStateM.run_bind, EStateM.run_get, called, EStateM.run_set, failed,
            EStateM.run_pure, reduceCtorEq] at thrown

theorem msrIoctlWrite_thrown
    (thrown : (msrIoctlWrite driver).run machine = .error reason after) :
    reason.isSystem = true := by
  rcases Stateful.error_of_bind thrown with failed | ⟨_, first, _, rest⟩
  · exact msrIoctl_thrown failed
  rcases Stateful.error_of_bind rest with failed | ⟨_, second, _, later⟩
  · simp at failed
  rcases Stateful.error_of_bind later with failed | ⟨_, third, _, last⟩
  · exact msrIoctl_thrown failed
  · simp at last

theorem writeEach_ok {slots : List WriteSlot} (documented : driver.Documented writable)
    (distinct : (slots.map WriteSlot.address).Nodup)
    (done : (writeEach driver slots).run machine = .ok () after) :
    Settled writable slots machine.registers after.registers ∧ after.msrio = machine.msrio := by
  induction slots generalizing machine with
  | nil =>
      obtain rfl : machine = after := by simpa [writeEach] using done
      exact ⟨⟨by simp, fun _ _ _ => rfl⟩, rfl⟩
  | cons slot rest ih =>
      obtain ⟨fresh, others⟩ := List.nodup_cons.mp distinct
      obtain ⟨_, middle, written, later⟩ := Stateful.ok_of_bind done
      obtain ⟨_, rfl⟩ := writeMsr_ok documented written
      obtain ⟨⟨inside, outside⟩, same⟩ := ih others later
      refine ⟨⟨?_, ?_⟩, same⟩
      · intro other member
        rcases List.mem_cons.mp member with rfl | member
        · exact (outside _ _ fresh).trans Registers.set_self
        · have apart : (other.op.cpu, other.op.msr) ≠ (slot.op.cpu, slot.op.msr) := fun same =>
            fresh (List.mem_map.mpr ⟨other, member, same⟩)
          rw [inside other member, Machine.changed_registers, Registers.set_other apart]
      · intro cpu offset absent
        rw [List.map_cons, List.mem_cons, not_or] at absent
        exact (outside cpu offset absent.2).trans (Registers.set_other absent.1)

theorem writeEach_thrown {slots : List WriteSlot}
    (obeys : ∀ slot ∈ slots, slot.val &&& slot.mask = slot.val ∧
      slot.op.cpu ≤ machine.msrio.numCpu) (documented : driver.Documented writable)
    (thrown : (writeEach driver slots).run machine = .error reason after) :
    reason.isSystem = true := by
  induction slots generalizing machine with
  | nil => simp [writeEach] at thrown
  | cons slot rest ih =>
      obtain ⟨under, known⟩ := obeys slot (by simp)
      rcases Stateful.error_of_bind thrown with failed | ⟨_, middle, written, later⟩
      · exact (writeMsr_thrown under known failed).2
      · obtain ⟨_, rfl⟩ := writeMsr_ok documented written
        refine ih ?_ later
        exact fun other member => obeys other (List.mem_cons_of_mem slot member)

end Msrio

/-- A slot as `add_write` and `adjust` leave it. -/
structure WriteSlot.Ready (slot : WriteSlot) (msrio : Msrio) (writable : Nat → Word) : Prop where
  reading : slot.op.isrdmsr = true
  wmask : slot.op.wmask = msrio.systemMask writable slot.op.msr
  known : slot.op.cpu < msrio.numCpu
  obeys : slot.val &&& slot.mask = slot.val

theorem WriteSlot.Ready.of_eq {slot : WriteSlot} {msrio other : Msrio} {writable : Nat → Word}
    (ready : slot.Ready msrio writable) (numCpu : other.numCpu = msrio.numCpu)
    (mode : other.isBatchEnabled = msrio.isBatchEnabled) : slot.Ready other writable where
  reading := ready.reading
  wmask := by rw [ready.wmask, Msrio.systemMask, Msrio.systemMask, mode]
  known := numCpu ▸ ready.known
  obeys := ready.obeys

namespace Msrio

variable {driver : Driver} {writable : Nat → Word} {machine after : Machine} {reason : MsrError}

/-- In both modes the batch leaves its registers settled and its slots empty. -/
theorem writeBatch_ok (documented : driver.Documented writable)
    (ready : ∀ slot ∈ machine.msrio.writeBatchOp, slot.Ready machine.msrio writable)
    (distinct : (machine.msrio.writeBatchOp.map WriteSlot.address).Nodup)
    (done : (writeBatch driver).run machine = .ok () after) :
    Settled writable machine.msrio.writeBatchOp machine.registers after.registers ∧
      ∃ change : WriteSlot → WriteSlot,
        after.msrio = { machine.msrio with
          writeBatchOp := machine.msrio.writeBatchOp.map change } ∧
        ∀ slot ∈ machine.msrio.writeBatchOp, (change slot).address = slot.address ∧
          (change slot).Ready machine.msrio writable ∧ (change slot).val = 0 ∧
          (change slot).mask = 0 := by
  obtain ⟨_, middle, written, last⟩ := Stateful.ok_of_bind done
  simp only [EStateM.run_modify, EStateM.Result.ok.injEq, true_and] at last
  subst last
  rw [writeAdjusted_eq] at written
  by_cases batched : machine.msrio.isBatchEnabled = true
  · rw [if_pos batched] at written
    obtain ⟨settled, _, same⟩ :=
      msrIoctlWrite_ok documented (fun slot member => (ready slot member).reading) distinct written
    refine ⟨settled, fun slot =>
      WriteSlot.clear (WriteSlot.fetched writable machine.registers slot), ?_, ?_⟩
    · simp only [Machine.mapBatch, same, List.map_map, Function.comp_def]
    · intro slot member
      refine ⟨rfl, ⟨rfl, ?_, (ready slot member).known, ?_⟩, rfl, rfl⟩
      · simp [WriteSlot.clear, WriteSlot.fetched, systemMask, batched]
      · simp [WriteSlot.clear]
  · rw [if_neg batched] at written
    obtain ⟨settled, same⟩ := writeEach_ok documented distinct written
    refine ⟨settled, WriteSlot.clear, ?_, ?_⟩
    · simp only [Machine.mapBatch, same]
    · intro slot member
      obtain ⟨reading, wmask, known, _⟩ := ready slot member
      exact ⟨rfl, ⟨reading, wmask, known, by simp [WriteSlot.clear]⟩, rfl, rfl⟩

theorem writeBatch_thrown (documented : driver.Documented writable)
    (ready : ∀ slot ∈ machine.msrio.writeBatchOp, slot.Ready machine.msrio writable)
    (thrown : (writeBatch driver).run machine = .error reason after) :
    reason.isSystem = true := by
  rcases Stateful.error_of_bind thrown with failed | ⟨_, middle, _, last⟩
  · rw [writeAdjusted_eq] at failed
    by_cases batched : machine.msrio.isBatchEnabled = true
    · rw [if_pos batched] at failed
      exact msrIoctlWrite_thrown failed
    · rw [if_neg batched] at failed
      exact writeEach_thrown
        (fun slot member => ⟨(ready slot member).obeys, (ready slot member).known.le⟩)
        documented failed
  · simp at last

end Msrio

end Geopm
