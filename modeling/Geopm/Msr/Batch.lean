import Geopm.Library.Run
import Geopm.Msr.Formed

namespace Geopm

open MaskedWrite (store select)

/-! Batched writes against direct writes.

A batch collects adjustments of its registers until `write_batch`. The direct
writes make each of them at once. `directly` says what they amount to; the
registers with everything that is pending in the batch agree with it throughout.
-/

namespace Msrio

/-- The part of the interface that deals with batched writes. -/
inductive BatchCall where
  | addWrite (cpu offset : Nat)
  | adjust (batchIdx : Int) (rawValue writeMask : Word)
  | writeBatch
deriving DecidableEq

/-- The registers of the batch, in the order of their indices. -/
def registered (known : List (Nat × Nat)) : BatchCall → List (Nat × Nat)
  | .addWrite cpu offset => if (cpu, offset) ∈ known then known else known ++ [(cpu, offset)]
  | _ => known

/-- The register that an index stands for. -/
def target (known : List (Nat × Nat)) (batchIdx : Int) : Option (Nat × Nat) :=
  if batchIdx < 0 then none else known[batchIdx.toNat]?

/-- A register of the machine, or an adjustment that the system write mask
allows, with a value within its mask. -/
def Proper (numCpu : Nat) (writable : Nat → Word) (known : List (Nat × Nat)) : BatchCall → Prop
  | .addWrite cpu offset => cpu < numCpu ∧ cpu < 2 ^ 16 ∧ offset < 2 ^ 32
  | .adjust batchIdx rawValue writeMask =>
      rawValue &&& writeMask = rawValue ∧
        ∃ address, target known batchIdx = some address ∧
          ~~~writable address.2 &&& writeMask = 0
  | .writeBatch => True

instance (numCpu : Nat) (writable : Nat → Word) (known : List (Nat × Nat)) :
    ∀ call, Decidable (Proper numCpu writable known call)
  | .addWrite _ _ => inferInstanceAs (Decidable (_ ∧ _ ∧ _))
  | .adjust batchIdx rawValue writeMask =>
      decidable_of_iff (rawValue &&& writeMask = rawValue ∧ (target known batchIdx).any
        (fun address => ~~~writable address.2 &&& writeMask = 0) = true) (by
          simp [Proper, Option.any_eq_true])
  | .writeBatch => inferInstanceAs (Decidable True)

/-- The effect of one direct write. -/
def written (writable : Nat → Word) (registers : Registers) (cpu offset : Nat)
    (rawValue writeMask : Word) : Registers :=
  registers.set cpu offset (select (writable offset) (registers cpu offset)
    (store writeMask rawValue (registers cpu offset)))

/-- The effect of direct writes in place of the adjustments. -/
def directly (writable : Nat → Word) (known : List (Nat × Nat)) (registers : Registers) :
    BatchCall → Registers
  | .adjust batchIdx rawValue writeMask =>
      match target known batchIdx with
      | some (cpu, offset) => written writable registers cpu offset rawValue writeMask
      | none => registers
  | _ => registers

section

variable (driver : Driver)

def perform : BatchCall → MsrM Unit
  | .addWrite cpu offset => do
      let _ ← addWrite driver cpu offset
  | .adjust batchIdx rawValue writeMask => adjust batchIdx rawValue writeMask
  | .writeBatch => writeBatch driver

def performAll : List BatchCall → MsrM Unit
  | [] => pure ()
  | call :: rest => do
      perform driver call
      performAll rest

/-- `write_msr` in place of an adjustment. -/
def performDirect (known : List (Nat × Nat)) : BatchCall → MsrM Unit
  | .adjust batchIdx rawValue writeMask =>
      match target known batchIdx with
      | some (cpu, offset) => writeMsr driver cpu offset rawValue writeMask
      | none => pure ()
  | _ => pure ()

def performAllDirect : List (Nat × Nat) → List BatchCall → MsrM Unit
  | _, [] => pure ()
  | known, call :: rest => do
      performDirect driver known call
      performAllDirect (registered known call) rest

end

/-- What the direct writes of a sequence amount to. -/
def allDirectly (writable : Nat → Word) : List (Nat × Nat) → Registers → List BatchCall → Registers
  | _, registers, [] => registers
  | known, registers, call :: rest =>
      allDirectly writable (registered known call) (directly writable known registers call) rest

/-- The registers that are adjusted. -/
def adjusted : List (Nat × Nat) → List BatchCall → List (Nat × Nat)
  | _, [] => []
  | known, call :: rest =>
      let others := adjusted (registered known call) rest
      match call with
      | .adjust batchIdx _ _ => (target known batchIdx).toList ++ others
      | _ => others

end Msrio

/-- With everything that is pending in the batch the registers would be as given. -/
structure Machine.Mirrors (machine : Machine) (numCpu : Nat) (writable : Nat → Word)
    (known : List (Nat × Nat)) (direct : Registers) : Prop where
  formed : machine.Formed writable
  numCpu : machine.msrio.numCpu = numCpu
  addresses : machine.addresses = known
  settled : Settled writable machine.msrio.writeBatchOp machine.registers direct

theorem Settled.unique {writable : Nat → Word} {slots : List WriteSlot}
    {before after direct : Registers} (settled : Settled writable slots before after)
    (other : Settled writable slots before direct) : after = direct := by
  funext cpu offset
  by_cases member : (cpu, offset) ∈ slots.map WriteSlot.address
  · obtain ⟨slot, inside, same⟩ := List.mem_map.mp member
    obtain ⟨rfl, rfl⟩ := Prod.mk.inj same
    exact (settled.inside slot inside).trans (other.inside slot inside).symm
  · exact (settled.outside cpu offset member).trans (other.outside cpu offset member).symm

/-- Empty slots change nothing. -/
theorem Settled.refl {writable : Nat → Word} {slots : List WriteSlot} (registers : Registers)
    (empty : ∀ slot ∈ slots, slot.val = 0 ∧ slot.mask = 0) :
    Settled writable slots registers registers where
  inside slot member := by simp [WriteSlot.pending, empty slot member]
  outside _ _ _ := rfl

namespace Machine.Mirrors

variable {driver : Driver} {writable : Nat → Word} {machine after : Machine}
  {numCpu : Nat} {known : List (Nat × Nat)} {direct : Registers} {reason : MsrError}

theorem addWrite {cpu offset index : Nat} (mirrors : machine.Mirrors numCpu writable known direct)
    (documented : driver.Documented writable) (small : cpu < 2 ^ 16) (bound : offset < 2 ^ 32)
    (done : (Msrio.addWrite driver cpu offset).run machine = .ok index after) :
    after.Mirrors numCpu writable (Msrio.registered known (.addWrite cpu offset)) direct := by
  obtain ⟨formed, added⟩ := mirrors.formed.addWrite documented small bound done
  obtain ⟨new, slots, empty⟩ := added.slots
  refine ⟨formed, added.numCpu.trans mirrors.numCpu, ?_, ?_, ?_⟩
  · rw [added.addresses, mirrors.addresses, Msrio.registered]
  · intro slot member
    rw [added.registers]
    rw [slots] at member
    rcases List.mem_append.mp member with old | fresh
    · exact mirrors.settled.inside slot old
    · obtain ⟨_, absent, val, mask⟩ := empty slot fresh
      have outside := mirrors.settled.outside slot.op.cpu slot.op.msr absent
      simpa [WriteSlot.pending, val, mask] using outside
  · intro other at' absent
    rw [added.registers]
    rw [slots, List.map_append, List.mem_append, not_or] at absent
    exact mirrors.settled.outside other at' absent.1

/-- The index of an accepted adjustment stands for a register. -/
theorem target_eq {batchIdx : Int} {slot : WriteSlot}
    (mirrors : machine.Mirrors numCpu writable known direct) (nonnegative : 0 ≤ batchIdx)
    (found : machine.msrio.writeBatchOp[batchIdx.toNat]? = some slot) :
    Msrio.target known batchIdx = some slot.address := by
  rw [Msrio.target, if_neg (by omega), ← mirrors.addresses, Machine.addresses, List.getElem?_map,
    found]
  rfl

theorem adjust {batchIdx : Int} {rawValue writeMask : Word}
    (mirrors : machine.Mirrors numCpu writable known direct)
    (done : (Msrio.adjust batchIdx rawValue writeMask).run machine = .ok () after) :
    after.Mirrors numCpu writable known
      (Msrio.directly writable known direct (.adjust batchIdx rawValue writeMask)) := by
  obtain ⟨formed, addresses⟩ := mirrors.formed.adjust done
  obtain ⟨nonnegative, _, slot, found, _, rfl⟩ := Msrio.adjust_ok done
  have here := mirrors.target_eq nonnegative found
  have applied : Msrio.directly writable known direct (.adjust batchIdx rawValue writeMask) =
      Msrio.written writable direct slot.op.cpu slot.op.msr rawValue writeMask := by
    simp only [Msrio.directly, here]
    rfl
  have member := List.mem_of_getElem? found
  rw [applied]
  refine ⟨formed, mirrors.numCpu, addresses.trans mirrors.addresses, ?_, ?_⟩
  · intro other changed
    obtain ⟨position, apart, old⟩ | ⟨old, there, rfl⟩ := Table.mem_modify changed
    · have different : (other.op.cpu, other.op.msr) ≠ (slot.op.cpu, slot.op.msr) := by
        intro equal
        have first : machine.addresses[position]? = some other.address := by
          rw [Machine.addresses, List.getElem?_map, old]
          rfl
        have second : machine.addresses[batchIdx.toNat]? = some slot.address := by
          rw [Machine.addresses, List.getElem?_map, found]
          rfl
        obtain ⟨bound, _⟩ := List.getElem?_eq_some_iff.mp first
        exact apart ((List.getElem?_inj bound mirrors.formed.distinct).mp
          (first.trans ((congrArg some equal).trans second.symm)))
      rw [Msrio.written, Registers.set_other different]
      exact mirrors.settled.inside other (List.mem_of_getElem? old)
    · obtain rfl := Option.some.inj (found.symm.trans there)
      have before := mirrors.settled.inside slot member
      simp only [Msrio.WriteSlot.adjust, WriteSlot.pending] at before ⊢
      rw [Msrio.written, Registers.set_self, before, MaskedWrite.select_store,
        MaskedWrite.store_store]
  · intro cpu offset absent
    have unchanged : (cpu, offset) ∉ machine.addresses := addresses ▸ absent
    have different : (cpu, offset) ≠ (slot.op.cpu, slot.op.msr) := fun equal =>
      unchanged (equal ▸ List.mem_map_of_mem member)
    rw [Msrio.written, Registers.set_other different]
    exact mirrors.settled.outside cpu offset unchanged

theorem writeBatch (mirrors : machine.Mirrors numCpu writable known direct)
    (documented : driver.Documented writable)
    (done : (Msrio.writeBatch driver).run machine = .ok () after) :
    after.Mirrors numCpu writable known direct ∧ after.registers = direct := by
  obtain ⟨formed, addresses, sameCpu, settled, empty⟩ := mirrors.formed.writeBatch documented done
  have reached : after.registers = direct := settled.unique mirrors.settled
  refine ⟨⟨formed, sameCpu.trans mirrors.numCpu, addresses.trans mirrors.addresses, ?_⟩, reached⟩
  rw [reached]
  exact .refl direct empty

theorem adjust_returns {batchIdx : Int} {rawValue writeMask : Word}
    (mirrors : machine.Mirrors numCpu writable known direct)
    (proper : Msrio.Proper numCpu writable known (.adjust batchIdx rawValue writeMask)) :
    ∃ after, (Msrio.adjust batchIdx rawValue writeMask).run machine = .ok () after := by
  obtain ⟨obeys, address, here, within⟩ := proper
  rw [Msrio.target] at here
  split at here
  · simp at here
  · rename_i nonnegative
    rw [← mirrors.addresses, Machine.addresses, List.getElem?_map] at here
    obtain ⟨slot, found, rfl⟩ := Option.map_eq_some_iff.mp here
    have wmask := (mirrors.formed.ready slot (List.mem_of_getElem? found)).wmask
    refine Msrio.adjust_exists (by omega) found ?_ obeys
    rw [wmask, Msrio.systemMask]
    split
    · exact within
    · simp

/-- A proper call keeps the batch in step with the direct writes, or fails in a system call. -/
theorem perform {call : Msrio.BatchCall} (mirrors : machine.Mirrors numCpu writable known direct)
    (documented : driver.Documented writable)
    (proper : Msrio.Proper numCpu writable known call) :
    (∀ after, (Msrio.perform driver call).run machine = .ok () after →
      after.Mirrors numCpu writable (Msrio.registered known call)
        (Msrio.directly writable known direct call)) ∧
    ∀ reason after, (Msrio.perform driver call).run machine = .error reason after →
      reason.isSystem = true := by
  cases call with
  | addWrite cpu offset =>
      obtain ⟨inside, small, bound⟩ := proper
      constructor
      · intro after done
        obtain ⟨_, middle, added, last⟩ := Stateful.ok_of_bind done
        obtain rfl : middle = after := by simpa using last
        exact mirrors.addWrite documented small bound added
      · intro reason after thrown
        rcases Stateful.error_of_bind thrown with failed | ⟨_, _, _, last⟩
        · exact Msrio.addWrite_thrown (mirrors.numCpu ▸ inside) failed
        · simp at last
  | adjust batchIdx rawValue writeMask =>
      refine ⟨fun after done => mirrors.adjust done, fun reason after thrown => ?_⟩
      obtain ⟨other, done⟩ := mirrors.adjust_returns proper
      simp [Msrio.perform, done] at thrown
  | writeBatch =>
      exact ⟨fun after done => (mirrors.writeBatch documented done).1,
        fun reason after thrown => Msrio.writeBatch_thrown documented mirrors.formed.ready thrown⟩

theorem performAll {calls : List Msrio.BatchCall}
    (mirrors : machine.Mirrors numCpu writable known direct)
    (documented : driver.Documented writable)
    (proper : Transition.Permitted Msrio.registered (Msrio.Proper numCpu writable) known calls) :
    (∀ after, (Msrio.performAll driver calls).run machine = .ok () after →
      after.Mirrors numCpu writable (Transition.run Msrio.registered known calls)
        (Msrio.allDirectly writable known direct calls)) ∧
    ∀ reason after, (Msrio.performAll driver calls).run machine = .error reason after →
      reason.isSystem = true := by
  induction calls generalizing machine known direct with
  | nil =>
      constructor
      · intro after done
        obtain rfl : machine = after := by simpa [Msrio.performAll] using done
        exact mirrors
      · intro reason after thrown
        simp [Msrio.performAll] at thrown
  | cons call rest ih =>
      obtain ⟨kept, fails⟩ := mirrors.perform documented proper.1
      constructor
      · intro after done
        obtain ⟨_, middle, first, later⟩ := Stateful.ok_of_bind done
        exact (ih (kept middle first) proper.2).1 after later
      · intro reason after thrown
        rcases Stateful.error_of_bind thrown with failed | ⟨_, middle, first, later⟩
        · exact fails reason after failed
        · exact (ih (kept middle first) proper.2).2 reason after later

theorem start (registers : Registers) (numCpu : Nat) (isBatchEnabled : Bool) :
    (Machine.start registers numCpu isBatchEnabled).Mirrors numCpu writable [] registers where
  formed := .start registers numCpu isBatchEnabled
  numCpu := rfl
  addresses := rfl
  settled := .refl registers (by simp [Machine.start, Msrio.new])

end Machine.Mirrors

namespace Msrio

variable {driver : Driver} {writable : Nat → Word} {machine after : Machine}
  {known : List (Nat × Nat)} {calls : List BatchCall} {registers : Registers}

/-- Direct writes that return amount to `allDirectly`. -/
theorem performAllDirect_ok (documented : driver.Documented writable)
    (done : (performAllDirect driver known calls).run machine = .ok () after) :
    after.registers = allDirectly writable known machine.registers calls := by
  induction calls generalizing machine known with
  | nil =>
      obtain rfl : machine = after := by simpa [performAllDirect] using done
      rfl
  | cons call rest ih =>
      obtain ⟨_, middle, first, later⟩ := Stateful.ok_of_bind done
      have written : middle.registers = directly writable known machine.registers call := by
        cases call with
        | addWrite cpu offset =>
            obtain rfl : machine = middle := by simpa [performDirect] using first
            rfl
        | writeBatch =>
            obtain rfl : machine = middle := by simpa [performDirect] using first
            rfl
        | adjust batchIdx rawValue writeMask =>
            cases here : target known batchIdx with
            | none =>
                obtain rfl : machine = middle := by simpa [performDirect, here] using first
                simp [directly, here]
            | some address =>
                simp only [performDirect, here] at first
                obtain ⟨_, rfl⟩ := writeMsr_ok documented first
                simp only [directly, here]
                rfl
      rw [ih later, written]
      rfl

/-- Registers that are not adjusted keep their contents. -/
theorem allDirectly_other {cpu offset : Nat} (absent : (cpu, offset) ∉ adjusted known calls) :
    allDirectly writable known registers calls cpu offset = registers cpu offset := by
  induction calls generalizing known registers with
  | nil => rfl
  | cons call rest ih =>
      cases call with
      | addWrite other at' => exact ih absent
      | writeBatch => exact ih absent
      | adjust batchIdx rawValue writeMask =>
          rw [adjusted, List.mem_append, not_or] at absent
          refine (ih absent.2).trans ?_
          rw [directly]
          cases here : target known batchIdx with
          | none => rfl
          | some address =>
              refine Registers.set_other fun same => absent.1 ?_
              simp [here, same]

theorem performAll_concat (call : BatchCall) :
    (performAll driver (calls ++ [call])).run machine =
      (performAll driver calls >>= fun _ => perform driver call).run machine := by
  induction calls generalizing machine with
  | nil =>
      simp only [List.nil_append, performAll, EStateM.run_bind, EStateM.run_pure]
      cases (perform driver call).run machine <;> rfl
  | cons first rest ih =>
      simp only [List.cons_append, performAll, EStateM.run_bind] at ih ⊢
      cases (perform driver first).run machine with
      | ok _ middle => exact ih
      | error reason middle => rfl

theorem batch_ok {numCpu : Nat} {isBatchEnabled : Bool} (documented : driver.Documented writable)
    (proper : Transition.Permitted registered (Proper numCpu writable) [] calls)
    (done : (performAll driver (calls ++ [.writeBatch])).run
      (Machine.start registers numCpu isBatchEnabled) = .ok () after) :
    after.registers = allDirectly writable [] registers calls := by
  rw [performAll_concat] at done
  obtain ⟨_, middle, adjusted, last⟩ := Stateful.ok_of_bind done
  have start : (Machine.start registers numCpu isBatchEnabled).Mirrors numCpu writable []
      registers := .start registers numCpu isBatchEnabled
  exact (((start.performAll documented proper).1 middle adjusted).writeBatch documented last).2

/-- Batched writes, in both modes and over any number of rounds, leave the
registers as direct writes do, and registers without an adjustment as they were.
They fail in a system call only. -/
theorem batch_eq_direct (documented : driver.Documented writable) (numCpu : Nat)
    (registers : Registers) (calls : List BatchCall)
    (proper : Transition.Permitted registered (Proper numCpu writable) [] calls)
    (isBatchEnabled : Bool) :
    (∀ after, (performAll driver (calls ++ [.writeBatch])).run
        (Machine.start registers numCpu isBatchEnabled) = .ok () after →
      (∀ mode direct, (performAllDirect driver [] calls).run
        (Machine.start registers numCpu mode) = .ok () direct →
          after.registers = direct.registers) ∧
      (∀ mode other, (performAll driver (calls ++ [.writeBatch])).run
        (Machine.start registers numCpu mode) = .ok () other →
          after.registers = other.registers) ∧
      ∀ cpu offset, (cpu, offset) ∉ adjusted [] calls →
        after.registers cpu offset = registers cpu offset) ∧
    ∀ reason after, (performAll driver (calls ++ [.writeBatch])).run
      (Machine.start registers numCpu isBatchEnabled) = .error reason after →
        reason.isSystem = true := by
  constructor
  · intro after done
    have reached := batch_ok documented proper done
    refine ⟨fun mode direct written => ?_, fun mode other batched => ?_,
      fun cpu offset absent => ?_⟩
    · rw [reached, performAllDirect_ok documented written]
      rfl
    · rw [reached, batch_ok documented proper batched]
    · rw [reached, allDirectly_other absent]
  · intro reason after thrown
    have start : (Machine.start registers numCpu isBatchEnabled).Mirrors numCpu writable []
        registers := .start registers numCpu isBatchEnabled
    refine (start.performAll documented ?_).2 reason after thrown
    exact (Transition.permitted_concat _).mpr ⟨proper, trivial⟩

/-- System calls that succeed and do what is documented. -/
def Driver.ideal (writable : Nat → Word) : Driver where
  pread registers cpu offset := some (registers cpu offset)
  pwrite registers cpu offset value :=
    some (registers.set cpu offset (select (writable offset) (registers cpu offset) value))
  ioctl registers ops := some (executeAll writable registers ops)

theorem Driver.ideal_documented (writable : Nat → Word) :
    (Driver.ideal writable).Documented writable where
  pread_eq read := (Option.some.inj read).symm
  pwrite_eq wrote := (Option.some.inj wrote).symm
  ioctl_eq called _ := (Option.some.inj called).symm

/-- Overlapping adjustments of one register in two rounds, and an untouched one. -/
def overlapping : List BatchCall :=
  [.addWrite 1 0x199, .addWrite 0 0x610, .addWrite 1 0x199, .adjust 0 0x1200 0xFF00,
    .adjust 0 0x0340 0x0FF0, .writeBatch, .adjust 0 0x8 0xF]

theorem batch_eq_direct_overlapping :
    ∃ after direct, (performAll (Driver.ideal fun _ => 0xFFFF) (overlapping ++ [.writeBatch])).run
        (Machine.start (fun _ _ => 0x15555) 2 true) = .ok () after ∧
      (performAllDirect (Driver.ideal fun _ => 0xFFFF) [] overlapping).run
        (Machine.start (fun _ _ => 0x15555) 2 false) = .ok () direct ∧
      after.registers = direct.registers ∧ after.registers 1 0x199 = 0x11348 := by
  have documented := Driver.ideal_documented fun _ => 0xFFFF
  have proper : Transition.Permitted registered (Proper 2 fun _ => 0xFFFF) [] overlapping := by
    decide +kernel
  obtain ⟨_, after, batched⟩ := Stateful.ok_of_returns (by decide +kernel :
    Stateful.returns (performAll (Driver.ideal fun _ => 0xFFFF) (overlapping ++ [.writeBatch]))
      (Machine.start (fun _ _ => 0x15555) 2 true) = true)
  obtain ⟨_, direct, written⟩ := Stateful.ok_of_returns (by decide +kernel :
    Stateful.returns (performAllDirect (Driver.ideal fun _ => 0xFFFF) [] overlapping)
      (Machine.start (fun _ _ => 0x15555) 2 false) = true)
  have equal := ((batch_eq_direct documented 2 (fun _ _ => 0x15555) overlapping proper true).1
    after batched).1 false direct written
  refine ⟨after, direct, batched, written, equal, ?_⟩
  rw [batch_ok documented proper batched]
  decide +kernel

end Msrio

end Geopm
