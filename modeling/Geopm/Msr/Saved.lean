import Geopm.Msr.Confined
import Geopm.Msr.Control

namespace Geopm

open Stateful (leaves leaves_of_ok leaves_of_error)

/-! What the methods of saved controls keep. -/

variable {Setting : Type}

/-- A field of a register that can be addressed. -/
structure Field.Addressed (field : Field) : Prop where
  small : field.cpu < 2 ^ 16
  bound : field.offset < 2 ^ 32

/-- The batch gets longer. -/
structure Machine.Grows (machine after : Machine) : Prop where
  addresses : machine.addresses <+: after.addresses
  numCpu : after.msrio.numCpu = machine.msrio.numCpu

theorem Machine.Grows.refl (machine : Machine) : machine.Grows machine := ⟨List.prefix_refl _, rfl⟩

theorem Machine.Grows.trans {first second third : Machine} (before : first.Grows second)
    (after : second.Grows third) : first.Grows third :=
  ⟨before.addresses.trans after.addresses, after.numCpu.trans before.numCpu⟩

theorem Machine.Grows.of_msrio {machine after : Machine} (same : after.msrio = machine.msrio) :
    machine.Grows after :=
  ⟨by rw [Machine.addresses, Machine.addresses, same], by rw [same]⟩

def FieldControl.field (control : FieldControl Setting) : Field :=
  ⟨control.cpu, control.offset, control.mask⟩

/-- The control has saved what its field was. -/
structure FieldControl.Saved (control : FieldControl Setting) (driver : Driver) (base : Registers)
    (machine : Machine) : Prop where
  addressed : control.field.Addressed
  known : control.cpu ≤ machine.msrio.numCpu
  accessible : driver.Accessible control.cpu control.offset
  saved : control.savedMsrValue = base control.cpu control.offset &&& control.mask
  indexed : control.isBatchReady = true →
    machine.addresses[control.adjustIdx.toNat]? = some (control.cpu, control.offset)

def DomainControl.fields (control : DomainControl Setting) : List Field :=
  control.controls.map (·.field)

def DomainControl.Saved (control : DomainControl Setting) (driver : Driver) (base : Registers)
    (machine : Machine) : Prop :=
  ∀ part ∈ control.controls, part.Saved driver base machine

/-- The bits of some fields. -/
def bitsOf (fields : List Field) : Set Bit := {bit | ∃ field ∈ fields, bit ∈ field.bits}

section

variable (driver : Driver) (writable : Nat → Word) (base : Registers) (written pending : Set Bit)

/-- What a method of a control leaves, if the field is among the allowed ones. -/
def FieldControl.Keeps (method : ControlM (FieldControl Setting) Unit) (allowed : Field → Prop) :
    Prop :=
  ∀ {machine : Machine} {control : FieldControl Setting},
    machine.Confined driver writable base written pending → control.Saved driver base machine →
      allowed control.field →
        let after := leaves method (machine, control)
        after.1.Confined driver writable base written pending ∧ machine.Grows after.1 ∧
          after.2.Saved driver base after.1 ∧ after.2.field = control.field

def DomainControl.Keeps (method : ControlM (DomainControl Setting) Unit) (allowed : Field → Prop) :
    Prop :=
  ∀ {machine : Machine} {control : DomainControl Setting},
    machine.Confined driver writable base written pending → control.Saved driver base machine →
      (∀ field ∈ control.fields, allowed field) →
        let after := leaves method (machine, control)
        after.1.Confined driver writable base written pending ∧ machine.Grows after.1 ∧
          after.2.Saved driver base after.1 ∧ after.2.fields = control.fields

end

variable {driver : Driver} {writable : Nat → Word} {base : Registers} {written pending : Set Bit}
  {machine later : Machine}

theorem leaves_onMachine {Object Value : Type} {computation : MsrM Value} {object : Object} :
    leaves (onMachine computation) (machine, object) = (leaves computation machine, object) :=
  Objects.leaves_within

namespace FieldControl

variable {control : FieldControl Setting} {value : Setting}

theorem Saved.mono (saved : control.Saved driver base machine) (grown : machine.Grows later) :
    control.Saved driver base later where
  addressed := saved.addressed
  known := grown.numCpu ▸ saved.known
  accessible := saved.accessible
  saved := saved.saved
  indexed ready := by
    obtain ⟨more, longer⟩ := grown.addresses
    have found := saved.indexed ready
    have inside := (List.getElem?_eq_some_iff.mp found).1
    rw [← longer, List.getElem?_append_left inside]
    exact found

/-- A method that throws before it calls the `MSRIO` object. -/
theorem keeps_of_thrown {method : ControlM (FieldControl Setting) Unit} {reason : GroupError}
    (confined : machine.Confined driver writable base written pending)
    (saved : control.Saved driver base machine)
    (thrown : method.run (machine, control) = .error reason (machine, control)) :
    let after := leaves method (machine, control)
    after.1.Confined driver writable base written pending ∧ machine.Grows after.1 ∧
      after.2.Saved driver base after.1 ∧ after.2.field = control.field := by
  rw [leaves_of_error thrown]
  exact ⟨confined, .refl machine, saved, rfl⟩

/-- A method that only calls the `MSRIO` object. -/
theorem keeps_of_machine {computation : MsrM Unit} {method : ControlM (FieldControl Setting) Unit}
    (saved : control.Saved driver base machine)
    (same : leaves method (machine, control) = (leaves computation machine, control))
    (kept : (leaves computation machine).Confined driver writable base written pending)
    (grown : machine.Grows (leaves computation machine)) :
    let after := leaves method (machine, control)
    after.1.Confined driver writable base written pending ∧ machine.Grows after.1 ∧
      after.2.Saved driver base after.1 ∧ after.2.field = control.field := by
  rw [same]
  exact ⟨kept, grown, saved.mono grown, rfl⟩

theorem keeps_write (documented : driver.Documented writable) (value : Setting) :
    Keeps driver writable base written pending (write driver value) (·.bits ⊆ written) := by
  intro machine control confined saved inside
  cases encoded : control.encode value with
  | error reason =>
      exact @keeps_of_thrown _ _ _ _ _ _ _ _ _ reason confined saved (by simp [write, encoded])
  | ok rawValue =>
      have kept := @Machine.Confined.writeMsr _ _ _ _ _ _ _ _ rawValue _ confined documented inside
      refine keeps_of_machine saved ?_ kept.1 (.of_msrio kept.2)
      rw [← leaves_onMachine]
      simp only [leaves, write, EStateM.run_bind, EStateM.run_get, encoded]

theorem keeps_adjust (value : Setting) :
    Keeps driver writable base written pending (adjust value) (·.bits ⊆ pending) := by
  intro machine control confined saved inside
  by_cases ready : control.isBatchReady = true
  · cases encoded : control.encode value with
    | error reason =>
        exact @keeps_of_thrown _ _ _ _ _ _ _ _ _ reason confined saved (by
          simp [adjust, ready, encoded])
    | ok rawValue =>
        obtain ⟨kept, addresses, numCpu⟩ := @Machine.Confined.adjust _ _ _ _ _ _ _ _ rawValue _ _
          confined (saved.indexed ready) inside
        refine keeps_of_machine saved ?_ kept ⟨by rw [addresses], numCpu⟩
        rw [← leaves_onMachine]
        simp only [leaves, adjust, EStateM.run_bind, EStateM.run_get, ready, encoded,
          Bool.not_true, Bool.false_eq_true, if_false]
  · exact @keeps_of_thrown _ _ _ _ _ _ _ _ _ GroupError.notBatchReady confined saved (by
      simp [adjust, ready])

theorem restore_ok (documented : driver.Documented writable)
    (confined : machine.Confined driver writable base written pending)
    (saved : control.Saved driver base machine) :
    ∃ after, (restore driver).run (machine, control) = .ok () (after, control) ∧
      after.Confined driver writable base written pending ∧ after.msrio = machine.msrio ∧
      difference base after.registers ⊆ difference base machine.registers \ control.field.bits := by
  have obeys : control.savedMsrValue &&& control.mask = control.savedMsrValue := by
    rw [saved.saved, BitVec.and_assoc, BitVec.and_self]
  have known : ¬ machine.msrio.numCpu < control.cpu := Nat.not_lt.mpr saved.known
  obtain ⟨value, read⟩ := Option.isSome_iff_exists.mp (saved.accessible.pread machine.registers)
  obtain ⟨registers, wrote⟩ := Option.isSome_iff_exists.mp (saved.accessible.pwrite machine.registers
    (MaskedWrite.store control.mask control.savedMsrValue value))
  have done : (Msrio.writeMsr driver control.cpu control.offset control.savedMsrValue
      control.mask).run machine = .ok () (machine.changed registers) := by
    rw [Msrio.writeMsr_eq, if_neg (not_not.mpr obeys), Msrio.readMsr_eq, if_neg known]
    simp only [read, wrote]
  have ran : (restore driver).run (machine, control) = .ok () (machine.changed registers, control) := by
    simp only [restore, EStateM.run_bind, EStateM.run_get]
    exact Objects.within_returned done
  rw [saved.saved] at done
  exact ⟨_, ran, confined.restoreMsr documented done⟩

theorem keeps_setupBatch (documented : driver.Documented writable) (steady : driver.Steady) :
    @Keeps Setting driver writable base written pending (setupBatch driver) fun _ => True := by
  intro machine control confined saved _
  by_cases ready : control.isBatchReady = true
  · have done : (setupBatch driver).run (machine, control) = .ok () (machine, control) := by
      simp [setupBatch, ready]
    rw [leaves_of_ok done]
    exact ⟨confined, .refl machine, saved, rfl⟩
  · by_cases inside : control.cpu < machine.msrio.numCpu
    · obtain ⟨index, after, added⟩ := @Msrio.addWrite_exists _ _ machine _ _ documented steady
        saved.addressed.bound saved.accessible inside
      have kept := confined.addWrite documented saved.addressed.small saved.addressed.bound
        saved.accessible added
      obtain ⟨formed, more⟩ := confined.formed.addWrite documented saved.addressed.small
        saved.addressed.bound added
      have grown : machine.Grows after := by
        refine ⟨?_, more.numCpu⟩
        rw [more.addresses]
        split
        · exact List.prefix_refl _
        · exact List.prefix_append _ _
      have done : (setupBatch driver).run (machine, control) =
          .ok () (after, { control with adjustIdx := index, isBatchReady := true }) := by
        have called : (onMachine (Msrio.addWrite driver control.cpu control.offset)).run
            (machine, control) = .ok index (after, control) :=
          Objects.within_returned added
        simp [setupBatch, ready, called]
      rw [leaves_of_ok done]
      exact ⟨kept, grown, { saved.mono grown with indexed := fun _ => more.index }, rfl⟩
    · have added : (Msrio.addWrite driver control.cpu control.offset).run machine =
          .error (.cpuOutOfRange control.cpu) machine := by
        simp [Msrio.addWrite, Nat.not_lt.mp inside]
      have called : (onMachine (Msrio.addWrite driver control.cpu control.offset)).run
          (machine, control) = .error (.msr (.cpuOutOfRange control.cpu)) (machine, control) :=
        Objects.within_thrown added
      exact @keeps_of_thrown _ _ _ _ _ _ _ _ _ (.msr (.cpuOutOfRange control.cpu)) confined saved (by
        simp [setupBatch, ready, called])

end FieldControl

namespace DomainControl

variable {control : DomainControl Setting} {allowed : Field → Prop}

theorem Saved.mono (saved : control.Saved driver base machine) (grown : machine.Grows later) :
    control.Saved driver base later := fun part member => (saved part member).mono grown

theorem keeps_onControls {method : ControlM (FieldControl Setting) Unit}
    (kept : FieldControl.Keeps driver writable base written pending method allowed) :
    Keeps driver writable base written pending (onControls method) allowed := by
  intro machine control confined saved inside
  obtain ⟨after, grown, sound, labels⟩ := @Objects.leaves_onEach GroupError _ _ _ method machine
    (fun state => state.Confined driver writable base written pending) Machine.Grows
    (fun state part => part.Saved driver base state ∧ allowed part.field) FieldControl.field
    Machine.Grows.refl (fun first second => first.trans second)
    (fun grown sound => ⟨sound.1.mono grown, sound.2⟩)
    (fun confined sound => by
      obtain ⟨after, grown, kept, same⟩ := kept confined sound.1 sound.2
      exact ⟨after, grown, ⟨kept, same ▸ sound.2⟩, same⟩)
    control.controls confined
    (fun part member => ⟨saved part member, inside _ (List.mem_map_of_mem member)⟩)
  rw [onControls, Objects.leaves_within]
  exact ⟨after, grown, fun part member => (sound part member).1, labels⟩

theorem keeps_write (documented : driver.Documented writable) (value : Setting) :
    Keeps driver writable base written pending (write driver value) (·.bits ⊆ written) :=
  keeps_onControls (FieldControl.keeps_write documented value)

theorem keeps_adjust (value : Setting) :
    Keeps driver writable base written pending (adjust value) (·.bits ⊆ pending) := by
  intro machine control confined saved inside
  by_cases ready : control.isBatchReady = true
  · have same : leaves (adjust value) (machine, control) =
        leaves (onControls (FieldControl.adjust value)) (machine, control) := by
      simp [leaves, adjust, ready]
    rw [same]
    exact keeps_onControls (FieldControl.keeps_adjust value) confined saved inside
  · have thrown : (adjust value).run (machine, control) = .error .notBatchReady (machine, control) := by
      simp [adjust, ready]
    rw [leaves_of_error thrown]
    exact ⟨confined, .refl machine, saved, rfl⟩

theorem keeps_setupBatch (documented : driver.Documented writable) (steady : driver.Steady) :
    @Keeps Setting driver writable base written pending (setupBatch driver) fun _ => True := by
  intro machine control confined saved inside
  by_cases ready : control.isBatchReady = true
  · have done : (setupBatch driver).run (machine, control) = .ok () (machine, control) := by
      simp [setupBatch, ready]
    rw [leaves_of_ok done]
    exact ⟨confined, .refl machine, saved, rfl⟩
  · have kept := keeps_onControls (FieldControl.keeps_setupBatch documented steady) confined saved
      inside
    cases ran : (onControls (FieldControl.setupBatch driver)).run (machine, control) with
    | error reason after =>
        have thrown : (setupBatch driver).run (machine, control) = .error reason after := by
          simp [setupBatch, ready, ran]
        rw [leaves_of_error ran] at kept
        rwa [leaves_of_error thrown]
    | ok _ after =>
        have done : (setupBatch driver).run (machine, control) =
            .ok () (after.1, { after.2 with isBatchReady := true }) := by
          simp [setupBatch, ready, ran]
        rw [leaves_of_ok ran] at kept
        rwa [leaves_of_ok done]

/-- The fields of a saved control are written back one after the other. -/
theorem restore_ok (documented : driver.Documented writable)
    (confined : machine.Confined driver writable base written pending)
    (saved : control.Saved driver base machine) :
    ∃ after, (restore driver).run (machine, control) = .ok () (after, control) ∧
      after.Confined driver writable base written pending ∧ after.msrio = machine.msrio ∧
      difference base after.registers ⊆ difference base machine.registers \ bitsOf control.fields := by
  obtain ⟨controls, isBatchReady⟩ := control
  suffices each : ∃ after, (Objects.onEach (FieldControl.restore driver)).run (machine, controls) =
      .ok () (after, controls) ∧ after.Confined driver writable base written pending ∧
      after.msrio = machine.msrio ∧ difference base after.registers ⊆
        difference base machine.registers \ bitsOf (controls.map FieldControl.field) by
    obtain ⟨after, ran, kept⟩ := each
    refine ⟨after, ?_, kept⟩
    rw [restore, onControls]
    exact Objects.within_ok.mpr ⟨_, ran, rfl⟩
  induction controls generalizing machine with
  | nil =>
      refine ⟨machine, Objects.onEach_nil, confined, rfl, ?_⟩
      intro bit changed
      exact ⟨changed, by simp [bitsOf]⟩
  | cons part rest ih =>
      obtain ⟨middle, first, kept, same, shrinks⟩ :=
        FieldControl.restore_ok documented confined (saved part (by simp))
      obtain ⟨after, others, confined, later, smaller⟩ := ih kept fun other member =>
        (saved other (List.mem_cons_of_mem part member)).mono (.of_msrio same)
      refine ⟨after, ?_, confined, later.trans same, ?_⟩
      · rw [Objects.onEach_cons, first]
        simp only [others]
      · intro bit changed
        obtain ⟨before, outside⟩ := smaller changed
        obtain ⟨start, apart⟩ := shrinks before
        refine ⟨start, ?_⟩
        rintro ⟨field, member, inside⟩
        rcases List.mem_cons.mp member with rfl | old
        · exact apart inside
        · exact outside ⟨field, old, inside⟩

end DomainControl

end Geopm
