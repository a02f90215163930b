import Geopm.Library.Run
import Geopm.Msr.Batch
import Geopm.Msr.SaveControl

namespace Geopm

open Stateful (leaves leaves_of_ok leaves_of_error leaves_bind)

/-! Whatever is called between `save_control` and `restore_control`, the registers are
restored. -/

namespace MsrioGroup

variable {Setting : Type} {driver : Driver} {platform : Platform} {writable : Nat → Word}
  {base : Registers} {bits : Set Bit} {group : MsrioGroup Setting}

section

variable [Zero Setting] [One Setting]

theorem Sound.run (sound : group.Sound driver writable base bits)
    (documented : driver.Documented writable) (steady : driver.Steady)
    (calls : List (Call Setting)) :
    Keeps driver writable base (bits ∪ writtenBy driver platform group calls) group
      (Transition.run (MsrioGroup.call driver platform) group calls) := by
  induction calls generalizing group bits with
  | nil => exact ⟨sound.mono Set.subset_union_left, .refl group⟩
  | cons action rest ih =>
      have wider : group.Sound driver writable base (bits ∪ written platform group action) :=
        sound.mono Set.subset_union_left
      have one := wider.call documented steady action Set.subset_union_right
      have others := ih one.sound
      rw [Set.union_assoc] at others
      exact ⟨others.sound, others.alike.trans one.alike⟩

omit [Zero Setting] [One Setting] in
theorem target_subset (platform : Platform) (group : MsrioGroup Setting) (controlName : String)
    (domainType domainIdx : Int) :
    target platform group controlName domainType domainIdx ⊆ group.bits group.available := by
  rintro bit ⟨control, found, under⟩
  exact ⟨control, mem_available found, under⟩

/-- Only controls that have a name are written. -/
theorem Sound.written_subset (sound : group.Sound driver writable base bits)
    (action : Call Setting) : written platform group action ⊆ group.bits group.available := by
  have checks : ∀ controlName, checked platform group controlName ⊆ group.bits group.available := by
    intro controlName bit inside
    unfold checked at inside
    split at inside
    · obtain ⟨cpuIdx, _, entry, _, under⟩ := inside
      exact target_subset platform group _ _ _ under
    · exact absurd inside (Set.notMem_empty bit)
  have limits : ∀ controlName domainType domainIdx,
      limit platform group controlName domainType domainIdx ⊆ group.bits group.available := by
    intro controlName domainType domainIdx bit inside
    unfold limit at inside
    split at inside
    · exact target_subset platform group _ _ _ inside
    · exact absurd inside (Set.notMem_empty bit)
  cases action with
  | writeControl controlName domainType domainIdx setting =>
      exact Set.union_subset (Set.union_subset (checks _) (limits _ _ _))
        (target_subset platform group _ _ _)
  | pushControl controlName domainType domainIdx =>
      simp only [written]
      split
      · exact Set.empty_subset _
      · exact Set.union_subset (checks _) (limits _ _ _)
  | adjust controlIdx setting => exact Set.empty_subset _
  | writeBatch =>
      simp only [written]
      split
      · exact Set.empty_subset _
      · rintro bit ⟨control, member, under⟩
        exact ⟨control, sound.pushed control member, under⟩

theorem Sound.writtenBy_subset (sound : group.Sound driver writable base bits)
    (documented : driver.Documented writable) (steady : driver.Steady)
    (calls : List (Call Setting)) :
    writtenBy driver platform group calls ⊆ group.bits group.available := by
  induction calls generalizing group bits with
  | nil => exact Set.empty_subset _
  | cons action rest ih =>
      have wider : group.Sound driver writable base (bits ∪ written platform group action) :=
        sound.mono Set.subset_union_left
      have one := wider.call documented steady action Set.subset_union_right
      have later := ih one.sound
      rw [one.alike.bits, one.alike.listed] at later
      exact Set.union_subset (sound.written_subset action) later

end

/-- The controls are written back one after the other. -/
theorem Sound.restore {controls : List Nat} (sound : group.Sound driver writable base bits)
    (documented : driver.Documented writable)
    (members : ∀ control ∈ controls, control ∈ group.available) :
    ∃ after, (controls.forM fun control => onControl control (DomainControl.restore driver)).run
        group = .ok () after ∧ Keeps driver writable base bits group after ∧
      difference base after.machine.registers ⊆
        difference base group.machine.registers \ group.bits controls := by
  induction controls generalizing group with
  | nil =>
      refine ⟨group, rfl, ⟨sound, .refl group⟩, ?_⟩
      rw [bits_nil, Set.sdiff_empty]
  | cons control rest ih =>
      obtain ⟨machine, ran, confined, same, shrinks⟩ := DomainControl.restore_ok documented
        sound.confined (sound.saved control (members control (by simp)))
      have first : (onControl control (DomainControl.restore driver)).run group =
          .ok () { group with machine } := by
        refine Objects.within_ok.mpr ⟨_, ran, ?_⟩
        simp only [Function.update_eq_self]
      have grown : group.machine.Grows machine := .of_msrio same
      have next : ({ group with machine } : MsrioGroup Setting).Sound driver writable base bits :=
        ⟨confined, fun other member => (sound.saved other member).mono grown, sound.pushed⟩
      obtain ⟨after, others, kept, smaller⟩ :=
        ih next fun other member => members other (List.mem_cons_of_mem control member)
      refine ⟨after, ?_, ⟨kept.sound, ⟨kept.alike.available, kept.alike.fields⟩⟩, ?_⟩
      · rw [List.forM_eq_forM, List.forM_cons, EStateM.run_bind, first]
        exact others
      · intro bit changed
        obtain ⟨before, outside⟩ := smaller changed
        obtain ⟨start, apart⟩ := shrinks before
        refine ⟨start, ?_⟩
        rintro ⟨other, member, under⟩
        rcases List.mem_cons.mp member with rfl | old
        · exact apart under
        · exact outside ⟨other, old, under⟩

theorem Sound.restoreInfos {infos : List ControlInfo}
    (sound : group.Sound driver writable base bits) (documented : driver.Documented writable)
    (members : ∀ control ∈ infos.flatMap (·.controls), control ∈ group.available) :
    ∃ after, (infos.forM fun info => info.controls.forM fun control =>
        onControl control (DomainControl.restore driver)).run group = .ok () after ∧
      after.Sound driver writable base bits ∧ difference base after.machine.registers ⊆
        difference base group.machine.registers \ group.bits (infos.flatMap (·.controls)) := by
  induction infos generalizing group with
  | nil =>
      refine ⟨group, rfl, sound, ?_⟩
      rw [List.flatMap_nil, bits_nil, Set.sdiff_empty]
  | cons info rest ih =>
      rw [List.flatMap_cons] at members ⊢
      obtain ⟨middle, first, kept, shrinks⟩ := sound.restore documented fun control member =>
        members control (List.mem_append_left _ member)
      obtain ⟨after, others, last, smaller⟩ := ih kept.sound fun control member => by
        rw [kept.alike.listed]
        exact members control (List.mem_append_right _ member)
      refine ⟨after, ?_, last, ?_⟩
      · rw [List.forM_eq_forM, List.forM_cons, EStateM.run_bind, first]
        exact others
      · rw [kept.alike.bits] at smaller
        intro bit changed
        obtain ⟨before, outside⟩ := smaller changed
        obtain ⟨start, apart⟩ := shrinks before
        refine ⟨start, ?_⟩
        rintro ⟨control, member, under⟩
        rcases List.mem_append.mp member with here | later
        · exact apart ⟨control, here, under⟩
        · exact outside ⟨control, later, under⟩

/-- Nothing is left changed when all that was written is restored. -/
theorem Sound.restoreControl (sound : group.Sound driver writable base bits)
    (documented : driver.Documented writable) (inside : bits ⊆ group.bits group.available) :
    ∃ restored, (restoreControl driver).run group = .ok () restored ∧
      restored.machine.registers = base ∧
      restored.machine.Stays base (bits ∩ writableBits writable) := by
  obtain ⟨restored, ran, kept, shrinks⟩ := sound.restoreInfos documented fun _ member => member
  refine ⟨restored, ran, eq_of_difference fun bit changed => ?_, kept.confined.stays⟩
  have changes : difference base group.machine.registers ⊆ bits ∩ writableBits writable :=
    sound.confined.stays _ (by simp)
  obtain ⟨before, outside⟩ := shrinks changed
  exact absurd (inside (changes before).1) outside

/-- The controls are as constructed when they are saved. -/
theorem Saving.new {registers : Registers} {numCpu : Nat} {isBatchEnabled doCheckRaplLock : Bool}
    {controls : Nat → DomainControl Setting} {controlAvailable : List ControlInfo}
    (fresh : ∀ info ∈ controlAvailable, ∀ control ∈ info.controls, (controls control).Fresh) :
    let group := MsrioGroup.new (Machine.start registers numCpu isBatchEnabled) controls
      controlAvailable doCheckRaplLock
    Saving driver writable registers group [] group where
  untouched := by
    refine ⟨.start registers numCpu isBatchEnabled, ?_, by simp [MsrioGroup.new, Machine.start,
      Msrio.new], by simp [MsrioGroup.new, Machine.start, Msrio.new, Machine.addresses]⟩
    intro contents member
    obtain rfl : contents = registers := by simpa [MsrioGroup.new, Machine.start] using member
    rw [difference_self]
    exact Set.empty_subset _
  fresh control member := by
    obtain ⟨info, listed, inside⟩ := List.mem_flatMap.mp member
    exact fresh info listed control inside
  alike := .refl _
  pushed := rfl
  saved := by simp

/-- Between `save_control` and `restore_control` only bits of controls that were written
change, and `restore_control` changes them back. -/
theorem save_restore [Zero Setting] [One Setting] (documented : driver.Documented writable)
    (steady : driver.Steady) (platform : Platform) (registers : Registers) (numCpu : Nat)
    (isBatchEnabled doCheckRaplLock : Bool) (controls : Nat → DomainControl Setting)
    (controlAvailable : List ControlInfo)
    (fresh : ∀ info ∈ controlAvailable, ∀ control ∈ info.controls, (controls control).Fresh) :
    ∃ saved, (saveControl driver).run (.new (Machine.start registers numCpu isBatchEnabled) controls
        controlAvailable doCheckRaplLock) = .ok () saved ∧
      ∀ calls, (Transition.run (call driver platform) saved calls).machine.Stays registers
          (writtenBy driver platform saved calls) ∧
        ∃ restored, (restoreControl driver).run (Transition.run (call driver platform) saved calls) =
            .ok () restored ∧
          restored.machine.registers = registers ∧
          restored.machine.Stays registers (writtenBy driver platform saved calls) := by
  obtain ⟨saved, ran, sound⟩ := (Saving.new fresh).saveControl documented steady
  refine ⟨saved, ran, fun calls => ?_⟩
  have kept := @Sound.run _ _ platform _ _ _ _ _ _ sound documented steady calls
  rw [Set.empty_union] at kept
  have inside := @Sound.writtenBy_subset _ _ platform _ _ _ _ _ _ sound documented steady calls
  obtain ⟨restored, done, same, stays⟩ := kept.sound.restoreControl documented (by
    rwa [kept.alike.bits, kept.alike.listed])
  have within : ∀ {machine : Machine},
      machine.Stays registers (writtenBy driver platform saved calls ∩ writableBits writable) →
        machine.Stays registers (writtenBy driver platform saved calls) :=
    fun stays contents member => (stays contents member).trans Set.inter_subset_left
  exact ⟨within kept.sound.confined.stays, restored, done, same, within stays⟩

/-- One package of one CPU, with the fields by name, offset and bits. -/
def onePackageFields : List (String × Int × Nat × Nat × Nat) :=
  [("MSR::FIXED_CTR_CTRL:EN0_OS", 3, 0x38D, 0, 0), ("MSR::FIXED_CTR_CTRL:EN0_PMI", 3, 0x38D, 3, 3),
    ("MSR::FIXED_CTR_CTRL:EN0_USR", 3, 0x38D, 1, 1), ("MSR::FIXED_CTR_CTRL:EN1_OS", 3, 0x38D, 4, 4),
    ("MSR::FIXED_CTR_CTRL:EN1_PMI", 3, 0x38D, 7, 7), ("MSR::FIXED_CTR_CTRL:EN1_USR", 3, 0x38D, 5, 5),
    ("MSR::FIXED_CTR_CTRL:EN2_OS", 3, 0x38D, 8, 8), ("MSR::FIXED_CTR_CTRL:EN2_PMI", 3, 0x38D, 11, 11),
    ("MSR::FIXED_CTR_CTRL:EN2_USR", 3, 0x38D, 9, 9),
    ("MSR::PERF_GLOBAL_CTRL:EN_FIXED_CTR0", 3, 0x38F, 32, 32),
    ("MSR::PERF_GLOBAL_CTRL:EN_FIXED_CTR1", 3, 0x38F, 33, 33),
    ("MSR::PERF_GLOBAL_CTRL:EN_FIXED_CTR2", 3, 0x38F, 34, 34),
    ("MSR::PERF_GLOBAL_OVF_CTRL:CLEAR_OVF_FIXED_CTR0", 3, 0x390, 32, 32),
    ("MSR::PERF_GLOBAL_OVF_CTRL:CLEAR_OVF_FIXED_CTR1", 3, 0x390, 33, 33),
    ("MSR::PERF_GLOBAL_OVF_CTRL:CLEAR_OVF_FIXED_CTR2", 3, 0x390, 34, 34),
    ("MSR::PKG_POWER_LIMIT:PL1_LIMIT_ENABLE", 1, 0x610, 15, 15),
    ("MSR::PKG_POWER_LIMIT:PL1_POWER_LIMIT", 1, 0x610, 0, 14)]

/-- A setting is encoded as it is. -/
def onePackageControls (control : Nat) : DomainControl Nat where
  controls := (onePackageFields[control]?.map fun (_, _, offset, beginBit, endBit) =>
    .new 0 offset beginBit endBit fun setting => .ok (BitVec.ofNat 64 setting)).toList
  isBatchReady := false

def onePackage : MsrioGroup Nat :=
  .new (Machine.start (fun _ offset => if offset = 0x610 then 0x4000 else 0) 1 true) onePackageControls
    ((onePackageFields.zipIdx.map fun ((name, domain, _), control) => ⟨name, [control], domain⟩) ++
      [⟨"POWER_PACKAGE_LIMIT", [16], 1⟩]) true

def onePackagePlatform : Platform := ⟨1, fun _ => 1, some [⟨0, 0x610, 1 <<< 63⟩]⟩

theorem executeAll_err (writable : Nat → Word) (registers : Registers) (ops : List BatchOp) :
    ∀ op ∈ (executeAll writable registers ops).2, op.err = 0 := by
  induction ops generalizing registers with
  | nil => simp [executeAll]
  | cons op rest ih =>
      intro other member
      simp only [executeAll, List.mem_cons] at member
      rcases member with same | later
      · rw [same, BatchOp.execute]
        split <;> rfl
      · exact ih _ other later

theorem ideal_steady (writable : Nat → Word) : (Msrio.Driver.ideal writable).Steady where
  pread _ _ := rfl
  pwrite _ _ _ := rfl
  ioctl registers ops _ := ⟨_, _, rfl, executeAll_err writable registers ops⟩

/-- The limit is written, and then written and disabled in a batch. -/
def onePackageCalls : List (Call Nat) :=
  [.writeControl "POWER_PACKAGE_LIMIT" 1 0 100,
    .pushControl "MSR::PKG_POWER_LIMIT:PL1_POWER_LIMIT" 1 0,
    .pushControl "MSR::PKG_POWER_LIMIT:PL1_LIMIT_ENABLE" 1 0, .adjust 0 200, .adjust 1 0, .writeBatch]

theorem save_restore_onePackage : ∃ saved restored,
    (saveControl (Msrio.Driver.ideal fun _ => BitVec.allOnes 64)).run onePackage = .ok () saved ∧
      (Transition.run (call (Msrio.Driver.ideal fun _ => BitVec.allOnes 64) onePackagePlatform) saved
        onePackageCalls).machine.registers 0 0x610 = 200 ∧
      (restoreControl (Msrio.Driver.ideal fun _ => BitVec.allOnes 64)).run
        (Transition.run (call (Msrio.Driver.ideal fun _ => BitVec.allOnes 64) onePackagePlatform)
          saved onePackageCalls) = .ok () restored ∧
      restored.machine.registers = onePackage.machine.registers := by
  have fresh : ∀ info ∈ onePackage.controlAvailable, ∀ control ∈ info.controls,
      (onePackageControls control).Fresh := by
    intro info listed control member part inside
    simp only [onePackageControls, Option.mem_toList, Option.map_eq_some_iff] at inside
    obtain ⟨⟨name, domain, offset, beginBit, endBit⟩, found, rfl⟩ := inside
    have small : ∀ entry ∈ onePackageFields, entry.2.2.1 < 2 ^ 32 := by decide
    exact ⟨⟨Nat.two_pow_pos 16, small _ (List.mem_of_getElem? found)⟩, rfl⟩
  obtain ⟨saved, ran, all⟩ := save_restore (Msrio.Driver.ideal_documented fun _ => BitVec.allOnes 64)
    (ideal_steady _) onePackagePlatform onePackage.machine.registers 1 true true onePackageControls
    onePackage.controlAvailable fresh
  obtain ⟨_, restored, done, same, _⟩ := all onePackageCalls
  refine ⟨saved, restored, ran, ?_, done, same⟩
  rw [← leaves_of_ok ran]
  decide +kernel

/-- The first write of a power limit enables the fixed counters. -/
theorem write_enables_counters :
    let saved := leaves (saveControl (Msrio.Driver.ideal fun _ => BitVec.allOnes 64)) onePackage
    ¬ (call (Msrio.Driver.ideal fun _ => BitVec.allOnes 64) onePackagePlatform saved
        (.writeControl "POWER_PACKAGE_LIMIT" 1 0 100)).machine.Stays saved.machine.registers
      (limit onePackagePlatform saved "POWER_PACKAGE_LIMIT" 1 0 ∪
        target onePackagePlatform saved "POWER_PACKAGE_LIMIT" 1 0) := by
  intro saved stays
  have changed : (0, 0x38F, 32) ∈ difference saved.machine.registers
      (call (Msrio.Driver.ideal fun _ => BitVec.allOnes 64) onePackagePlatform saved
        (.writeControl "POWER_PACKAGE_LIMIT" 1 0 100)).machine.registers := by
    rw [mem_difference]
    decide +kernel
  have fields : ∀ control ∈ [15, 16], ∀ field ∈ (saved.controls control).fields,
      field.offset = 0x610 := by
    decide +kernel
  have power : find onePackagePlatform saved "POWER_PACKAGE_LIMIT" 1 0 = .ok 16 := by
    decide +kernel
  have enable : find onePackagePlatform saved "MSR::PKG_POWER_LIMIT:PL1_LIMIT_ENABLE" 1 0 =
      .ok 15 := by
    decide +kernel
  obtain inside | inside := stays _ (by simp) changed
  · rw [limit, if_pos rfl] at inside
    obtain ⟨control, found, field, member, _, offset, _⟩ := inside
    rw [enable] at found
    obtain rfl := Except.ok.inj found
    rw [fields 15 (by simp) field member] at offset
    simp at offset
  · obtain ⟨control, found, field, member, _, offset, _⟩ := inside
    rw [power] at found
    obtain rfl := Except.ok.inj found
    rw [fields 16 (by simp) field member] at offset
    simp at offset

end MsrioGroup

end Geopm
