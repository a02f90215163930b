import Geopm.Msr.Calls

namespace Geopm

open Stateful (leaves leaves_of_ok leaves_of_error leaves_bind)

/-! `save_control`, which changes no register. -/

variable {Setting : Type} {driver : Driver} {writable : Nat → Word} {base : Registers}
  {machine : Machine} {flag : Prop}

/-- As constructed, but for the value that was saved. -/
structure FieldControl.Fresh (control : FieldControl Setting) : Prop where
  addressed : control.field.Addressed
  unready : control.isBatchReady = false

/-- The control has read what its field was. -/
structure FieldControl.Read (control : FieldControl Setting) (base : Registers) : Prop where
  fresh : control.Fresh
  saved : control.savedMsrValue = base control.cpu control.offset &&& control.mask

/-- No register was changed. -/
def Machine.Untouched (machine : Machine) (driver : Driver) (writable : Nat → Word)
    (base : Registers) : Prop := machine.Confined driver writable base ∅ ∅

theorem Machine.Untouched.registers (untouched : machine.Untouched driver writable base) :
    machine.registers = base := by
  have same : difference base machine.registers ⊆ ∅ ∩ writableBits writable :=
    untouched.stays _ (by simp)
  exact eq_of_difference (same.trans Set.inter_subset_left)

/-- A register that was written once can be written again. -/
theorem Msrio.accessible_of_writeMsr {cpu offset : Nat} {rawValue writeMask : Word}
    {after : Machine} (steady : driver.Steady)
    (done : (writeMsr driver cpu offset rawValue writeMask).run machine = .ok () after) :
    driver.Accessible cpu offset ∧ cpu ≤ machine.msrio.numCpu := by
  rw [writeMsr_eq] at done
  split at done
  · simp at done
  · rw [readMsr_eq] at done
    by_cases beyond : machine.msrio.numCpu < cpu
    · simp [beyond] at done
    · cases read : driver.pread machine.registers cpu offset with
      | none => simp [beyond, read] at done
      | some value =>
          cases wrote : driver.pwrite machine.registers cpu offset
              (MaskedWrite.store writeMask rawValue value) with
          | none => simp [beyond, read, wrote] at done
          | some registers =>
              exact ⟨⟨steady.pread (Option.isSome_iff_exists.mpr ⟨_, read⟩),
                steady.pwrite (Option.isSome_iff_exists.mpr ⟨_, wrote⟩)⟩, Nat.not_lt.mp beyond⟩

namespace FieldControl

variable {control : FieldControl Setting}

theorem save_eq (control : FieldControl Setting) : (save driver).run (machine, control) =
    match (Msrio.readMsr driver control.cpu control.offset).run machine with
    | .error reason after => .error (.msr reason) (after, control)
    | .ok value after =>
        .ok () (after, { control with savedMsrValue := value &&& control.mask }) := by
  cases ran : (Msrio.readMsr driver control.cpu control.offset).run machine with
  | error reason after =>
      have called : (onMachine (Msrio.readMsr driver control.cpu control.offset)).run
          (machine, control) = .error (.msr reason) (after, control) := Objects.within_thrown ran
      simp [save, called]
  | ok value after =>
      have called : (onMachine (Msrio.readMsr driver control.cpu control.offset)).run
          (machine, control) = .ok value (after, control) := Objects.within_returned ran
      simp [save, called]

theorem save_ok {after : Machine × FieldControl Setting} (documented : driver.Documented writable)
    (untouched : machine.Untouched driver writable base) (fresh : control.Fresh)
    (done : (save driver).run (machine, control) = .ok () after) :
    after.1 = machine ∧ after.2.Read base ∧ after.2.field = control.field ∧
      (control.Saved driver base machine → after.2.Saved driver base machine) := by
  rw [save_eq] at done
  cases ran : (Msrio.readMsr driver control.cpu control.offset).run machine with
  | error reason after => simp [ran] at done
  | ok value next =>
      obtain ⟨rfl, rfl⟩ := Msrio.readMsr_ok documented ran
      simp only [ran, EStateM.Result.ok.injEq, true_and] at done
      rw [← done, untouched.registers]
      exact ⟨rfl, ⟨⟨fresh.addressed, fresh.unready⟩, rfl⟩, rfl, fun saved =>
        ⟨saved.addressed, saved.known, saved.accessible, rfl, saved.indexed⟩⟩

/-- A control keeps what it has saved, whether it can be read again or not. -/
theorem save_leaves (documented : driver.Documented writable)
    (untouched : machine.Untouched driver writable base) (fresh : control.Fresh) :
    let after := leaves (save driver) (machine, control)
    after.1 = machine ∧ after.2.Fresh ∧ after.2.field = control.field ∧
      (control.Saved driver base machine → after.2.Saved driver base machine) := by
  cases ran : (save driver).run (machine, control) with
  | ok _ after =>
      rw [leaves_of_ok ran]
      obtain ⟨same, read, field, kept⟩ := save_ok documented untouched fresh ran
      exact ⟨same, read.fresh, field, kept⟩
  | error reason after =>
      rw [leaves_of_error ran]
      rw [save_eq] at ran
      have same := @MsrioGroup.readMsr_leaves driver control.cpu control.offset machine
      cases read : (Msrio.readMsr driver control.cpu control.offset).run machine with
      | ok value next => simp [read] at ran
      | error reason next =>
          rw [leaves_of_error read] at same
          simp only [read, EStateM.Result.error.injEq] at ran
          rw [← ran.2, same]
          exact ⟨rfl, fresh, rfl, id⟩

/-- What was read is written back, after which the control can be restored at any time. -/
theorem restore_read (documented : driver.Documented writable) (steady : driver.Steady)
    (untouched : machine.Untouched driver writable base) (read : control.Read base) :
    let after := leaves (restore driver) (machine, control)
    after.1.Untouched driver writable base ∧ after.1.msrio = machine.msrio ∧ after.2 = control ∧
      (Stateful.returns (restore driver) (machine, control) = true →
        control.Saved driver base machine) := by
  have ran : (restore driver).run (machine, control) =
      (onMachine (Msrio.writeMsr driver control.cpu control.offset control.savedMsrValue
        control.mask)).run (machine, control) := by
    simp only [restore, EStateM.run_bind, EStateM.run_get]
  have left : leaves (restore driver) (machine, control) = (leaves (Msrio.writeMsr driver
      control.cpu control.offset control.savedMsrValue control.mask) machine, control) := by
    rw [← leaves_onMachine, leaves, leaves, ran]
  rw [left]
  cases wrote : (Msrio.writeMsr driver control.cpu control.offset control.savedMsrValue
      control.mask).run machine with
  | error reason after =>
      rw [leaves_of_error wrote, Msrio.writeMsr_thrown_state wrote]
      refine ⟨untouched, rfl, rfl, fun returned => ?_⟩
      obtain ⟨value, last, done⟩ := Stateful.ok_of_returns returned
      rw [ran, onMachine, Objects.within_thrown wrote] at done
      simp at done
  | ok _ after =>
      rw [leaves_of_ok wrote]
      obtain ⟨accessible, known⟩ := Msrio.accessible_of_writeMsr steady wrote
      rw [read.saved] at wrote
      obtain ⟨kept, same, _⟩ := untouched.restoreMsr documented wrote
      refine ⟨kept, same, rfl, fun _ => ⟨read.fresh.addressed, known, accessible, read.saved, ?_⟩⟩
      simp [read.fresh.unready]

end FieldControl

/-- All parts are as constructed. -/
def DomainControl.Fresh (control : DomainControl Setting) : Prop := ∀ part ∈ control.controls, part.Fresh

namespace DomainControl

variable {control : DomainControl Setting}

theorem save_leaves (documented : driver.Documented writable)
    (untouched : machine.Untouched driver writable base) (fresh : control.Fresh) :
    let after := leaves (save driver) (machine, control)
    after.1 = machine ∧ after.2.Fresh ∧ after.2.fields = control.fields ∧
      (control.Saved driver base machine → after.2.Saved driver base machine) := by
  obtain ⟨same, _, sound, labels⟩ := @Objects.leaves_onEach GroupError _ _ _
    (FieldControl.save driver) machine (· = machine) (fun _ _ => True)
    (fun _ part => part.Fresh ∧
      (control.Saved driver base machine → part.Saved driver base machine)) FieldControl.field
    (fun _ => trivial) (fun _ _ => trivial) (fun _ sound => sound)
    (fun {shared object} here sound => by
      obtain rfl : shared = machine := here
      obtain ⟨same, fresh, field, kept⟩ :=
        FieldControl.save_leaves documented untouched sound.1
      exact ⟨same, trivial, ⟨fresh, fun saved => kept (sound.2 saved)⟩, field⟩)
    control.controls rfl (fun part member => ⟨fresh part member, fun saved => saved part member⟩)
  rw [save, onControls, Objects.leaves_within]
  exact ⟨same, fun part member => (sound part member).1, labels,
    fun saved part member => (sound part member).2 saved⟩

theorem save_ok {after : Machine × DomainControl Setting} (documented : driver.Documented writable)
    (untouched : machine.Untouched driver writable base) (fresh : control.Fresh)
    (done : (save driver).run (machine, control) = .ok () after) :
    ∀ part ∈ after.2.controls, part.Read base := by
  obtain ⟨⟨last, parts⟩, ran, rfl⟩ := Objects.within_ok.mp done
  have kept := @Objects.onEach_ok GroupError _ _ (FieldControl.save driver) machine last parts
    (· = machine) FieldControl.Fresh (fun _ part => part.Read base) (fun _ _ read => read)
    (fun {shared object next changed} here fresh returned => by
      obtain rfl : shared = machine := here
      obtain ⟨same, read, _⟩ := FieldControl.save_ok documented untouched fresh returned
      exact ⟨same, read⟩)
    control.controls rfl fresh ran
  exact kept.2

theorem restore_each {parts : List (FieldControl Setting)}
    (documented : driver.Documented writable) (steady : driver.Steady)
    (untouched : machine.Untouched driver writable base) (read : ∀ part ∈ parts, part.Read base) :
    let after := leaves (Objects.onEach (FieldControl.restore driver)) (machine, parts)
    after.1.Untouched driver writable base ∧ after.1.msrio = machine.msrio ∧ after.2 = parts ∧
      (Stateful.returns (Objects.onEach (FieldControl.restore driver)) (machine, parts) = true →
        ∀ part ∈ parts, part.Saved driver base machine) := by
  induction parts generalizing machine with
  | nil => exact ⟨untouched, rfl, rfl, fun _ => by simp⟩
  | cons part rest ih =>
      have first := FieldControl.restore_read documented steady untouched (read part (by simp))
      cases ran : (FieldControl.restore driver).run (machine, part) with
      | error reason state =>
          obtain ⟨next, changed⟩ := state
          have thrown : (Objects.onEach (FieldControl.restore driver)).run (machine, part :: rest) =
              .error reason (next, changed :: rest) := by
            rw [Objects.onEach_cons, ran]
          rw [leaves_of_error ran] at first
          obtain ⟨kept, same, rfl, _⟩ := first
          rw [leaves_of_error thrown, Stateful.returns, thrown]
          exact ⟨kept, same, rfl, by simp⟩
      | ok _ state =>
          obtain ⟨next, changed⟩ := state
          rw [leaves_of_ok ran, Stateful.returns, ran] at first
          obtain ⟨kept, same, rfl, saved⟩ := first
          have later := ih kept fun other member => read other (List.mem_cons_of_mem _ member)
          have grown : next.Grows machine := .of_msrio same.symm
          cases others : (Objects.onEach (FieldControl.restore driver)).run (next, rest) with
          | error reason state =>
              have thrown : (Objects.onEach (FieldControl.restore driver)).run
                  (machine, changed :: rest) = .error reason (state.1, changed :: state.2) := by
                rw [Objects.onEach_cons, ran]
                simp only [others]
              rw [leaves_of_error others] at later
              rw [leaves_of_error thrown, Stateful.returns, thrown]
              exact ⟨later.1, later.2.1.trans same, by rw [later.2.2.1], by simp⟩
          | ok _ state =>
              have done : (Objects.onEach (FieldControl.restore driver)).run
                  (machine, changed :: rest) = .ok () (state.1, changed :: state.2) := by
                rw [Objects.onEach_cons, ran]
                simp only [others]
              rw [leaves_of_ok others, Stateful.returns, others] at later
              rw [leaves_of_ok done]
              refine ⟨later.1, later.2.1.trans same, by rw [later.2.2.1], fun _ other member => ?_⟩
              rcases List.mem_cons.mp member with rfl | old
              · exact saved rfl
              · exact (later.2.2.2 rfl other old).mono grown

theorem restore_read (documented : driver.Documented writable) (steady : driver.Steady)
    (untouched : machine.Untouched driver writable base)
    (read : ∀ part ∈ control.controls, part.Read base) :
    let after := leaves (restore driver) (machine, control)
    after.1.Untouched driver writable base ∧ after.1.msrio = machine.msrio ∧ after.2 = control ∧
      (Stateful.returns (restore driver) (machine, control) = true →
        control.Saved driver base machine) := by
  obtain ⟨kept, same, parts, saved⟩ := restore_each documented steady untouched read
  rw [restore, onControls, Objects.leaves_within]
  refine ⟨kept, same, by simp only [parts], fun returned => saved ?_⟩
  obtain ⟨_, after, done⟩ := Stateful.ok_of_returns returned
  obtain ⟨inner, ran, _⟩ := Objects.within_ok.mp done
  simp only at ran
  rw [Stateful.returns, ran]

end DomainControl

namespace MsrioGroup

variable {group origin : MsrioGroup Setting} {done : List Nat} {control : Nat}

/-- While the controls are saved, some of them are. -/
structure Saving (driver : Driver) (writable : Nat → Word) (base : Registers)
    (origin : MsrioGroup Setting) (done : List Nat) (group : MsrioGroup Setting) : Prop where
  untouched : group.machine.Untouched driver writable base
  fresh : ∀ control ∈ origin.available, (group.controls control).Fresh
  alike : group.Alike origin
  pushed : group.controlPushed = []
  saved : ∀ control ∈ done, (group.controls control).Saved driver base group.machine

/-- One of the controls has changed what it saved. -/
theorem Saving.update {after : Machine × DomainControl Setting}
    (saving : Saving driver writable base origin done group)
    (untouched : after.1.Untouched driver writable base) (grown : group.machine.Grows after.1)
    (fresh : after.2.Fresh) (fields : after.2.fields = (group.controls control).fields)
    (kept : (group.controls control).Saved driver base group.machine →
      after.2.Saved driver base after.1) :
    Saving driver writable base origin done
      { group with
        machine := after.1, controls := Function.update group.controls control after.2 } := by
  refine ⟨untouched, fun other member => ?_, ⟨saving.alike.available, fun other => ?_⟩,
    saving.pushed, fun other member => ?_⟩
  · by_cases here : other = control
    · subst here
      simpa only [Function.update_self] using fresh
    · simpa only [Function.update_of_ne here] using saving.fresh other member
  · rw [← saving.alike.fields]
    by_cases here : other = control
    · subst here
      simp only [Function.update_self, fields]
    · simp only [Function.update_of_ne here]
  · by_cases here : other = control
    · subst here
      simpa only [Function.update_self] using kept (saving.saved other member)
    · simp only [Function.update_of_ne here]
      exact DomainControl.Saved.mono (saving.saved other member) grown

theorem Saving.cons (saving : Saving driver writable base origin done group)
    (saved : (group.controls control).Saved driver base group.machine) :
    Saving driver writable base origin (control :: done) group := by
  refine { saving with saved := fun other member => ?_ }
  rcases List.mem_cons.mp member with rfl | old
  · exact saved
  · exact saving.saved other old

theorem Saving.save (saving : Saving driver writable base origin done group)
    (documented : driver.Documented writable) (member : control ∈ origin.available) :
    Saving driver writable base origin done
      (leaves (onControl control (DomainControl.save driver)) group) := by
  obtain ⟨same, fresh, fields, kept⟩ :=
    DomainControl.save_leaves documented saving.untouched (saving.fresh control member)
  rw [onControl, Objects.leaves_within]
  generalize leaves (DomainControl.save driver) (group.machine, group.controls control) = after
    at same fresh fields kept ⊢
  have grown : group.machine.Grows after.1 := by
    rw [same]
    exact .refl _
  exact saving.update (by rw [same]; exact saving.untouched) grown fresh fields fun saved => by
    rw [same]
    exact kept saved

/-- A control that was read is restored, and then it is saved. -/
theorem Saving.restore (saving : Saving driver writable base origin done group)
    (documented : driver.Documented writable) (steady : driver.Steady)
    (member : control ∈ origin.available)
    (read : ∀ part ∈ (group.controls control).controls, part.Read base) :
    Saving driver writable base origin done
        (leaves (onControl control (DomainControl.restore driver)) group) ∧
      ∀ after, (onControl control (DomainControl.restore driver)).run group = .ok () after →
        Saving driver writable base origin (control :: done) after := by
  obtain ⟨untouched, same, kept, saved⟩ :=
    DomainControl.restore_read documented steady saving.untouched read
  have grown : group.machine.Grows (leaves (DomainControl.restore driver)
      (group.machine, group.controls control)).1 := .of_msrio same
  have left : Saving driver writable base origin done
      (leaves (onControl control (DomainControl.restore driver)) group) := by
    rw [onControl, Objects.leaves_within]
    generalize leaves (DomainControl.restore driver) (group.machine, group.controls control) = after
      at untouched kept grown ⊢
    refine saving.update untouched grown ?_ (by rw [kept]) fun before => ?_
    · rw [kept]
      exact saving.fresh control member
    · rw [kept]
      exact before.mono grown
  refine ⟨left, fun after done => ?_⟩
  have reached := leaves_of_ok done
  obtain ⟨inner, ran, rfl⟩ := Objects.within_ok.mp done
  rw [reached] at left
  refine left.cons ?_
  simp only [Function.update_self]
  rw [leaves_of_ok ran] at kept grown
  rw [kept]
  exact DomainControl.Saved.mono (saved (by rw [Stateful.returns, ran])) grown

theorem Saving.saveOne (saving : Saving driver writable base origin done group)
    (documented : driver.Documented writable) (steady : driver.Steady)
    (member : control ∈ origin.available) :
    Saving driver writable base origin done (leaves (do
        onControl control (DomainControl.save driver)
        onControl control (DomainControl.restore driver)) group) ∧
      ∀ after, (do
        onControl control (DomainControl.save driver)
        onControl control (DomainControl.restore driver) : GroupM Setting Unit).run group =
          .ok () after → Saving driver writable base origin (control :: done) after := by
  have first := saving.save documented member
  cases ran : (onControl control (DomainControl.save driver)).run group with
  | error reason middle =>
      have thrown : (do
          onControl control (DomainControl.save driver)
          onControl control (DomainControl.restore driver) : GroupM Setting Unit).run group =
            .error reason middle := by
        rw [EStateM.run_bind, ran]
      rw [leaves_of_error ran] at first
      rw [leaves_of_error thrown, thrown]
      exact ⟨first, by simp⟩
  | ok _ middle =>
      rw [leaves_of_ok ran] at first
      have read : ∀ part ∈ (middle.controls control).controls, part.Read base := by
        obtain ⟨inner, done, rfl⟩ := Objects.within_ok.mp ran
        simp only [Function.update_self]
        exact DomainControl.save_ok documented saving.untouched (saving.fresh control member) done
      have later := first.restore documented steady member read
      rw [leaves, EStateM.run_bind, ran]
      exact later

/-- The entry is saved if nothing was thrown. -/
theorem Saving.saveInfo {info : ControlInfo}
    (saving : Saving driver writable base origin done group)
    (documented : driver.Documented writable) (steady : driver.Steady)
    (members : ∀ control ∈ info.controls, control ∈ origin.available) :
    Saving driver writable base origin done (leaves (saveInfo driver info) group) ∧
      ∀ after, (saveInfo driver info).run group = .ok () after →
        ∃ more, Saving driver writable base origin more after ∧ (∀ control ∈ done, control ∈ more) ∧
          ∀ control ∈ info.controls, control ∈ more := by
  refine ⟨Objects.leaves_forM _ (fun control member state kept =>
    (kept.saveOne documented steady (members control member)).1) saving, ?_⟩
  obtain ⟨name, controls, domain⟩ := info
  unfold MsrioGroup.saveInfo
  simp only at members ⊢
  induction controls generalizing group done with
  | nil =>
      intro after ran
      obtain ⟨_, rfl⟩ := EStateM.Result.ok.inj ran
      exact ⟨done, saving, fun _ member => member, by simp⟩
  | cons control rest ih =>
      intro after ran
      obtain ⟨_, middle, first, later⟩ := Stateful.ok_of_bind ran
      have kept := (saving.saveOne documented steady (members control (by simp))).2 middle first
      obtain ⟨more, last, before, others⟩ :=
        ih kept (fun other member => members other (List.mem_cons_of_mem control member)) after later
      refine ⟨more, last, fun other member => before other (List.mem_cons_of_mem control member), ?_⟩
      intro other member
      rcases List.mem_cons.mp member with rfl | old
      · exact before other (by simp)
      · exact others other old

/-- The entries whose names are not listed are saved. -/
theorem Saving.unallowed {infos : List ControlInfo}
    (saving : Saving driver writable base origin done group)
    (documented : driver.Documented writable) (steady : driver.Steady)
    (members : ∀ info ∈ infos, ∀ control ∈ info.controls, control ∈ origin.available) :
    ∃ names after more, (unallowedControls driver infos).run group = .ok names after ∧
      Saving driver writable base origin more after ∧ (∀ control ∈ done, control ∈ more) ∧
      ∀ info ∈ infos, info.name ∉ names → ∀ control ∈ info.controls, control ∈ more := by
  induction infos generalizing group done with
  | nil => exact ⟨[], group, done, rfl, saving, fun _ member => member, by simp⟩
  | cons info rest ih =>
      obtain ⟨kept, succeeded⟩ := saving.saveInfo documented steady (members info (by simp))
      have others : ∀ other ∈ rest, ∀ control ∈ other.controls, control ∈ origin.available :=
        fun other member => members other (List.mem_cons_of_mem info member)
      cases ran : (MsrioGroup.saveInfo driver info).run group with
      | error reason middle =>
          rw [leaves_of_error ran] at kept
          obtain ⟨names, after, more, later, last, before, saved⟩ := ih kept others
          have tried : (trySave driver info).run group = .ok false middle := by
            simp only [EStateM.run, trySave] at ran ⊢
            rw [ran]
          refine ⟨info.name :: names, after, more, ?_, last, before, ?_⟩
          · simp [unallowedControls, tried, later]
          · intro other member allowed
            rcases List.mem_cons.mp member with rfl | old
            · simp at allowed
            · exact saved other old fun listed => allowed (List.mem_cons_of_mem _ listed)
      | ok _ middle =>
          obtain ⟨some, now, before, saved⟩ := succeeded middle ran
          obtain ⟨names, after, more, later, last, between, rests⟩ := ih now others
          have tried : (trySave driver info).run group = .ok true middle := by
            simp only [EStateM.run, trySave] at ran ⊢
            rw [ran]
          refine ⟨names, after, more, ?_, last, fun control member =>
            between control (before control member), ?_⟩
          · simp [unallowedControls, tried, later]
          · intro other member allowed
            rcases List.mem_cons.mp member with rfl | old
            · exact fun control listed => between control (saved control listed)
            · exact rests other old allowed

theorem bits_nil (group : MsrioGroup Setting) : group.bits [] = ∅ := by
  ext bit
  simp [MsrioGroup.bits]

/-- The controls that are left are saved. -/
theorem Saving.saveControl (saving : Saving driver writable base group [] group)
    (documented : driver.Documented writable) (steady : driver.Steady) :
    ∃ saved, (saveControl driver).run group = .ok () saved ∧
      saved.Sound driver writable base ∅ := by
  obtain ⟨names, after, more, ran, last, _, saved⟩ :=
    @Saving.unallowed _ _ _ _ _ _ _ group.controlAvailable saving documented steady
      fun info member control listed => List.mem_flatMap.mpr ⟨info, member, listed⟩
  refine ⟨{ after with
    controlAvailable := after.controlAvailable.filter (·.name ∉ names) }, ?_, ?_⟩
  · simp [MsrioGroup.saveControl, ran]
  · refine ⟨?_, fun control member => ?_, ?_⟩
    · simp only [last.pushed, bits_nil]
      exact last.untouched
    · obtain ⟨info, listed, inside⟩ := List.mem_flatMap.mp member
      obtain ⟨known, allowed⟩ := List.mem_filter.mp listed
      rw [last.alike.available] at known
      exact last.saved control (saved info known (by simpa using allowed) control inside)
    · simp [last.pushed]

end MsrioGroup

end Geopm
