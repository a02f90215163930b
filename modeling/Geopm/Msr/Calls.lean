import Geopm.Msr.Group
import Geopm.Msr.Saved

namespace Geopm

open Stateful (leaves leaves_of_ok leaves_of_error leaves_bind)

/-! What the calls of a group write. -/

variable {Setting : Type}

namespace MsrioGroup

/-- The controls that have a name. -/
def available (group : MsrioGroup Setting) : List Nat :=
  group.controlAvailable.flatMap (·.controls)

/-- The bits of some of the controls. -/
def bits (group : MsrioGroup Setting) (controls : List Nat) : Set Bit :=
  {bit | ∃ control ∈ controls, bit ∈ bitsOf (group.controls control).fields}

/-- The bits of the control that the arguments of a call name. -/
def target (platform : Platform) (group : MsrioGroup Setting) (controlName : String)
    (domainType domainIdx : Int) : Set Bit :=
  {bit | ∃ control, find platform group controlName domainType domainIdx = .ok control ∧
    bit ∈ bitsOf (group.controls control).fields}

/-- What stays as it was saved, while the given bits are written. -/
structure Sound (group : MsrioGroup Setting) (driver : Driver) (writable : Nat → Word)
    (base : Registers) (written : Set Bit) : Prop where
  confined : group.machine.Confined driver writable base written (group.bits group.controlPushed)
  saved : ∀ control ∈ group.available, (group.controls control).Saved driver base group.machine
  pushed : ∀ control ∈ group.controlPushed, control ∈ group.available

/-- The calls change neither the names nor the fields of the controls. -/
structure Alike (group origin : MsrioGroup Setting) : Prop where
  available : group.controlAvailable = origin.controlAvailable
  fields : ∀ control, (group.controls control).fields = (origin.controls control).fields

section

variable {group origin : MsrioGroup Setting} {driver : Driver} {platform : Platform}
  {writable : Nat → Word} {base : Registers} {written more : Set Bit} {controlName : String}
  {domainType domainIdx : Int} {control : Nat} {setting : Setting}

theorem Alike.refl (group : MsrioGroup Setting) : group.Alike group := ⟨rfl, fun _ => rfl⟩

theorem Alike.trans {other : MsrioGroup Setting} (first : group.Alike other)
    (second : other.Alike origin) : group.Alike origin :=
  ⟨first.available.trans second.available,
    fun control => (first.fields control).trans (second.fields control)⟩

theorem Alike.bits (alike : group.Alike origin) (controls : List Nat) :
    group.bits controls = origin.bits controls := by
  simp only [MsrioGroup.bits, alike.fields]

theorem Alike.listed (alike : group.Alike origin) : group.available = origin.available := by
  simp only [MsrioGroup.available, alike.available]

theorem Alike.find (alike : group.Alike origin) :
    find platform group controlName domainType domainIdx =
      find platform origin controlName domainType domainIdx := by
  simp only [MsrioGroup.find, alike.available]

theorem Alike.target (alike : group.Alike origin) :
    target platform group controlName domainType domainIdx =
      target platform origin controlName domainType domainIdx := by
  simp only [MsrioGroup.target, alike.find, alike.fields]

theorem mem_available
    (found : find platform group controlName domainType domainIdx = .ok control) :
    control ∈ group.available := by
  unfold MsrioGroup.find at found
  cases listed : group.controlAvailable.find? (·.name = controlName) with
  | none => simp [listed] at found
  | some info =>
      simp only [listed] at found
      split at found
      · simp at found
      · split at found
        · simp at found
        · cases at' : info.controls[domainIdx.toNat]? with
          | none => simp [at'] at found
          | some other =>
              simp only [at', Except.ok.injEq] at found
              subst found
              exact List.mem_flatMap.mpr ⟨info, List.mem_of_find?_eq_some listed,
                List.mem_of_getElem? at'⟩

theorem Sound.mono (sound : group.Sound driver writable base written) (wider : written ⊆ more) :
    group.Sound driver writable base more :=
  { sound with confined := sound.confined.mono wider (Set.Subset.refl _) }

/-- Calls between two states keep them sound for a set of bits. -/
structure Keeps (driver : Driver) (writable : Nat → Word) (base : Registers) (written : Set Bit)
    (origin group : MsrioGroup Setting) : Prop where
  sound : group.Sound driver writable base written
  alike : group.Alike origin

/-- Only flags were changed. -/
theorem Keeps.flags {after : MsrioGroup Setting}
    (keeps : Keeps driver writable base written origin group)
    (machine : after.machine = group.machine) (controls : after.controls = group.controls)
    (available : after.controlAvailable = group.controlAvailable)
    (pushed : after.controlPushed = group.controlPushed) :
    Keeps driver writable base written origin after := by
  obtain ⟨⟨confined, saved, listed⟩, ⟨names, fields⟩⟩ := keeps
  refine ⟨⟨?_, ?_, ?_⟩, ⟨available.trans names, ?_⟩⟩
  · simpa only [MsrioGroup.bits, machine, controls, pushed] using confined
  · simpa only [MsrioGroup.available, machine, controls, available] using saved
  · simpa only [MsrioGroup.available, pushed, available] using listed
  · simpa only [controls] using fields

theorem Keeps.onControl {method : ControlM (DomainControl Setting) Unit} {allowed : Field → Prop}
    (keeps : Keeps driver writable base written origin group) (member : control ∈ group.available)
    (kept : DomainControl.Keeps driver writable base written (group.bits group.controlPushed) method
      allowed) (inside : ∀ field ∈ (group.controls control).fields, allowed field) :
    Keeps driver writable base written origin (leaves (onControl control method) group) := by
  obtain ⟨after, grown, saved, same⟩ :=
    kept keeps.sound.confined (keeps.sound.saved control member) inside
  rw [MsrioGroup.onControl, Objects.leaves_within]
  have fields : ∀ other, (Function.update group.controls control
      (leaves method (group.machine, group.controls control)).2 other).fields =
        (group.controls other).fields := by
    intro other
    by_cases here : other = control
    · subst here
      rw [Function.update_self, same]
    · rw [Function.update_of_ne here]
  refine ⟨⟨?_, ?_, keeps.sound.pushed⟩, ⟨keeps.alike.available, fun other =>
    (fields other).trans (keeps.alike.fields other)⟩⟩
  · simpa only [MsrioGroup.bits, fields] using after
  · intro other listed
    simp only
    by_cases here : other = control
    · subst here
      rwa [Function.update_self]
    · rw [Function.update_of_ne here]
      exact DomainControl.Saved.mono (keeps.sound.saved other listed) grown

theorem findControl_eq : (findControl platform controlName domainType domainIdx).run group =
    match find platform group controlName domainType domainIdx with
    | .error reason => .error reason group
    | .ok control => .ok control group := by
  cases found : find platform group controlName domainType domainIdx <;> simp [findControl, found]

/-- A control is found, or nothing happens. -/
theorem Keeps.findControl {Value : Type} {rest : Nat → GroupM Setting Value}
    (keeps : Keeps driver writable base written origin group)
    (next : ∀ control, find platform group controlName domainType domainIdx = .ok control →
      Keeps driver writable base written origin (leaves (rest control) group)) :
    Keeps driver writable base written origin
      (leaves (MsrioGroup.findControl platform controlName domainType domainIdx >>= rest) group) := by
  cases found : find platform group controlName domainType domainIdx with
  | error reason =>
      have thrown : (MsrioGroup.findControl platform controlName domainType domainIdx >>= rest).run group =
          .error reason group := by
        rw [EStateM.run_bind, findControl_eq, found]
      rwa [leaves_of_error thrown]
  | ok control =>
      have same : leaves (MsrioGroup.findControl platform controlName domainType domainIdx >>= rest) group =
          leaves (rest control) group := by
        rw [leaves, EStateM.run_bind, findControl_eq, found]
        rfl
      rw [same]
      exact next control found

theorem Keeps.write (keeps : Keeps driver writable base written origin group)
    (documented : driver.Documented writable)
    (found : find platform group controlName domainType domainIdx = .ok control)
    (inside : target platform origin controlName domainType domainIdx ⊆ written) :
    Keeps driver writable base written origin
      (leaves (MsrioGroup.onControl control (DomainControl.write driver setting)) group) := by
  refine keeps.onControl (mem_available found) (DomainControl.keeps_write documented setting) ?_
  intro field member bit under
  apply inside
  rw [← keeps.alike.target]
  exact ⟨control, found, field, member, under⟩

theorem Keeps.writeOther (keeps : Keeps driver writable base written origin group)
    (documented : driver.Documented writable)
    (inside : target platform origin controlName domainType domainIdx ⊆ written) :
    Keeps driver writable base written origin
      (leaves (writeOther driver platform controlName domainType domainIdx setting) group) :=
  keeps.findControl fun _ found => keeps.write documented found inside

theorem readMsr_leaves (cpu offset : Nat) (machine : Machine) :
    leaves (Msrio.readMsr driver cpu offset) machine = machine := by
  rw [leaves, Msrio.readMsr_eq]
  by_cases beyond : machine.msrio.numCpu < cpu
  · rw [if_pos beyond]
  · rw [if_neg beyond]
    cases driver.pread machine.registers cpu offset <;> rfl

theorem isLocked_leaves (signal : LockSignal) (group : MsrioGroup Setting) :
    leaves (isLocked driver signal) group = group := by
  refine leaves_bind (· = group) ?_ fun _ _ _ same => same
  rw [onMsrio, Objects.leaves_within, readMsr_leaves]

/-- A control is appended to those that were pushed. -/
theorem Keeps.append (keeps : Keeps driver writable base written origin group)
    (member : control ∈ group.available) :
    Keeps driver writable base written origin
      { group with controlPushed := group.controlPushed ++ [control] } := by
  obtain ⟨⟨confined, saved, pushed⟩, ⟨names, fields⟩⟩ := keeps
  refine ⟨⟨confined.mono (Set.Subset.refl _) ?_, saved, ?_⟩, ⟨names, fields⟩⟩
  · rintro bit ⟨other, listed, under⟩
    exact ⟨other, List.mem_append_left _ listed, under⟩
  · intro other listed
    rcases List.mem_append.mp listed with old | new
    · exact pushed other old
    · rw [List.mem_singleton.mp new]
      exact member

end

/-- The bits of the fixed counters, which are enabled when the lock is read first. -/
def counters (Setting : Type) [Zero Setting] [One Setting] (platform : Platform)
    (group : MsrioGroup Setting) : Set Bit :=
  {bit | ∃ cpuIdx < platform.numCpu, ∃ entry ∈ (fixedCounters : List (String × Setting)),
    bit ∈ target platform group entry.1 domainCpu cpuIdx}

/-- The bits that enable the limit. -/
def limit (platform : Platform) (group : MsrioGroup Setting) (controlName : String)
    (domainType domainIdx : Int) : Set Bit :=
  if controlName = "POWER_PACKAGE_LIMIT" then
    target platform group "MSR::PKG_POWER_LIMIT:PL1_LIMIT_ENABLE" domainType domainIdx
  else ∅

section

variable [Zero Setting] [One Setting] {group origin : MsrioGroup Setting} {driver : Driver}
  {platform : Platform} {writable : Nat → Word} {base : Registers} {written : Set Bit}
  {controlName : String} {domainType domainIdx : Int} {setting : Setting}

theorem Keeps.enableFixedCounters (keeps : Keeps driver writable base written origin group)
    (documented : driver.Documented writable) (inside : counters Setting platform origin ⊆ written) :
    Keeps driver writable base written origin (leaves (enableFixedCounters driver platform) group) := by
  refine leaves_bind (Keeps driver writable base written origin) ?_ fun _ middle _ kept => ?_
  · refine Objects.leaves_forM _ (fun cpuIdx within state kept => ?_) keeps
    refine Objects.leaves_forM _ (fun entry member state kept => ?_) kept
    refine kept.writeOther documented fun bit there => inside ?_
    exact ⟨cpuIdx, List.mem_range.mp within, entry, member, there⟩
  · exact kept.flags rfl rfl rfl rfl

/-- The fixed counters are enabled with the first lock, if they are not yet. -/
theorem Keeps.readLock {signal : LockSignal}
    (keeps : Keeps driver writable base written origin group)
    (documented : driver.Documented writable)
    (inside : group.isFixedEnabled = false → counters Setting platform origin ⊆ written) :
    let after := leaves (readLock driver platform signal) group
    Keeps driver writable base written origin after ∧
      (after.isFixedEnabled = false → counters Setting platform origin ⊆ written) := by
  by_cases enabled : group.isFixedEnabled = true
  · have same : leaves (MsrioGroup.readLock driver platform signal) group =
        leaves (isLocked driver signal) group := by
      simp [leaves, MsrioGroup.readLock, enabled]
    rw [same, isLocked_leaves]
    exact ⟨keeps, inside⟩
  · have same : leaves (MsrioGroup.readLock driver platform signal) group =
        leaves (MsrioGroup.enableFixedCounters driver platform >>= fun _ => isLocked driver signal)
          group := by
      simp [leaves, MsrioGroup.readLock, enabled]
    have allowed := inside (by simpa using enabled)
    rw [same]
    refine ⟨leaves_bind (Keeps driver writable base written origin) ?_ fun _ middle _ kept => ?_,
      fun _ => allowed⟩
    · exact keeps.enableFixedCounters documented allowed
    · rwa [isLocked_leaves]

theorem Keeps.readLocks {signals : List LockSignal}
    (keeps : Keeps driver writable base written origin group)
    (documented : driver.Documented writable)
    (inside : group.isFixedEnabled = false → counters Setting platform origin ⊆ written) :
    Keeps driver writable base written origin (leaves (readLocks driver platform signals) group) := by
  induction signals generalizing group with
  | nil => exact keeps
  | cons signal rest ih =>
      have first := @Keeps.readLock _ _ _ _ _ _ _ _ _ _ signal keeps documented inside
      cases ran : (MsrioGroup.readLock driver platform signal).run group with
      | error reason after =>
          have thrown : (MsrioGroup.readLocks driver platform (signal :: rest)).run group =
              .error reason after := by
            simp [MsrioGroup.readLocks, ran]
          rw [leaves_of_error ran] at first
          rw [leaves_of_error thrown]
          exact first.1
      | ok found middle =>
          rw [leaves_of_ok ran] at first
          have later := ih first.1 first.2
          have same : leaves (MsrioGroup.readLocks driver platform (signal :: rest)) group =
              leaves (MsrioGroup.readLocks driver platform rest) middle := by
            rw [leaves, leaves]
            simp only [MsrioGroup.readLocks, EStateM.run_bind, ran, EStateM.run_pure]
            cases (MsrioGroup.readLocks driver platform rest).run middle <;> rfl
          rwa [same]

/-- What `check_control` writes. -/
def checked (platform : Platform) (group : MsrioGroup Setting) (controlName : String) : Set Bit :=
  if group.doCheckRaplLock ∧ controlName ∈ powerControlSet ∧ group.isFixedEnabled = false then
    counters Setting platform group
  else ∅

theorem Keeps.checkControl (keeps : Keeps driver writable base written origin group)
    (documented : driver.Documented writable)
    (inside : checked platform group controlName ⊆ written) :
    Keeps driver writable base written origin
      (leaves (checkControl driver platform controlName) group) := by
  by_cases checks : group.doCheckRaplLock ∧ controlName ∈ powerControlSet
  · cases locks : platform.lock with
    | none =>
        have thrown : (MsrioGroup.checkControl driver platform controlName).run group =
            .error .invalidDomain group := by
          simp [MsrioGroup.checkControl, checks, locks]
        rwa [leaves_of_error thrown]
    | some signals =>
        have same : leaves (MsrioGroup.checkControl driver platform controlName) group =
            leaves (MsrioGroup.readLocks driver platform signals >>= fun found => do
              if found then
                throw .locked
              modify fun group => { group with doCheckRaplLock := false }) group := by
          simp [leaves, MsrioGroup.checkControl, checks, locks]
        rw [same]
        refine leaves_bind (Keeps driver writable base written origin) ?_ fun found middle _ kept => ?_
        · refine keeps.readLocks documented fun disabled => ?_
          rw [checked, if_pos ⟨checks.1, checks.2, disabled⟩] at inside
          simpa only [counters, ← keeps.alike.target] using inside
        · cases found with
          | true => exact kept
          | false => exact kept.flags rfl rfl rfl rfl
  · have done : (MsrioGroup.checkControl driver platform controlName).run group = .ok () group := by
      simp [MsrioGroup.checkControl, checks]
    rwa [leaves_of_ok done]

omit [Zero Setting] in
theorem Keeps.enableLimit (keeps : Keeps driver writable base written origin group)
    (documented : driver.Documented writable)
    (inside : limit platform origin controlName domainType domainIdx ⊆ written) :
    Keeps driver writable base written origin
      (leaves (enableLimit driver platform controlName domainType domainIdx) group) := by
  by_cases named : controlName = "POWER_PACKAGE_LIMIT"
  · rw [limit, if_pos named] at inside
    rw [MsrioGroup.enableLimit, if_pos named]
    exact keeps.writeOther documented inside
  · rw [MsrioGroup.enableLimit, if_neg named]
    exact keeps

theorem Keeps.writeControl (keeps : Keeps driver writable base written origin group)
    (documented : driver.Documented writable)
    (checking : checked platform group controlName ⊆ written)
    (enabling : limit platform origin controlName domainType domainIdx ⊆ written)
    (inside : target platform origin controlName domainType domainIdx ⊆ written) :
    Keeps driver writable base written origin
      (leaves (writeControl driver platform controlName domainType domainIdx setting) group) := by
  refine leaves_bind (Keeps driver writable base written origin)
    (keeps.checkControl documented checking) fun _ _ _ kept => ?_
  refine kept.findControl fun control found => ?_
  refine leaves_bind (Keeps driver writable base written origin)
    (kept.enableLimit documented enabling) fun _ _ _ after => ?_
  refine after.write documented (?_ : find platform _ controlName domainType domainIdx = _) inside
  rw [after.alike.find, ← kept.alike.find]
  exact found

omit [Zero Setting] [One Setting] in
theorem Keeps.pushNew {control : Nat} (keeps : Keeps driver writable base written origin group)
    (documented : driver.Documented writable) (steady : driver.Steady)
    (member : control ∈ group.available) :
    Keeps driver writable base written origin (leaves (pushNew driver control) group) := by
  rw [keeps.alike.listed] at member
  refine leaves_bind (Keeps driver writable base written origin)
    (keeps.append (keeps.alike.listed ▸ member)) fun _ _ _ appended => ?_
  refine leaves_bind (Keeps driver writable base written origin)
    (appended.onControl (appended.alike.listed ▸ member)
      (DomainControl.keeps_setupBatch documented steady) fun _ _ => trivial) fun _ _ _ kept => ?_
  exact kept.flags rfl rfl rfl rfl

theorem Keeps.pushControl (keeps : Keeps driver writable base written origin group)
    (documented : driver.Documented writable) (steady : driver.Steady)
    (checking : group.isActive = false → checked platform group controlName ⊆ written)
    (enabling : group.isActive = false →
      limit platform origin controlName domainType domainIdx ⊆ written) :
    Keeps driver writable base written origin
      (leaves (pushControl driver platform controlName domainType domainIdx) group) := by
  by_cases active : group.isActive = true
  · have thrown : (MsrioGroup.pushControl driver platform controlName domainType domainIdx).run group =
        .error .pushAfterActive group := by
      simp [MsrioGroup.pushControl, active]
    rwa [leaves_of_error thrown]
  · have inactive : group.isActive = false := by simpa using active
    have same : leaves (MsrioGroup.pushControl driver platform controlName domainType domainIdx)
        group = leaves (MsrioGroup.checkControl driver platform controlName >>= fun _ =>
          MsrioGroup.findControl platform controlName domainType domainIdx >>= fun control => do
            let pushed := (← get).controlPushed
            MsrioGroup.enableLimit driver platform controlName domainType domainIdx
            if control ∈ pushed then
              pure (pushed.idxOf control)
            else do
              MsrioGroup.pushNew driver control
              pure pushed.length) group := by
      simp [leaves, MsrioGroup.pushControl, inactive]
    rw [same]
    refine leaves_bind (Keeps driver writable base written origin)
      (keeps.checkControl documented (checking inactive)) fun _ _ _ kept => ?_
    refine kept.findControl fun control found => ?_
    refine leaves_bind (Keeps driver writable base written origin) kept fun before _ _ again => ?_
    refine leaves_bind (Keeps driver writable base written origin)
      (again.enableLimit documented (enabling inactive)) fun _ last _ after => ?_
    by_cases known : control ∈ before.controlPushed
    · rw [if_pos known]
      exact after
    · rw [if_neg known]
      have here : find platform last controlName domainType domainIdx = .ok control := by
        rw [after.alike.find, ← kept.alike.find]
        exact found
      exact leaves_bind (Keeps driver writable base written origin)
        (after.pushNew documented steady (mem_available here)) fun _ _ _ ending => ending

omit [Zero Setting] [One Setting] in
theorem Keeps.adjust {controlIdx : Int} (keeps : Keeps driver writable base written origin group) :
    Keeps driver writable base written origin (leaves (adjust controlIdx setting) group) := by
  by_cases negative : controlIdx < 0
  · have thrown : (MsrioGroup.adjust controlIdx setting).run group =
        .error .controlIdxOutOfRange group := by
      simp [MsrioGroup.adjust, negative]
    rwa [leaves_of_error thrown]
  · cases pushed : group.controlPushed[controlIdx.toNat]? with
    | none =>
        have thrown : (MsrioGroup.adjust controlIdx setting).run group =
            .error .controlIdxOutOfRange group := by
          simp [MsrioGroup.adjust, negative, pushed]
        rwa [leaves_of_error thrown]
    | some control =>
        have member := List.mem_of_getElem? pushed
        have same : leaves (MsrioGroup.adjust controlIdx setting) group =
            leaves (MsrioGroup.onControl control (DomainControl.adjust setting) >>= fun _ =>
              modify fun group =>
                { group with isAdjusted := group.isAdjusted.set controlIdx.toNat true }) group := by
          simp [leaves, MsrioGroup.adjust, negative, pushed]
        rw [same]
        refine leaves_bind (Keeps driver writable base written origin)
          (keeps.onControl (keeps.sound.pushed control member) (DomainControl.keeps_adjust setting) ?_)
          fun _ _ _ kept => kept.flags rfl rfl rfl rfl
        intro field listed bit under
        exact ⟨control, member, field, listed, under⟩

omit [Zero Setting] [One Setting] in
/-- A batch that is written writes controls that were adjusted. -/
theorem Keeps.writeBatch (keeps : Keeps driver writable base written origin group)
    (documented : driver.Documented writable) (steady : driver.Steady)
    (inside : false ∉ group.isAdjusted → group.bits group.controlPushed ⊆ written) :
    Keeps driver writable base written origin (leaves (writeBatch driver) group) := by
  by_cases empty : group.controlPushed = []
  · have done : (MsrioGroup.writeBatch driver).run group = .ok () { group with isActive := true } := by
      simp [MsrioGroup.writeBatch, empty]
    rw [leaves_of_ok done]
    exact keeps.flags rfl rfl rfl rfl
  · by_cases unadjusted : false ∈ group.isAdjusted
    · have thrown : (MsrioGroup.writeBatch driver).run group = .error .notAllAdjusted group := by
        simp [MsrioGroup.writeBatch, empty, unadjusted]
      rwa [leaves_of_error thrown]
    · have same : leaves (MsrioGroup.writeBatch driver) group =
          leaves (onMsrio (Msrio.writeBatch driver) >>= fun _ =>
            modify fun group => { group with isActive := true }) group := by
        simp [leaves, MsrioGroup.writeBatch, empty, unadjusted]
      rw [same]
      refine leaves_bind (Keeps driver writable base written origin) ?_
        fun _ _ _ kept => kept.flags rfl rfl rfl rfl
      rw [onMsrio, Objects.leaves_within]
      obtain ⟨⟨confined, saved, pushed⟩, ⟨names, fields⟩⟩ := keeps
      obtain ⟨after, addresses, numCpu⟩ :=
        confined.writeBatch documented steady (inside unadjusted)
      have grown : group.machine.Grows (leaves (Msrio.writeBatch driver) group.machine) :=
        ⟨by rw [addresses], numCpu⟩
      exact ⟨⟨after, fun control listed => (saved control listed).mono grown, pushed⟩, names, fields⟩

end

/-- A call of the group after its controls were saved. -/
inductive Call (Setting : Type) where
  | writeControl (controlName : String) (domainType domainIdx : Int) (setting : Setting)
  | pushControl (controlName : String) (domainType domainIdx : Int)
  | adjust (controlIdx : Int) (setting : Setting)
  | writeBatch

section

variable [Zero Setting] [One Setting] (driver : Driver) (platform : Platform)

/-- A call. What it throws is left to the caller, who goes on. -/
def call (group : MsrioGroup Setting) : Call Setting → MsrioGroup Setting
  | .writeControl controlName domainType domainIdx setting =>
      leaves (writeControl driver platform controlName domainType domainIdx setting) group
  | .pushControl controlName domainType domainIdx =>
      leaves (pushControl driver platform controlName domainType domainIdx) group
  | .adjust controlIdx setting => leaves (adjust controlIdx setting) group
  | .writeBatch => leaves (writeBatch driver) group

/-- The bits of the controls that a call writes. -/
def written (group : MsrioGroup Setting) : Call Setting → Set Bit
  | .writeControl controlName domainType domainIdx _ =>
      checked platform group controlName ∪ limit platform group controlName domainType domainIdx ∪
        target platform group controlName domainType domainIdx
  | .pushControl controlName domainType domainIdx =>
      if group.isActive then ∅
      else checked platform group controlName ∪ limit platform group controlName domainType domainIdx
  | .adjust _ _ => ∅
  | .writeBatch => if false ∈ group.isAdjusted then ∅ else group.bits group.controlPushed

variable {driver platform} {writable : Nat → Word} {base : Registers} {bits : Set Bit}
  {group : MsrioGroup Setting}

theorem Sound.call (sound : group.Sound driver writable base bits)
    (documented : driver.Documented writable) (steady : driver.Steady) (action : Call Setting)
    (inside : written platform group action ⊆ bits) :
    Keeps driver writable base bits group (call driver platform group action) := by
  have keeps : Keeps driver writable base bits group group := ⟨sound, .refl group⟩
  cases action with
  | writeControl controlName domainType domainIdx setting =>
      obtain ⟨both, direct⟩ := Set.union_subset_iff.mp inside
      obtain ⟨checking, enabling⟩ := Set.union_subset_iff.mp both
      exact keeps.writeControl documented checking enabling direct
  | pushControl controlName domainType domainIdx =>
      have both : group.isActive = false → checked platform group controlName ⊆ bits ∧
          limit platform group controlName domainType domainIdx ⊆ bits := by
        intro inactive
        simpa [written, inactive] using inside
      exact keeps.pushControl documented steady (fun inactive => (both inactive).1)
        fun inactive => (both inactive).2
  | adjust controlIdx setting => exact keeps.adjust
  | writeBatch =>
      refine keeps.writeBatch documented steady fun adjusted => ?_
      simpa only [written, adjusted, if_false] using inside

variable (driver platform)

/-- The bits of the controls that were written so far. -/
def writtenBy : MsrioGroup Setting → List (Call Setting) → Set Bit
  | _, [] => ∅
  | group, action :: rest =>
      written platform group action ∪ writtenBy (call driver platform group action) rest

end

end MsrioGroup

end Geopm
