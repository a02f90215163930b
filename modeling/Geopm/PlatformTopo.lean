import Mathlib.Data.Finset.Lattice.Fold
import Mathlib.Data.Finset.Sort
import Mathlib.Order.Interval.Finset.Nat

namespace Geopm

/-! `PlatformTopo`: which CPUs are in which domain of a compute node. -/

/-- `geopm_domain_e`. -/
inductive Domain where
  | board
  | package
  | core
  | cpu
  | boardMemory
  | packageMemory
  | boardNic
  | packageNic
  | boardAccelerator
  | packageAccelerator
deriving Repr, DecidableEq

inductive TopoError where
  /-- "PlatformTopoImp::domain_cpus(): domain_idx out of range" -/
  | domainIdxOutOfRange
  /-- "PlatformTopoImp::domain_cpus(domain_type=" .. ") support not yet implemented" -/
  | cpusNotImplemented
  /-- "PlatformTopoImp::domain_idx(): cpu_idx out of range" -/
  | cpuIdxOutOfRange
  /-- "PlatformTopoImp::domain_idx() no support yet for PACKAGE_MEMORY, NIC, or ACCELERATOR" -/
  | idxNotImplemented
  /-- "PlatformTopoImp::domain_nested(): domain type " .. " is not contained within domain type " -/
  | notContained (inner outer : Domain)
deriving Repr, DecidableEq

/-- A loop that collects the results of a function that may throw. -/
def collect {Value Result Error : Type} [DecidableEq Result] (call : Value → Except Error Result) :
    List Value → Except Error (Finset Result)
  | [] => .ok ∅
  | value :: rest =>
      match call value, collect call rest with
      | .error reason, _ => .error reason
      | .ok _, .error reason => .error reason
      | .ok result, .ok results => .ok (insert result results)

structure PlatformTopo where
  numPackage : Nat
  corePerPackage : Nat
  threadPerCore : Nat
  numaMap : List (Finset Nat)
  numAccelerator : Nat
  cpuAffinityIdeal : Nat → Finset Nat

namespace PlatformTopo

/-- `num_domain`. -/
def numDomain (topo : PlatformTopo) : Domain → Nat
  | .board => 1
  | .package => topo.numPackage
  | .core => topo.numPackage * topo.corePerPackage
  | .cpu => topo.numPackage * topo.corePerPackage * topo.threadPerCore
  | .boardMemory => topo.numaMap.countP fun cpus => cpus.Nonempty
  | .packageMemory => topo.numaMap.countP fun cpus => cpus = ∅
  | .boardNic | .packageNic => 0
  | .boardAccelerator => topo.numAccelerator
  | .packageAccelerator => 0

/-- The CPUs of a core: one of each group of hyperthreads. -/
def coreCpus (topo : PlatformTopo) (core : Nat) : Finset Nat :=
  (Finset.range topo.threadPerCore).image fun thread =>
    core + thread * topo.corePerPackage * topo.numPackage

/-- The CPUs of a package. -/
def packageCpus (topo : PlatformTopo) (package : Nat) : Finset Nat :=
  (Finset.range topo.threadPerCore).biUnion fun thread =>
    (Finset.Ico (package * topo.corePerPackage) ((package + 1) * topo.corePerPackage)).image
      fun core => core + thread * topo.corePerPackage * topo.numPackage

/-- `domain_cpus`. -/
def domainCpus (topo : PlatformTopo) (domain : Domain) (domainIdx : Int) :
    Except TopoError (Finset Nat) :=
  if domainIdx < 0 ∨ topo.numDomain domain ≤ domainIdx then .error .domainIdxOutOfRange
  else
    match domain with
    | .board => .ok (topo.numaMap.foldr (· ∪ ·) ∅)
    | .boardAccelerator => .ok (topo.cpuAffinityIdeal domainIdx.toNat)
    | .package => .ok (topo.packageCpus domainIdx.toNat)
    | .core => .ok (topo.coreCpus domainIdx.toNat)
    | .cpu => .ok {domainIdx.toNat}
    | .boardMemory => .ok (topo.numaMap.getD domainIdx.toNat ∅)
    | .packageMemory | .boardNic | .packageNic | .packageAccelerator =>
        .error .cpusNotImplemented

/-- `domain_idx`, which is `-1` for a CPU in no domain of the type. -/
def domainIdx (topo : PlatformTopo) (domain : Domain) (cpuIdx : Nat) : Except TopoError Int :=
  if topo.numDomain .cpu ≤ cpuIdx then .error .cpuIdxOutOfRange
  else
    match domain with
    | .board => .ok 0
    | .package =>
        let coreIdx := cpuIdx % (topo.numPackage * topo.corePerPackage)
        .ok (coreIdx / topo.corePerPackage : Nat)
    | .core => .ok (cpuIdx % (topo.numPackage * topo.corePerPackage) : Nat)
    | .cpu => .ok cpuIdx
    | .boardMemory =>
        match topo.numaMap.findIdx? (cpuIdx ∈ ·) with
        | none => .ok (-1)
        | some numaIdx => .ok numaIdx
    | .boardAccelerator =>
        match (List.range topo.numAccelerator).find? (cpuIdx ∈ topo.cpuAffinityIdeal ·) with
        | none => .ok (-1)
        | some accelIdx => .ok accelIdx
    | .packageMemory | .boardNic | .packageNic | .packageAccelerator => .error .idxNotImplemented

/-- `is_nested_domain`. -/
def isNestedDomain (inner outer : Domain) : Bool :=
  if inner = outer then true
  else
    match outer, inner with
    | .board, _ => true
    | .core, .cpu => true
    | .package, .cpu | .package, .core | .package, .packageMemory | .package, .packageNic
    | .package, .packageAccelerator => true
    | .boardMemory, .cpu => true
    | .boardAccelerator, .cpu => true
    | _, _ => false

/-- `domain_nested`. -/
def domainNested (topo : PlatformTopo) (inner outer : Domain) (outerIdx : Int) :
    Except TopoError (Finset Int) :=
  if isNestedDomain inner outer then
    match topo.domainCpus outer outerIdx with
    | .error reason => .error reason
    | .ok cpus => collect (topo.domainIdx inner) (cpus.sort (· ≤ ·))
  else .error (.notContained inner outer)

theorem collect_ok {Value Result Error : Type} [DecidableEq Result]
    {call : Value → Except Error Result} {value : Value → Result} {values : List Value}
    (each : ∀ item ∈ values, call item = .ok (value item)) :
    collect call values = .ok (values.map value).toFinset := by
  induction values with
  | nil => rfl
  | cons head rest ih =>
      rw [collect, each head (by simp), ih (fun item member => each item (by simp [member]))]
      simp

section Cpus

/-- The domains that are told by the number of a CPU. -/
def OfCpu (domain : Domain) : Prop := domain = .package ∨ domain = .core ∨ domain = .cpu

/-- The domain that `domain_idx` finds by division and remainder. -/
def idxOf (topo : PlatformTopo) (domain : Domain) (cpu : Nat) : Nat :=
  match domain with
  | .package => cpu % (topo.numPackage * topo.corePerPackage) / topo.corePerPackage
  | .core => cpu % (topo.numPackage * topo.corePerPackage)
  | _ => cpu

/-- Some package, some core in it and some thread on that. -/
structure Populated (topo : PlatformTopo) : Prop where
  packages : 1 ≤ topo.numPackage
  cores : 1 ≤ topo.corePerPackage
  threads : 1 ≤ topo.threadPerCore

variable {topo : PlatformTopo} {domain inner outer : Domain} {cpu idx : Nat}

theorem domainIdx_eq (told : OfCpu domain) (online : cpu < topo.numDomain .cpu) :
    topo.domainIdx domain cpu = .ok (topo.idxOf domain cpu : Nat) := by
  unfold domainIdx
  rw [if_neg (by omega)]
  obtain rfl | rfl | rfl := told <;> rfl

/-- The CPU of a thread on a core is a core number and a multiple of the number of cores. -/
theorem threadCpu {core thread cores : Nat} (known : core < cores) :
    (core + thread * cores) % cores = core ∧ (core + thread * cores) / cores = thread := by
  constructor
  · rw [Nat.add_mul_mod_self_right, Nat.mod_eq_of_lt known]
  · rw [Nat.add_mul_div_right _ _ (by omega), Nat.div_eq_of_lt known, Nat.zero_add]

theorem mem_coreCpus (known : idx < topo.numDomain .core) :
    cpu ∈ topo.coreCpus idx ↔ cpu < topo.numDomain .cpu ∧ topo.idxOf .core cpu = idx := by
  simp only [numDomain] at known
  simp only [coreCpus, Finset.mem_image, Finset.mem_range, numDomain, idxOf]
  constructor
  · rintro ⟨thread, runs, rfl⟩
    rw [Nat.mul_assoc, Nat.mul_comm topo.corePerPackage]
    refine ⟨?_, (threadCpu known).1⟩
    calc idx + thread * (topo.numPackage * topo.corePerPackage)
        < (thread + 1) * (topo.numPackage * topo.corePerPackage) := by
          rw [Nat.add_mul, Nat.one_mul]
          omega
      _ ≤ topo.threadPerCore * (topo.numPackage * topo.corePerPackage) :=
          Nat.mul_le_mul_right _ runs
      _ = topo.numPackage * topo.corePerPackage * topo.threadPerCore := Nat.mul_comm _ _
  · rintro ⟨online, rfl⟩
    refine ⟨cpu / (topo.numPackage * topo.corePerPackage), ?_, ?_⟩
    · exact Nat.div_lt_of_lt_mul online
    · rw [Nat.mul_assoc, Nat.mul_comm topo.corePerPackage]
      exact Nat.mod_add_div' cpu _

/-- The CPUs of a package are those of its cores. -/
theorem mem_packageCpus :
    cpu ∈ topo.packageCpus idx ↔
      ∃ core, core / topo.corePerPackage = idx ∧ 0 < topo.corePerPackage ∧
        cpu ∈ topo.coreCpus core := by
  simp only [packageCpus, coreCpus, Finset.mem_biUnion, Finset.mem_image, Finset.mem_range,
    Finset.mem_Ico]
  constructor
  · rintro ⟨thread, runs, core, ⟨lower, upper⟩, rfl⟩
    have positive : 0 < topo.corePerPackage := by
      rw [Nat.add_mul] at upper
      omega
    exact ⟨core, Nat.div_eq_of_lt_le lower upper, positive, thread, runs, rfl⟩
  · rintro ⟨core, rfl, positive, thread, runs, rfl⟩
    refine ⟨thread, runs, core, ⟨Nat.div_mul_le_self _ _, ?_⟩, rfl⟩
    exact Nat.lt_mul_of_div_lt (Nat.lt_succ_self _) positive

theorem idxOf_lt (populated : topo.Populated) (told : OfCpu domain)
    (online : cpu < topo.numDomain .cpu) : topo.idxOf domain cpu < topo.numDomain domain := by
  have cores := Nat.mul_pos populated.packages populated.cores
  obtain rfl | rfl | rfl := told
  · exact Nat.div_lt_of_lt_mul (by rw [Nat.mul_comm topo.corePerPackage]; exact Nat.mod_lt _ cores)
  · exact Nat.mod_lt _ cores
  · exact online

/-- The two ways to tell the CPUs of a domain agree. -/
theorem domainCpus_eq (populated : topo.Populated) (told : OfCpu domain)
    (known : idx < topo.numDomain domain) :
    ∃ cpus, topo.domainCpus domain idx = .ok cpus ∧
      ∀ cpu, cpu ∈ cpus ↔ cpu < topo.numDomain .cpu ∧ topo.idxOf domain cpu = idx := by
  have inside : ¬ ((idx : Int) < 0 ∨ (topo.numDomain domain : Int) ≤ idx) := by omega
  unfold domainCpus
  rw [if_neg inside, Int.toNat_natCast]
  obtain rfl | rfl | rfl := told
  · refine ⟨_, rfl, fun cpu => ?_⟩
    have range : topo.numDomain .core = topo.numDomain .package * topo.corePerPackage := rfl
    rw [mem_packageCpus]
    constructor
    · rintro ⟨core, rfl, positive, member⟩
      rw [mem_coreCpus (by rw [range]; exact Nat.lt_mul_of_div_lt known positive)] at member
      obtain ⟨online, rfl⟩ := member
      exact ⟨online, rfl⟩
    · rintro ⟨online, rfl⟩
      refine ⟨topo.idxOf .core cpu, rfl, populated.cores, ?_⟩
      exact (mem_coreCpus (idxOf_lt populated (.inr (.inl rfl)) online)).mpr ⟨online, rfl⟩
  · exact ⟨_, rfl, fun cpu => mem_coreCpus known⟩
  · refine ⟨_, rfl, fun cpu => ?_⟩
    rw [Finset.mem_singleton]
    constructor
    · rintro rfl
      exact ⟨known, rfl⟩
    · rintro ⟨-, same⟩
      exact same

/-- Every domain has a CPU. -/
theorem idxOf_surjective (populated : topo.Populated) (told : OfCpu domain)
    (known : idx < topo.numDomain domain) :
    ∃ cpu, cpu < topo.numDomain .cpu ∧ topo.idxOf domain cpu = idx := by
  have threads := populated.threads
  have all : topo.numDomain .core ≤ topo.numDomain .cpu := Nat.le_mul_of_pos_right _ threads
  obtain rfl | rfl | rfl := told
  · have range : idx * topo.corePerPackage < topo.numPackage * topo.corePerPackage :=
      Nat.mul_lt_mul_of_pos_right known populated.cores
    refine ⟨idx * topo.corePerPackage, lt_of_lt_of_le range all, ?_⟩
    rw [idxOf, Nat.mod_eq_of_lt range, Nat.mul_div_cancel _ populated.cores]
  · exact ⟨idx, lt_of_lt_of_le known all, Nat.mod_eq_of_lt known⟩
  · exact ⟨idx, known, rfl⟩

/-- The pairs of domains of which one is within the other. -/
def Nests (inner outer : Domain) : Prop :=
  (inner = .cpu ∧ outer = .core) ∨ (inner = .cpu ∧ outer = .package) ∨
    (inner = .core ∧ outer = .package)

theorem Nests.told (nests : Nests inner outer) :
    OfCpu inner ∧ OfCpu outer ∧ isNestedDomain inner outer = true := by
  obtain ⟨rfl, rfl⟩ | ⟨rfl, rfl⟩ | ⟨rfl, rfl⟩ := nests
  · exact ⟨.inr (.inr rfl), .inr (.inl rfl), rfl⟩
  · exact ⟨.inr (.inr rfl), .inl rfl, rfl⟩
  · exact ⟨.inr (.inl rfl), .inl rfl, rfl⟩

/-- CPUs in the same inner domain are in the same outer one. -/
theorem Nests.same {other : Nat} (nests : Nests inner outer)
    (together : topo.idxOf inner cpu = topo.idxOf inner other) :
    topo.idxOf outer cpu = topo.idxOf outer other := by
  obtain ⟨rfl, rfl⟩ | ⟨rfl, rfl⟩ | ⟨rfl, rfl⟩ := nests
  · rw [show cpu = other from together]
  · rw [show cpu = other from together]
  · exact congrArg (· / topo.corePerPackage) together

/-- The inner domains are those with a CPU in the outer domain. -/
theorem mem_domainNested (populated : topo.Populated) (nests : Nests inner outer)
    (known : idx < topo.numDomain outer) :
    ∃ nested, topo.domainNested inner outer idx = .ok nested ∧
      ∀ index, index ∈ nested ↔ ∃ cpu, cpu < topo.numDomain .cpu ∧
        topo.idxOf outer cpu = idx ∧ (topo.idxOf inner cpu : Int) = index := by
  obtain ⟨toldInner, toldOuter, nested⟩ := nests.told
  obtain ⟨cpus, found, members⟩ := domainCpus_eq populated toldOuter known
  have each : ∀ cpu ∈ cpus.sort (· ≤ ·),
      topo.domainIdx inner cpu = .ok (topo.idxOf inner cpu : Nat) := by
    intro cpu member
    rw [Finset.mem_sort, members] at member
    exact domainIdx_eq toldInner member.1
  rw [domainNested, if_pos nested, found]
  refine ⟨_, collect_ok each, fun index => ?_⟩
  simp only [List.mem_toFinset, List.mem_map, Finset.mem_sort, members]
  constructor
  · rintro ⟨cpu, ⟨online, place⟩, rfl⟩
    exact ⟨cpu, online, place, rfl⟩
  · rintro ⟨cpu, online, place, rfl⟩
    exact ⟨cpu, ⟨online, place⟩, rfl⟩

/-- The CPUs of each domain, as `domain_idx` tells them. -/
theorem domainCpus_iff (populated : topo.Populated) (told : OfCpu domain)
    (known : idx < topo.numDomain domain) :
    ∃ cpus, topo.domainCpus domain idx = .ok cpus ∧ cpus.Nonempty ∧
      ∀ cpu, cpu ∈ cpus ↔ cpu < topo.numDomain .cpu ∧ topo.domainIdx domain cpu = .ok (idx : Int) := by
  obtain ⟨cpus, found, members⟩ := domainCpus_eq populated told known
  obtain ⟨cpu, inside⟩ := idxOf_surjective populated told known
  refine ⟨cpus, found, ⟨cpu, (members cpu).mpr inside⟩, fun other => ?_⟩
  rw [members]
  refine and_congr_right fun online => ?_
  rw [domainIdx_eq told online, Except.ok.injEq]
  exact Int.natCast_inj.symm

theorem domainCpus_unique (populated : topo.Populated) (told : OfCpu domain)
    (online : cpu < topo.numDomain .cpu) :
    ∃! idx : Nat, idx < topo.numDomain domain ∧
      ∃ cpus, topo.domainCpus domain idx = .ok cpus ∧ cpu ∈ cpus := by
  have known := idxOf_lt populated told online
  obtain ⟨cpus, found, members⟩ := domainCpus_eq populated told known
  refine ⟨_, ⟨known, cpus, found, (members cpu).mpr ⟨online, rfl⟩⟩, ?_⟩
  rintro other ⟨knownOther, others, foundOther, member⟩
  obtain ⟨cpus, found, members⟩ := domainCpus_eq populated told knownOther
  rw [foundOther] at found
  cases found
  exact ((members cpu).mp member).2.symm

/-- The nested domains are those whose CPUs lie within the outer domain. -/
theorem domainNested_iff (populated : topo.Populated) (nests : Nests inner outer)
    (known : idx < topo.numDomain outer) :
    ∃ nested, topo.domainNested inner outer idx = .ok nested ∧ nested.Nonempty ∧
      ∀ index, index ∈ nested ↔ ∃ cpus within, topo.domainCpus inner index = .ok cpus ∧
        topo.domainCpus outer idx = .ok within ∧ cpus ⊆ within := by
  obtain ⟨toldInner, toldOuter, -⟩ := nests.told
  obtain ⟨nested, found, members⟩ := mem_domainNested populated nests known
  obtain ⟨within, foundOuter, inside⟩ := domainCpus_eq populated toldOuter known
  obtain ⟨cpu, online, place⟩ := idxOf_surjective populated toldOuter known
  refine ⟨nested, found, ⟨_, (members _).mpr ⟨cpu, online, place, rfl⟩⟩, fun index => ?_⟩
  rw [members]
  constructor
  · rintro ⟨cpu, online, place, rfl⟩
    obtain ⟨cpus, foundInner, each⟩ :=
      domainCpus_eq populated toldInner (idxOf_lt populated toldInner online)
    refine ⟨cpus, within, foundInner, foundOuter, fun other member => ?_⟩
    have together := (each other).mp member
    rw [inside]
    exact ⟨together.1, (nests.same together.2).trans place⟩
  · rintro ⟨cpus, outerCpus, foundInner, sameOuter, subset⟩
    rw [foundOuter] at sameOuter
    cases sameOuter
    have valid : ¬ (index < 0 ∨ (topo.numDomain inner : Int) ≤ index) := by
      intro outOfRange
      simp [domainCpus.eq_def, outOfRange] at foundInner
    obtain ⟨position, rfl⟩ := Int.eq_ofNat_of_zero_le (not_lt.mp fun negative => valid (.inl negative))
    have knownInner : position < topo.numDomain inner := by omega
    obtain ⟨cpu, online, placeInner⟩ := idxOf_surjective populated toldInner knownInner
    obtain ⟨others, foundOthers, each⟩ := domainCpus_eq populated toldInner knownInner
    rw [foundInner] at foundOthers
    cases foundOthers
    have lies := (inside cpu).mp (subset ((each cpu).mpr ⟨online, placeInner⟩))
    exact ⟨cpu, online, lies.2, congrArg Nat.cast placeInner⟩

theorem domainNested_unique {index : Nat} (populated : topo.Populated) (nests : Nests inner outer)
    (known : index < topo.numDomain inner) :
    ∃! idx : Nat, idx < topo.numDomain outer ∧
      ∃ nested, topo.domainNested inner outer idx = .ok nested ∧ (index : Int) ∈ nested := by
  obtain ⟨toldInner, toldOuter, -⟩ := nests.told
  obtain ⟨cpu, online, rfl⟩ := idxOf_surjective populated toldInner known
  have knownOuter := idxOf_lt populated toldOuter online
  obtain ⟨nested, found, members⟩ := mem_domainNested populated nests knownOuter
  refine ⟨_, ⟨knownOuter, nested, found, (members _).mpr ⟨cpu, online, rfl, rfl⟩⟩, ?_⟩
  rintro other ⟨knownOther, others, foundOther, member⟩
  obtain ⟨nested, found, members⟩ := mem_domainNested populated nests knownOther
  rw [foundOther] at found
  cases found
  obtain ⟨witness, -, rfl, together⟩ := (members _).mp member
  exact nests.same (by omega)

/-- The CPUs of the package, core and CPU domains are a partition that `domain_idx` inverts, and
the nested domains of each outer domain are those whose CPUs lie in it. -/
theorem cpu_maps (topo : PlatformTopo) (packages : 1 ≤ topo.numPackage)
    (cores : 1 ≤ topo.corePerPackage) (threads : 1 ≤ topo.threadPerCore) :
    (∀ domain, OfCpu domain →
      (∀ idx < topo.numDomain domain, ∃ cpus, topo.domainCpus domain idx = .ok cpus ∧
        cpus.Nonempty ∧ ∀ cpu, cpu ∈ cpus ↔
          cpu < topo.numDomain .cpu ∧ topo.domainIdx domain cpu = .ok (idx : Int)) ∧
      ∀ cpu < topo.numDomain .cpu, ∃! idx : Nat, idx < topo.numDomain domain ∧
        ∃ cpus, topo.domainCpus domain idx = .ok cpus ∧ cpu ∈ cpus) ∧
    ∀ inner outer, Nests inner outer →
      (∀ idx < topo.numDomain outer, ∃ nested, topo.domainNested inner outer idx = .ok nested ∧
        nested.Nonempty ∧ ∀ index, index ∈ nested ↔
          ∃ cpus within, topo.domainCpus inner index = .ok cpus ∧
            topo.domainCpus outer idx = .ok within ∧ cpus ⊆ within) ∧
      ∀ index < topo.numDomain inner, ∃! idx : Nat, idx < topo.numDomain outer ∧
        ∃ nested, topo.domainNested inner outer idx = .ok nested ∧ (index : Int) ∈ nested := by
  have populated : topo.Populated := ⟨packages, cores, threads⟩
  constructor
  · intro domain told
    exact ⟨fun idx known => domainCpus_iff populated told known,
      fun cpu online => domainCpus_unique populated told online⟩
  · intro inner outer nests
    exact ⟨fun idx known => domainNested_iff populated nests known,
      fun index known => domainNested_unique populated nests known⟩

/-- Two packages of three cores with two threads each. -/
def twoPackages : PlatformTopo where
  numPackage := 2
  corePerPackage := 3
  threadPerCore := 2
  numaMap := []
  numAccelerator := 0
  cpuAffinityIdeal _ := ∅

theorem cpu_maps_twoPackages :
    1 ≤ twoPackages.numPackage ∧ 1 ≤ twoPackages.corePerPackage ∧ 1 ≤ twoPackages.threadPerCore ∧
      ∃! idx : Nat, idx < twoPackages.numDomain .package ∧
        ∃ cpus, twoPackages.domainCpus .package idx = .ok cpus ∧ 11 ∈ cpus :=
  ⟨by decide, by decide, by decide,
    ((cpu_maps twoPackages (by decide) (by decide) (by decide)).1 .package (.inl rfl)).2 11
      (by decide)⟩

end Cpus

end PlatformTopo

end Geopm
