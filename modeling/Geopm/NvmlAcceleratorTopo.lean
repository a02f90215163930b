import Mathlib.Data.Finset.Card
import Mathlib.Data.Finset.Union
import Mathlib.Data.Fintype.Basic
import Mathlib.Data.List.FinRange
import Mathlib.Order.Disjoint

namespace Geopm

/-! `NVMLAcceleratorTopo`: the CPUs of each accelerator. -/

namespace NvmlAcceleratorTopo

variable {numAccelerator numCpu : Nat}

/-- `CPU_SETSIZE`: `CPU_ISSET`, `CPU_SET` and `CPU_CLR` handle the CPUs below it, whatever the size of the set is. -/
def cpuSetSize : Nat := 1024

/-- `CPU_ISSET`. -/
def CpuIsSet (cpu : Fin numCpu) (cpus : Finset (Fin numCpu)) : Prop := cpu.val < cpuSetSize ∧ cpu ∈ cpus

instance (cpu : Fin numCpu) (cpus : Finset (Fin numCpu)) : Decidable (CpuIsSet cpu cpus) :=
  inferInstanceAs (Decidable (_ ∧ _))

/-- `CPU_SET`. -/
def cpuSet (cpu : Fin numCpu) (cpus : Finset (Fin numCpu)) : Finset (Fin numCpu) :=
  if cpu.val < cpuSetSize then insert cpu cpus else cpus

/-- `CPU_CLR`. -/
def cpuClr (cpu : Fin numCpu) (cpus : Finset (Fin numCpu)) : Finset (Fin numCpu) :=
  if cpu.val < cpuSetSize then cpus.erase cpu else cpus

/-- The variables of the constructor. -/
structure Affinity (numAccelerator numCpu : Nat) where
  cpuRemaining : Int
  idealMask : Fin numAccelerator → Finset (Fin numCpu)
  cpuAffinityIdeal : Fin numAccelerator → Finset (Fin numCpu)

/-- A CPU of a mask that has not been picked by another accelerator is counted. -/
def count (mask : Finset (Fin numCpu)) (counted : Finset (Fin numCpu) × Int) (cpu : Fin numCpu) :
    Finset (Fin numCpu) × Int :=
  if CpuIsSet cpu mask ∧ ¬ CpuIsSet cpu counted.1 then (cpuSet cpu counted.1, counted.2 + 1) else counted

/-- `affinitized_cpuset` and `cpu_remaining` before the passes. -/
def countAll (ideal : Fin numAccelerator → Finset (Fin numCpu)) : Finset (Fin numCpu) × Int :=
  (List.finRange numAccelerator).foldl
    (fun counted accel => (List.finRange numCpu).foldl (count (ideal accel)) counted) (∅, 0)

/-- `num_cpu_per_accelerator`. -/
def numCpuPerAccelerator (numAccelerator : Nat) (cpuRemaining : Int) : Nat :=
  if (cpuRemaining / numAccelerator).toNat = 0 then (cpuRemaining % numAccelerator).toNat
  else (cpuRemaining / numAccelerator).toNat

namespace Affinity

/-- A CPU is given to an accelerator, and removed from the masks of all. -/
def assign (accel : Fin numAccelerator) (cpu : Fin numCpu) (state : Affinity numAccelerator numCpu) :
    Affinity numAccelerator numCpu where
  cpuRemaining := state.cpuRemaining - 1
  idealMask := fun inner => cpuClr cpu (state.idealMask inner)
  cpuAffinityIdeal := Function.update state.cpuAffinityIdeal accel (insert cpu (state.cpuAffinityIdeal accel))

/-- The loop over the CPUs, until the accelerator has its number of them. -/
def pick (accel : Fin numAccelerator) (quota : Nat) :
    List (Fin numCpu) → Nat → Affinity numAccelerator numCpu → Affinity numAccelerator numCpu
  | [], _, state => state
  | cpu :: rest, acceleratorCpuCount, state =>
      if acceleratorCpuCount < quota then
        if CpuIsSet cpu (state.idealMask accel) then
          pick accel quota rest (acceleratorCpuCount + 1) (state.assign accel cpu)
        else pick accel quota rest acceleratorCpuCount state
      else state

/-- One of the two passes over the accelerators. -/
def attempt (state : Affinity numAccelerator numCpu) : Affinity numAccelerator numCpu :=
  let quota := numCpuPerAccelerator numAccelerator state.cpuRemaining
  (List.finRange numAccelerator).foldl (fun state accel => state.pick accel quota (List.finRange numCpu) 0) state

/-- Before the passes. -/
def start (ideal : Fin numAccelerator → Finset (Fin numCpu)) : Affinity numAccelerator numCpu :=
  ⟨(countAll ideal).2, ideal, fun _ => ∅⟩

/-- After both passes. -/
def greedy (ideal : Fin numAccelerator → Finset (Fin numCpu)) : Affinity numAccelerator numCpu :=
  (start ideal).attempt.attempt

end Affinity

/-- The constructor. It throws the number of CPUs that "remain unassociated with any accelerator." -/
def construct (ideal : Fin numAccelerator → Finset (Fin numCpu)) :
    Except Int (Fin numAccelerator → Finset (Fin numCpu)) :=
  if numAccelerator = 0 then .ok fun _ => ∅
  else if (Affinity.greedy ideal).cpuRemaining ≠ 0 then .error (Affinity.greedy ideal).cpuRemaining
  else .ok (Affinity.greedy ideal).cpuAffinityIdeal

/-- The sets of the accelerators partition the union of the masks, each within its own. -/
structure IsPartition (ideal affinity : Fin numAccelerator → Finset (Fin numCpu)) : Prop where
  disjoint : Pairwise (Function.onFun Disjoint affinity)
  within : ∀ accel, affinity accel ⊆ ideal accel
  covers : Finset.univ.biUnion affinity = Finset.univ.biUnion ideal

/-- The constructor makes a partition, or throws since a CPU was not assigned, which does not happen if all masks are
equal. -/
structure Affinitizes (ideal : Fin numAccelerator → Finset (Fin numCpu)) : Prop where
  partition : ∀ affinity, construct ideal = .ok affinity → IsPartition ideal affinity
  throws_iff : (∃ remaining, construct ideal = .error remaining) ↔
    ∃ cpu ∈ Finset.univ.biUnion ideal, ∀ accel, cpu ∉ (Affinity.greedy ideal).cpuAffinityIdeal accel
  equal : (∀ accel other, ideal accel = ideal other) → ∃ affinity, construct ideal = .ok affinity

/-- The CPUs of the masks that can be assigned. -/
def pending (masks : Fin numAccelerator → Finset (Fin numCpu)) : Finset (Fin numCpu) :=
  Finset.univ.filter fun cpu => ∃ accel, CpuIsSet cpu (masks accel)

variable {ideal masks : Fin numAccelerator → Finset (Fin numCpu)} {mask : Finset (Fin numCpu)} {cpu : Fin numCpu}
  {cpus : List (Fin numCpu)} {accel : Fin numAccelerator} {accels : List (Fin numAccelerator)} {quota taken : Nat}
  {state : Affinity numAccelerator numCpu} {counted : Finset (Fin numCpu) × Int}

theorem mem_pending : cpu ∈ pending masks ↔ ∃ accel, CpuIsSet cpu (masks accel) := by
  rw [pending, Finset.mem_filter, and_iff_right (Finset.mem_univ cpu)]

theorem count_cpus (exact : counted.2 = counted.1.card) :
    (cpus.foldl (count mask) counted).2 = (cpus.foldl (count mask) counted).1.card ∧
      ∀ cpu, cpu ∈ (cpus.foldl (count mask) counted).1 ↔ cpu ∈ counted.1 ∨ cpu ∈ cpus ∧ CpuIsSet cpu mask := by
  induction cpus generalizing counted with
  | nil => simpa using exact
  | cons head rest ih =>
      rw [List.foldl_cons, count]
      split
      · next news =>
          obtain ⟨seen, unseen⟩ := news
          have absent : head ∉ counted.1 := fun member => unseen ⟨seen.1, member⟩
          have inserted : cpuSet head counted.1 = insert head counted.1 := if_pos seen.1
          rw [inserted]
          obtain ⟨others, members⟩ := @ih (insert head counted.1, counted.2 + 1) (by
            simp only [Finset.card_insert_of_notMem absent, exact, Int.natCast_add, Int.natCast_one])
          refine ⟨others, fun cpu => ?_⟩
          rw [members, Finset.mem_insert, List.mem_cons]
          constructor
          · rintro ((rfl | old) | new)
            · exact .inr ⟨.inl rfl, seen⟩
            · exact .inl old
            · exact .inr ⟨.inr new.1, new.2⟩
          · rintro (old | ⟨rfl | later, set⟩)
            · exact .inl (.inr old)
            · exact .inl (.inl rfl)
            · exact .inr ⟨later, set⟩
      · next known =>
          obtain ⟨others, members⟩ := ih exact
          refine ⟨others, fun cpu => ?_⟩
          rw [members, List.mem_cons]
          constructor
          · exact Or.imp_right (And.imp_left .inr)
          · rintro (old | ⟨rfl | later, set⟩)
            · exact .inl old
            · exact .inl (not_not.mp (not_and.mp known set)).2
            · exact .inr ⟨later, set⟩

/-- Each CPU that can be assigned is counted once. -/
theorem countAll_eq : (countAll ideal).2 = (pending ideal).card := by
  have each (accels : List (Fin numAccelerator)) (counted : Finset (Fin numCpu) × Int)
      (exact : counted.2 = counted.1.card) :
      let after := accels.foldl (fun counted accel => (List.finRange numCpu).foldl (count (ideal accel)) counted) counted
      after.2 = after.1.card ∧
        ∀ cpu, cpu ∈ after.1 ↔ cpu ∈ counted.1 ∨ ∃ accel ∈ accels, CpuIsSet cpu (ideal accel) := by
    induction accels generalizing counted with
    | nil => simpa using exact
    | cons accel rest ih =>
        obtain ⟨first, members⟩ := @count_cpus _ (ideal accel) (List.finRange numCpu) counted exact
        obtain ⟨others, later⟩ := ih _ first
        refine ⟨others, fun cpu => (later cpu).trans ?_⟩
        rw [members, List.exists_mem_cons_iff, and_iff_right (List.mem_finRange cpu), or_assoc]
  obtain ⟨exact, members⟩ := each (List.finRange numAccelerator) (∅, 0) rfl
  rw [countAll, exact]
  congr 2
  ext cpu
  rw [members, mem_pending]
  simp

namespace Affinity

/-- What the passes have assigned so far. -/
structure Partial (ideal : Fin numAccelerator → Finset (Fin numCpu)) (state : Affinity numAccelerator numCpu) : Prop where
  within : ∀ accel, ∀ cpu ∈ state.cpuAffinityIdeal accel, CpuIsSet cpu (ideal accel)
  disjoint : Pairwise (Function.onFun Disjoint state.cpuAffinityIdeal)
  /-- the masks hold what is not assigned -/
  free : ∀ accel cpu, cpu ∈ state.idealMask accel ↔
    cpu ∈ ideal accel ∧ ∀ other, cpu ∉ state.cpuAffinityIdeal other
  remaining : state.cpuRemaining = (pending state.idealMask).card

theorem partial_start : Partial ideal (start ideal) where
  within := fun _ _ member => absurd member (Finset.notMem_empty _)
  disjoint := fun _ _ _ => Finset.disjoint_empty_left _
  free := fun _ _ => (and_iff_left fun _ => Finset.notMem_empty _).symm
  remaining := countAll_eq

theorem mem_assign {other : Fin numAccelerator} {found : Fin numCpu} :
    found ∈ (state.assign accel cpu).cpuAffinityIdeal other ↔
      found ∈ state.cpuAffinityIdeal other ∨ other = accel ∧ found = cpu := by
  simp only [assign]
  by_cases same : other = accel
  · rw [same, Function.update_self, Finset.mem_insert, and_iff_right rfl, or_comm]
  · rw [Function.update_of_ne same]
    simp [same]

theorem pending_assign (seen : CpuIsSet cpu (state.idealMask accel)) :
    pending (state.assign accel cpu).idealMask = (pending state.idealMask).erase cpu := by
  ext found
  rw [Finset.mem_erase, mem_pending, mem_pending]
  simp only [assign, cpuClr, if_pos seen.1, CpuIsSet, Finset.mem_erase]
  constructor
  · intro held
    obtain ⟨inner, below, other, member⟩ := held
    exact ⟨other, inner, below, member⟩
  · intro held
    obtain ⟨other, inner, below, member⟩ := held
    exact ⟨inner, below, other, member⟩

theorem Partial.assign (partly : Partial ideal state) (seen : CpuIsSet cpu (state.idealMask accel)) :
    Partial ideal (state.assign accel cpu) := by
  obtain ⟨member, unassigned⟩ := (partly.free accel cpu).mp seen.2
  refine ⟨fun other found assigned => ?_, fun first second different => ?_, fun inner found => ?_, ?_⟩
  · rcases mem_assign.mp assigned with old | ⟨rfl, rfl⟩
    · exact partly.within other found old
    · exact ⟨seen.1, member⟩
  · apply Finset.disjoint_left.mpr
    intro found inFirst inSecond
    rcases mem_assign.mp inFirst with first_old | ⟨rfl, rfl⟩
    · rcases mem_assign.mp inSecond with second_old | ⟨rfl, rfl⟩
      · exact Finset.disjoint_left.mp (partly.disjoint different) first_old second_old
      · exact unassigned first first_old
    · rcases mem_assign.mp inSecond with second_old | ⟨rfl, _⟩
      · exact unassigned second second_old
      · exact different rfl
  · have cleared : (state.assign accel cpu).idealMask inner = (state.idealMask inner).erase cpu := if_pos seen.1
    rw [cleared, Finset.mem_erase, partly.free]
    simp only [mem_assign, not_or, not_and]
    constructor
    · intro held
      exact ⟨held.2.1, fun other => ⟨held.2.2 other, fun _ => held.1⟩⟩
    · intro held
      exact ⟨(held.2 accel).2 rfl, held.1, fun other => (held.2 other).1⟩
  · rw [pending_assign seen, Finset.card_erase_of_mem (mem_pending.mpr ⟨accel, seen⟩),
      Int.ofNat_sub (Finset.card_pos.mpr ⟨cpu, mem_pending.mpr ⟨accel, seen⟩⟩), ← partly.remaining]
    rfl

theorem Partial.pick (partly : Partial ideal state) : Partial ideal (state.pick accel quota cpus taken) := by
  induction cpus generalizing taken state with
  | nil => exact partly
  | cons cpu rest ih =>
      rw [Affinity.pick]
      split
      · split
        · next seen => exact ih (partly.assign seen)
        · exact ih partly
      · exact partly

theorem Partial.attempt (partly : Partial ideal state) : Partial ideal state.attempt := by
  rw [Affinity.attempt]
  generalize numCpuPerAccelerator numAccelerator state.cpuRemaining = quota
  induction List.finRange numAccelerator generalizing state with
  | nil => exact partly
  | cons accel rest ih => exact ih partly.pick

theorem partial_greedy : Partial ideal (greedy ideal) := partial_start.attempt.attempt

/-- Nothing remains exactly if every CPU that can be assigned is. -/
theorem Partial.remaining_eq_zero (partly : Partial ideal state) : state.cpuRemaining = 0 ↔
    ∀ accel cpu, CpuIsSet cpu (ideal accel) → ∃ other, cpu ∈ state.cpuAffinityIdeal other := by
  rw [partly.remaining, Int.natCast_eq_zero, Finset.card_eq_zero, Finset.eq_empty_iff_forall_notMem]
  constructor
  · intro empty accel cpu seen
    by_contra unassigned
    rw [not_exists] at unassigned
    exact empty cpu (mem_pending.mpr ⟨accel, seen.1, (partly.free accel cpu).mpr ⟨seen.2, unassigned⟩⟩)
  · intro assigned cpu held
    obtain ⟨accel, below, member⟩ := mem_pending.mp held
    obtain ⟨member, unassigned⟩ := (partly.free accel cpu).mp member
    obtain ⟨other, found⟩ := assigned accel cpu ⟨below, member⟩
    exact unassigned other found

/-- All accelerators have the same mask. -/
def Equal (state : Affinity numAccelerator numCpu) : Prop := ∀ accel other, state.idealMask accel = state.idealMask other

theorem Equal.assign (equal : state.Equal) : (state.assign accel cpu).Equal :=
  fun first second => congrArg (cpuClr cpu) (equal first second)

theorem Equal.pick (equal : state.Equal) : (state.pick accel quota cpus taken).Equal := by
  induction cpus generalizing taken state with
  | nil => exact equal
  | cons cpu rest ih =>
      rw [Affinity.pick]
      split
      · split
        · exact ih equal.assign
        · exact ih equal
      · exact equal

/-- An accelerator gets its number of CPUs, or all that its mask has. -/
theorem pick_remaining (distinct : cpus.Nodup) : (state.pick accel quota cpus taken).cpuRemaining =
    state.cpuRemaining -
      ↑(min (quota - taken) (cpus.filter fun cpu => CpuIsSet cpu (state.idealMask accel)).length) := by
  induction cpus generalizing taken state with
  | nil => simp [pick]
  | cons cpu rest ih =>
      rw [List.nodup_cons] at distinct
      rw [Affinity.pick]
      by_cases more : taken < quota
      case pos =>
          rw [if_pos more]
          by_cases seen : CpuIsSet cpu (state.idealMask accel)
          case pos =>
              have others : (rest.filter fun other => CpuIsSet other ((state.assign accel cpu).idealMask accel)) =
                  rest.filter fun other => CpuIsSet other (state.idealMask accel) := by
                refine List.filter_congr fun other later => ?_
                have different : other ≠ cpu := fun same => distinct.1 (same ▸ later)
                have cleared : (state.assign accel cpu).idealMask accel = (state.idealMask accel).erase cpu := if_pos seen.1
                rw [decide_eq_decide, CpuIsSet, CpuIsSet, cleared, Finset.mem_erase, and_iff_right different]
              rw [if_pos seen, ih distinct.2, others, List.filter_cons_of_pos (by simpa using seen), List.length_cons]
              simp only [assign]
              omega
          case neg => rw [if_neg seen, ih distinct.2, List.filter_cons_of_neg (by simpa using seen)]
      case neg =>
          rw [if_neg more, Nat.sub_eq_zero_of_le (not_lt.mp more), Nat.zero_min]
          simp

theorem Partial.pick_equal {remaining : Nat} (partly : Partial ideal state) (equal : state.Equal)
    (counted : state.cpuRemaining = remaining) :
    (state.pick accel quota (List.finRange numCpu) 0).cpuRemaining = ↑(remaining - quota) := by
  have same : pending state.idealMask = Finset.univ.filter fun cpu => CpuIsSet cpu (state.idealMask accel) := by
    rw [pending]
    refine Finset.filter_congr fun cpu _ => ⟨fun held => ?_, fun seen => ⟨accel, seen⟩⟩
    obtain ⟨other, seen⟩ := held
    rwa [equal accel other]
  have held : ((List.finRange numCpu).filter fun cpu => CpuIsSet cpu (state.idealMask accel)).length = remaining := by
    have exact := partly.remaining
    rw [same, counted] at exact
    exact (Int.ofNat.inj exact).symm
  rw [pick_remaining (List.nodup_finRange numCpu), held, counted]
  omega

theorem Partial.attempt_equal {remaining : Nat} (partly : Partial ideal state) (equal : state.Equal)
    (counted : state.cpuRemaining = remaining) : state.attempt.Equal ∧
      state.attempt.cpuRemaining = ↑(remaining - numAccelerator * numCpuPerAccelerator numAccelerator remaining) := by
  rw [Affinity.attempt, counted]
  generalize numCpuPerAccelerator numAccelerator remaining = quota
  have each (accels : List (Fin numAccelerator)) :
      let after := accels.foldl (fun state accel => state.pick accel quota (List.finRange numCpu) 0) state
      after.Equal ∧ after.cpuRemaining = ↑(remaining - accels.length * quota) := by
    induction accels generalizing state remaining with
    | nil =>
        rw [List.length_nil, Nat.zero_mul]
        exact ⟨equal, counted⟩
    | cons accel rest ih =>
        have next := @ih (state.pick accel quota (List.finRange numCpu) 0) (remaining - quota) partly.pick equal.pick
          (partly.pick_equal equal counted)
        rw [List.length_cons, Nat.add_mul, Nat.one_mul, Nat.add_comm, ← Nat.sub_sub]
        exact next
  have all := each (List.finRange numAccelerator)
  rw [List.length_finRange] at all
  exact all

/-- Two passes over equal masks leave nothing. -/
theorem numCpuPerAccelerator_twice {remaining : Nat} (some_accelerator : 0 < numAccelerator) :
    let rest := remaining - numAccelerator * numCpuPerAccelerator numAccelerator remaining
    rest - numAccelerator * numCpuPerAccelerator numAccelerator rest = 0 := by
  have quota (remaining : Nat) : numCpuPerAccelerator numAccelerator remaining =
      if remaining / numAccelerator = 0 then remaining % numAccelerator else remaining / numAccelerator := by
    rw [numCpuPerAccelerator, ← Int.natCast_ediv, ← Int.natCast_emod, Int.toNat_natCast, Int.toNat_natCast]
  -- fewer CPUs than accelerators are all given to the first
  have few (remaining : Nat) (below : remaining < numAccelerator) :
      remaining - numAccelerator * numCpuPerAccelerator numAccelerator remaining = 0 := by
    rw [quota, Nat.div_eq_of_lt below, if_pos rfl, Nat.mod_eq_of_lt below]
    exact Nat.sub_eq_zero_of_le (Nat.le_mul_of_pos_left _ some_accelerator)
  intro rest
  by_cases below : remaining < numAccelerator
  case pos =>
      rw [show rest = 0 from few remaining below, Nat.zero_sub]
  case neg =>
      apply few
      have some_each : remaining / numAccelerator ≠ 0 :=
        Nat.pos_iff_ne_zero.mp (Nat.div_pos (not_lt.mp below) some_accelerator)
      have split := Nat.div_add_mod remaining numAccelerator
      have remainder := Nat.mod_lt remaining some_accelerator
      simp only [rest, quota, if_neg some_each]
      omega

theorem greedy_equal (some_accelerator : 0 < numAccelerator) (equal : ∀ accel other, ideal accel = ideal other) :
    (greedy ideal).cpuRemaining = 0 := by
  have begun : Partial ideal (start ideal) := partial_start
  obtain ⟨still, first⟩ := begun.attempt_equal equal countAll_eq
  obtain ⟨_, second⟩ := begun.attempt.attempt_equal still first
  rw [greedy, second, numCpuPerAccelerator_twice some_accelerator]
  rfl

end Affinity

theorem construct_eq (some_accelerator : 0 < numAccelerator) : construct ideal =
    if (Affinity.greedy ideal).cpuRemaining = 0 then .ok (Affinity.greedy ideal).cpuAffinityIdeal
    else .error (Affinity.greedy ideal).cpuRemaining := by
  rw [construct, if_neg some_accelerator.ne']
  by_cases none : (Affinity.greedy ideal).cpuRemaining = 0
  · rw [if_pos none, if_neg (not_not.mpr none)]
  · rw [if_neg none, if_pos none]

theorem construct_equal (some_accelerator : 0 < numAccelerator) (equal : ∀ accel other, ideal accel = ideal other) :
    ∃ affinity, construct ideal = .ok affinity := by
  rw [construct_eq some_accelerator, if_pos (Affinity.greedy_equal some_accelerator equal)]
  exact ⟨_, rfl⟩

/-- A CPU that is not below the limit is not assigned. -/
theorem not_covered {affinity : Fin numAccelerator → Finset (Fin numCpu)} (some_accelerator : 0 < numAccelerator)
    (masked : ∃ accel, cpu ∈ ideal accel) (above : cpuSetSize ≤ cpu.val) (made : construct ideal = .ok affinity) :
    ¬ IsPartition ideal affinity := by
  intro partition
  have member : cpu ∈ Finset.univ.biUnion affinity := by
    obtain ⟨accel, masked⟩ := masked
    rw [partition.covers]
    exact Finset.mem_biUnion.mpr ⟨accel, Finset.mem_univ accel, masked⟩
  obtain ⟨other, _, assigned⟩ := Finset.mem_biUnion.mp member
  rw [construct_eq some_accelerator] at made
  split at made
  · cases made
    exact absurd (Affinity.partial_greedy.within other cpu assigned).1 (not_lt.mpr above)
  · cases made

/-- Where the masks have CPUs below the limit alone, the constructor keeps to them. Where they have another one, it
does so only if it throws. -/
theorem affinitizes_below (some_accelerator : 0 < numAccelerator) (ideal : Fin numAccelerator → Finset (Fin numCpu)) :
    ((∀ accel, ∀ cpu ∈ ideal accel, cpu.val < cpuSetSize) → Affinitizes ideal) ∧
      ((∃ accel, ∃ cpu ∈ ideal accel, cpuSetSize ≤ cpu.val) →
        (Affinitizes ideal ↔ ∃ remaining, construct ideal = .error remaining)) := by
  have partly : Affinity.Partial ideal (Affinity.greedy ideal) := Affinity.partial_greedy
  constructor
  · intro below
    refine ⟨fun affinity made => ?_, ?_, construct_equal some_accelerator⟩
    · rw [construct_eq some_accelerator] at made
      split at made
      case isFalse => cases made
      case isTrue none =>
          cases made
          refine ⟨partly.disjoint, fun accel cpu member => (partly.within accel cpu member).2, ?_⟩
          ext cpu
          simp only [Finset.mem_biUnion, Finset.mem_univ, true_and]
          constructor
          · intro assigned
            obtain ⟨accel, member⟩ := assigned
            exact ⟨accel, (partly.within accel cpu member).2⟩
          · intro masked
            obtain ⟨accel, member⟩ := masked
            exact partly.remaining_eq_zero.mp none accel cpu ⟨below accel cpu member, member⟩
    · rw [construct_eq some_accelerator]
      split
      case isTrue none =>
          refine iff_of_false (fun thrown => by cases thrown.choose_spec) fun unassigned => ?_
          obtain ⟨cpu, masked, lost⟩ := unassigned
          obtain ⟨accel, _, member⟩ := Finset.mem_biUnion.mp masked
          obtain ⟨other, found⟩ := partly.remaining_eq_zero.mp none accel cpu ⟨below accel cpu member, member⟩
          exact lost other found
      case isFalse some =>
          refine iff_of_true ⟨_, rfl⟩ ?_
          by_contra all
          refine some (partly.remaining_eq_zero.mpr fun accel cpu seen => ?_)
          by_contra lost
          exact all ⟨cpu, Finset.mem_biUnion.mpr ⟨accel, Finset.mem_univ accel, seen.2⟩, not_exists.mp lost⟩
  · intro above
    obtain ⟨accel, cpu, member, above⟩ := above
    have unassigned : ∃ cpu ∈ Finset.univ.biUnion ideal, ∀ accel, cpu ∉ (Affinity.greedy ideal).cpuAffinityIdeal accel :=
      ⟨cpu, Finset.mem_biUnion.mpr ⟨accel, Finset.mem_univ accel, member⟩, fun other assigned =>
        absurd (partly.within other cpu assigned).1 (not_lt.mpr above)⟩
    constructor
    · exact fun affinitizes => affinitizes.throws_iff.mpr unassigned
    · intro thrown
      obtain ⟨remaining, thrown⟩ := thrown
      refine ⟨fun affinity made => ?_, iff_of_true ⟨remaining, thrown⟩ unassigned, fun equal => ?_⟩
      · rw [thrown] at made
        cases made
      · exact construct_equal some_accelerator equal

theorem affinitizes_below_single : ((∀ accel, ∀ cpu ∈ (fun _ => {0} : Fin 1 → Finset (Fin 1)) accel, cpu.val < cpuSetSize) →
      Affinitizes (fun _ => {0} : Fin 1 → Finset (Fin 1))) ∧
    ((∃ accel, ∃ cpu ∈ (fun _ => {0} : Fin 1 → Finset (Fin 1)) accel, cpuSetSize ≤ cpu.val) →
      (Affinitizes (fun _ => {0} : Fin 1 → Finset (Fin 1)) ↔
        ∃ remaining, construct (fun _ => {0} : Fin 1 → Finset (Fin 1)) = .error remaining)) :=
  affinitizes_below Nat.one_pos _

/-- A CPU from 1024 on is neither assigned nor missed. -/
theorem not_affinitizes_above :
    ¬ ∀ (numAccelerator numCpu : Nat) (ideal : Fin numAccelerator → Finset (Fin numCpu)), 0 < numAccelerator →
      Affinitizes ideal := by
  intro all
  have affinitizes := all 1 1025 (fun _ => {Fin.last 1024}) Nat.one_pos
  obtain ⟨affinity, made⟩ := affinitizes.equal fun _ _ => rfl
  have masked : ∃ accel, Fin.last 1024 ∈ (fun _ => {Fin.last 1024} : Fin 1 → Finset (Fin 1025)) accel :=
    ⟨0, Finset.mem_singleton_self _⟩
  have above : cpuSetSize ≤ (Fin.last 1024).val := Nat.le_refl 1024
  exact not_covered Nat.one_pos masked above made (affinitizes.partition affinity made)

end NvmlAcceleratorTopo

end Geopm
