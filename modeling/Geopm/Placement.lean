import Geopm.Launcher
import Mathlib.Tactic.Linarith
import Mathlib.Tactic.Ring

namespace Geopm.Launcher

/-! The CPU sets of the launcher are a legal placement. -/

/-- The core of a CPU, whose hyperthreads are a whole number of cores apart. -/
def coreOf (launcher : Launcher) (cpu : Int) : Int := cpu % launcher.corePerNode

def socketOf (launcher : Launcher) (cpu : Int) : Int := launcher.coreOf cpu / launcher.corePerSocket

/-- A node with some CPU, and some CPU for some rank. -/
structure Topology (launcher : Launcher) : Prop where
  sockets : 1 ≤ launcher.numSocket
  cores : 1 ≤ launcher.corePerSocket
  threads : 1 ≤ launcher.threadPerCore
  cpus : launcher.numLinuxCpu = launcher.numSocket * launcher.corePerSocket * launcher.threadPerCore
  ranks : 1 ≤ launcher.numAppMask
  cpusOfRank : 1 ≤ launcher.cpuPerRank

/-- Every core has a CPU in some set. -/
def EveryCoreOccupied (launcher : Launcher) (sets : List (Finset Int)) : Prop :=
  ∀ core : Int, 0 ≤ core → core < launcher.corePerNode →
    ∃ set ∈ sets, ∃ cpu ∈ set, launcher.coreOf cpu = core

/-- Every CPU of the node is in some set. -/
def EveryCpuOccupied (launcher : Launcher) (sets : List (Finset Int)) : Prop :=
  ∀ cpu : Int, 0 ≤ cpu → cpu < launcher.numLinuxCpu → ∃ set ∈ sets, cpu ∈ set

structure LegalPlacement (launcher : Launcher) (ctlCpu : Int) (sets : List (Finset Int)) : Prop where
  count : sets.length = launcher.numAppMask
  disjoint : sets.Pairwise Disjoint
  apart : sets.Pairwise fun first second =>
    ∀ cpu ∈ first, ∀ other ∈ second, launcher.coreOf cpu ≠ launcher.coreOf other
  valid : ∀ set ∈ sets, ∀ cpu ∈ set, 0 ≤ cpu ∧ cpu < launcher.numLinuxCpu
  enough : ∀ set ∈ sets, launcher.cpuPerRank ≤ set.card
  oneSocket : launcher.numSocket ∣ launcher.numAppMask →
    ∀ set ∈ sets, ∃ socket, ∀ cpu ∈ set, launcher.socketOf cpu = socket
  controller : (∃ set ∈ sets, ctlCpu ∈ set) →
    launcher.EveryCoreOccupied sets ∧
      (launcher.allowHtPinning = false ∨ launcher.EveryCpuOccupied sets)

variable {launcher : Launcher} {coreIndex core cpu top : Int} {result sets : List (Finset Int)}
  {tops : List Int} {ranks : Nat}

section Threads

theorem threadsWithin_ends {passes threads : Nat} (some_core : 1 ≤ launcher.corePerNode)
    (enough : launcher.appCpuPerNode ≤ passes + threads) :
    threads ≤ launcher.threadsWithin passes threads ∧
      launcher.appCpuPerNode ≤ launcher.threadsWithin passes threads * launcher.corePerNode := by
  induction passes generalizing threads with
  | zero =>
      rw [threadsWithin]
      refine ⟨le_rfl, ?_⟩
      calc launcher.appCpuPerNode ≤ threads := by omega
        _ ≤ threads * launcher.corePerNode := Nat.le_mul_of_pos_right _ some_core
  | succ passes ih =>
      rw [threadsWithin]
      split
      · obtain ⟨more, done⟩ := @ih (threads + 1) (by omega)
        exact ⟨by omega, done⟩
      · exact ⟨le_rfl, by omega⟩

theorem appThreadPerCore_pos (some_core : 1 ≤ launcher.corePerNode) : 1 ≤ launcher.appThreadPerCore :=
  (threadsWithin_ends some_core (by omega)).1

/-- The cores of a rank have CPUs enough for it. -/
theorem cpuPerRank_le (some_core : 1 ≤ launcher.corePerNode) :
    launcher.cpuPerRank ≤ launcher.appThreadPerCore * launcher.appCorePerRank := by
  have split := Nat.div_add_mod launcher.cpuPerRank launcher.appThreadPerCore
  have remainder := Nat.mod_lt launcher.cpuPerRank (appThreadPerCore_pos some_core)
  rw [appCorePerRank]
  split
  · rw [Nat.mul_add, Nat.mul_one]
    omega
  · omega

end Threads

section Range

theorem mem_cpuRange : cpu ∈ launcher.cpuRange top ↔
    ∃ core : Int, top - launcher.appCorePerRank < core ∧ core ≤ top ∧
      ∃ ht < launcher.appThreadPerCore, cpu = core + (ht * launcher.corePerNode : Nat) := by
  simp only [cpuRange, Finset.mem_biUnion, Finset.mem_range, Finset.mem_image]
  constructor
  · rintro ⟨ht, used, core, ⟨step, few, rfl⟩, rfl⟩
    exact ⟨top - step, by omega, by omega, ht, used, rfl⟩
  · rintro ⟨core, after, upTo, ht, used, rfl⟩
    exact ⟨ht, used, core, ⟨(top - core).toNat, by omega, by omega⟩, rfl⟩

/-- The core and the hyperthread of a CPU are its remainder and its quotient. -/
theorem coreOf_add {ht : Nat} (positive : 0 ≤ core) (known : core < launcher.corePerNode) :
    launcher.coreOf (core + (ht * launcher.corePerNode : Nat)) = core := by
  rw [coreOf, Nat.cast_mul, Int.add_mul_emod_self_right, Int.emod_eq_of_lt positive known]

/-- A set of a rank, where its cores exist, is told by the cores and the hyperthreads of its CPUs. -/
theorem mem_cpuRange_iff (positive : launcher.appCorePerRank ≤ top + 1) (known : top < launcher.corePerNode) :
    cpu ∈ launcher.cpuRange top ↔
      0 ≤ cpu ∧ cpu < (launcher.corePerNode * launcher.appThreadPerCore : Nat) ∧
        top - launcher.appCorePerRank < launcher.coreOf cpu ∧ launcher.coreOf cpu ≤ top := by
  rw [mem_cpuRange]
  constructor
  · rintro ⟨core, after, upTo, ht, used, rfl⟩
    rw [coreOf_add (by omega) (by omega)]
    refine ⟨by omega, ?_, after, upTo⟩
    have more : (ht + 1) * launcher.corePerNode ≤ launcher.appThreadPerCore * launcher.corePerNode :=
      Nat.mul_le_mul_right _ used
    rw [Nat.add_mul, Nat.one_mul, Nat.mul_comm launcher.appThreadPerCore] at more
    omega
  · rintro ⟨some_cpu, online, after, upTo⟩
    refine ⟨launcher.coreOf cpu, after, upTo, (cpu / launcher.corePerNode).toNat, ?_, ?_⟩
    · have quotient : cpu / launcher.corePerNode < launcher.appThreadPerCore := by
        apply Int.ediv_lt_of_lt_mul (by omega)
        rw [mul_comm, ← Nat.cast_mul]
        exact online
      have some_thread : 0 ≤ cpu / launcher.corePerNode := Int.ediv_nonneg some_cpu (by omega)
      omega
    · have some_thread : 0 ≤ cpu / launcher.corePerNode := Int.ediv_nonneg some_cpu (by omega)
      rw [coreOf, Nat.cast_mul, Int.toNat_of_nonneg some_thread]
      exact (Int.emod_add_ediv_mul cpu launcher.corePerNode).symm

theorem card_cpuRange (positive : launcher.appCorePerRank ≤ top + 1) (known : top < launcher.corePerNode) :
    launcher.appThreadPerCore * launcher.appCorePerRank ≤ (launcher.cpuRange top).card := by
  have pairs : (Finset.range launcher.appThreadPerCore ×ˢ Finset.range launcher.appCorePerRank).card =
      launcher.appThreadPerCore * launcher.appCorePerRank := by
    rw [Finset.card_product, Finset.card_range, Finset.card_range]
  rw [← pairs]
  apply Finset.card_le_card_of_injOn fun pair =>
    top - (pair.2 : Int) + (pair.1 * launcher.corePerNode : Nat)
  · rintro ⟨ht, step⟩ member
    rw [Finset.mem_coe, Finset.mem_product, Finset.mem_range, Finset.mem_range] at member
    obtain ⟨used, few⟩ := member
    rw [Finset.mem_coe, mem_cpuRange]
    exact ⟨top - step, by omega, by omega, ht, used, rfl⟩
  · rintro ⟨ht, step⟩ member ⟨otherHt, otherStep⟩ other same
    rw [Finset.mem_coe, Finset.mem_product, Finset.mem_range, Finset.mem_range] at member other
    simp only at same member other
    have core : launcher.coreOf (top - (step : Int) + (ht * launcher.corePerNode : Nat)) = top - step :=
      coreOf_add (by omega) (by omega)
    rw [same, coreOf_add (by omega) (by omega)] at core
    have offsets : ht * launcher.corePerNode = otherHt * launcher.corePerNode := by omega
    rw [Nat.mul_right_cancel (by omega) offsets, show step = otherStep by omega]

end Range

section Loops

/-- What the loops have assigned: the sets below given cores, from which the lowest is the last. -/
structure Placed (launcher : Launcher) (state : Int × List (Finset Int)) (tops : List Int) : Prop where
  sets : state.2 = tops.map launcher.cpuRange
  spaced : tops.Pairwise fun lower upper : Int => lower + launcher.appCorePerRank ≤ upper
  above : ∀ top ∈ tops, state.1 + launcher.appCorePerRank ≤ top
  below : ∀ top ∈ tops, top < launcher.corePerNode

/-- The core is in the set below one of the given cores. -/
def Covered (launcher : Launcher) (tops : List Int) (core : Int) : Prop :=
  ∃ top ∈ tops, top - launcher.appCorePerRank < core ∧ core ≤ top

theorem Placed.lower {lower : Int} (placed : launcher.Placed (coreIndex, result) tops) (less : lower ≤ coreIndex) :
    launcher.Placed (lower, result) tops where
  sets := placed.sets
  spaced := placed.spaced
  above := fun top member => by
    have above := placed.above top member
    simp only at above ⊢
    omega
  below := placed.below

/-- One rank. -/
theorem Placed.rank (placed : launcher.Placed (coreIndex, result) tops)
    (known : coreIndex < launcher.corePerNode) :
    launcher.Placed (coreIndex - launcher.appCorePerRank, launcher.cpuRange coreIndex :: result)
      (coreIndex :: tops) where
  sets := by
    have sets : result = tops.map launcher.cpuRange := placed.sets
    rw [List.map_cons, sets]
  spaced := List.pairwise_cons.mpr ⟨placed.above, placed.spaced⟩
  above := fun top member => by
    simp only
    rcases List.mem_cons.mp member with rfl | earlier
    · omega
    · have above := placed.above top earlier
      simp only at above
      omega
  below := fun top member => by
    rcases List.mem_cons.mp member with rfl | earlier
    · exact known
    · exact placed.below top earlier

/-- The ranks of the loop have the cores down to the one that is left. -/
theorem assignRanks_placed (placed : launcher.Placed (coreIndex, result) tops)
    (known : coreIndex < launcher.corePerNode) :
    ∃ more, launcher.Placed (launcher.assignRanks false ranks (coreIndex, result)) (more ++ tops) ∧
      more.length = ranks ∧
      (launcher.assignRanks false ranks (coreIndex, result)).1 =
        coreIndex - (ranks * launcher.appCorePerRank : Nat) ∧
      (∀ top ∈ more, top ≤ coreIndex) ∧
      ∀ core, coreIndex - (ranks * launcher.appCorePerRank : Nat) < core → core ≤ coreIndex →
        launcher.Covered more core := by
  induction ranks generalizing coreIndex result tops with
  | zero => exact ⟨[], placed, rfl, by simp [assignRanks], by simp, fun core => by omega⟩
  | succ ranks ih =>
      obtain ⟨more, later, count, left, upTo, covered⟩ :=
        ih (placed.rank known) (by omega)
      have steps : (ranks + 1) * launcher.appCorePerRank =
          ranks * launcher.appCorePerRank + launcher.appCorePerRank := by ring
      refine ⟨more ++ [coreIndex], ?_, by simpa using count, ?_, ?_, ?_⟩
      · rw [List.append_assoc]
        exact later
      · rw [assignRanks]
        simp only [Bool.false_eq_true, if_false]
        rw [left, steps]
        omega
      · intro top member
        rcases List.mem_append.mp member with earlier | last
        · have bound := upTo top earlier
          omega
        · rw [List.mem_singleton.mp last]
      · intro core after bound
        rw [steps] at after
        by_cases here : coreIndex - launcher.appCorePerRank < core
        · exact ⟨coreIndex, by simp, here, bound⟩
        · obtain ⟨top, member, low, high⟩ := covered core (by omega) (by omega)
          exact ⟨top, by simp [member], low, high⟩

/-- A socket that is not the last leaves the highest core of the next. -/
theorem assignSockets_succ {isGeopmctl : Bool} {socket : Nat} {boundary : Int} {state : Int × List (Finset Int)} :
    launcher.assignSockets isGeopmctl (socket + 1 + 1) boundary state =
      launcher.assignSockets isGeopmctl (socket + 1) (boundary - launcher.corePerSocket)
        (boundary - 1, (launcher.assignRanks isGeopmctl launcher.rankPerSocket state).2) := by
  rw [assignSockets]
  simp only [Nat.add_eq_zero_iff, one_ne_zero, and_false, if_false]

/-- The ranks of a socket are in it. -/
theorem assignRanks_socket {socket : Nat} (known : socket + 1 ≤ launcher.numSocket)
    (fits : launcher.rankPerSocket * launcher.appCorePerRank ≤ launcher.corePerSocket)
    (placed : launcher.Placed ((launcher.corePerSocket * (socket + 1) : Nat) - 1, result) tops) :
    ∃ more, launcher.Placed (launcher.assignRanks false launcher.rankPerSocket
          ((launcher.corePerSocket * (socket + 1) : Nat) - 1, result)) (more ++ tops) ∧
      more.length = launcher.rankPerSocket ∧
      (launcher.assignRanks false launcher.rankPerSocket
          ((launcher.corePerSocket * (socket + 1) : Nat) - 1, result)).1 =
        (launcher.corePerSocket * (socket + 1) : Nat) - 1 -
          (launcher.rankPerSocket * launcher.appCorePerRank : Nat) ∧
      (∀ top ∈ more, (launcher.corePerSocket * socket : Nat) + launcher.appCorePerRank ≤ top + 1 ∧
        top < (launcher.corePerSocket * (socket + 1) : Nat)) ∧
      (launcher.rankPerSocket * launcher.appCorePerRank = launcher.corePerSocket →
        ∀ core : Int, (launcher.corePerSocket * socket : Nat) ≤ core →
          core < (launcher.corePerSocket * (socket + 1) : Nat) → launcher.Covered more core) := by
  have inside : launcher.corePerSocket * (socket + 1) ≤ launcher.corePerNode :=
    Nat.mul_le_mul_left _ known
  have steps : launcher.corePerSocket * (socket + 1) =
      launcher.corePerSocket * socket + launcher.corePerSocket := Nat.mul_succ _ _
  obtain ⟨more, later, count, left, upTo, covered⟩ :=
    assignRanks_placed placed (by omega)
  refine ⟨more, later, count, left, ?_, ?_⟩
  · intro top member
    have above := later.above top (by simp [member])
    have bound := upTo top member
    rw [left] at above
    omega
  · intro full core after before
    exact covered core (by omega) (by omega)

/-- The ranks of the sockets that are left are each in one of these. -/
theorem assignSockets_placed {sockets : Nat} (known : sockets + 1 ≤ launcher.numSocket)
    (fits : launcher.rankPerSocket * launcher.appCorePerRank ≤ launcher.corePerSocket)
    (placed : launcher.Placed ((launcher.corePerSocket * (sockets + 1) : Nat) - 1, result) tops) :
    ∃ more, launcher.Placed (launcher.assignSockets false (sockets + 1)
          (launcher.corePerSocket * sockets : Nat)
          ((launcher.corePerSocket * (sockets + 1) : Nat) - 1, result)) (more ++ tops) ∧
      more.length = (sockets + 1) * launcher.rankPerSocket ∧
      (launcher.assignSockets false (sockets + 1) (launcher.corePerSocket * sockets : Nat)
          ((launcher.corePerSocket * (sockets + 1) : Nat) - 1, result)).1 =
        launcher.corePerSocket - 1 - (launcher.rankPerSocket * launcher.appCorePerRank : Nat) ∧
      (∀ top ∈ more, ∃ socket : Nat,
        (launcher.corePerSocket * socket : Nat) + launcher.appCorePerRank ≤ top + 1 ∧
          top < (launcher.corePerSocket * (socket + 1) : Nat)) ∧
      (launcher.rankPerSocket * launcher.appCorePerRank = launcher.corePerSocket →
        ∀ core : Int, 0 ≤ core → core < (launcher.corePerSocket * (sockets + 1) : Nat) →
          launcher.Covered more core) := by
  induction sockets generalizing result tops with
  | zero =>
      obtain ⟨more, later, count, left, inSocket, covered⟩ := assignRanks_socket known fits placed
      refine ⟨more, later, by omega, ?_, fun top member => ⟨0, inSocket top member⟩, ?_⟩
      · exact left.trans (by simp)
      · intro full core positive before
        exact covered full core (by rw [Nat.mul_zero]; exact positive) before
  | succ sockets ih =>
      obtain ⟨more, later, count, left, inSocket, covered⟩ := assignRanks_socket known fits placed
      have steps : launcher.corePerSocket * (sockets + 1 + 1) =
          launcher.corePerSocket * (sockets + 1) + launcher.corePerSocket := Nat.mul_succ _ _
      have boundary : ((launcher.corePerSocket * (sockets + 1) : Nat) : Int) - launcher.corePerSocket =
          (launcher.corePerSocket * sockets : Nat) := by
        rw [Nat.mul_succ]
        omega
      have next : launcher.Placed ((launcher.corePerSocket * (sockets + 1) : Nat) - 1,
          (launcher.assignRanks false launcher.rankPerSocket _).2) (more ++ tops) := later.lower (by
        rw [left]
        omega)
      obtain ⟨others, all, otherCount, allLeft, otherSocket, otherCovered⟩ := ih (by omega) next
      rw [assignSockets_succ, boundary]
      refine ⟨others ++ more, ?_, ?_, allLeft, ?_, ?_⟩
      · rw [List.append_assoc]
        exact all
      · rw [List.length_append, otherCount, count]
        ring
      · intro top member
        rcases List.mem_append.mp member with other | here
        · exact otherSocket top other
        · exact ⟨sockets + 1, inSocket top here⟩
      · intro full core positive before
        by_cases here : ((launcher.corePerSocket * (sockets + 1) : Nat) : Int) ≤ core
        · obtain ⟨top, member, covers⟩ := covered full core here before
          exact ⟨top, by simp [member], covers⟩
        · obtain ⟨top, member, covers⟩ := otherCovered full core positive (by omega)
          exact ⟨top, by simp [member], covers⟩

end Loops

section Assigned

/-- What both ways to assign the ranks come to. -/
structure Assigned (launcher : Launcher) (state : Int × List (Finset Int)) (tops : List Int) : Prop
    extends launcher.Placed state tops where
  count : tops.length = launcher.numAppMask
  positive : ∀ top ∈ tops, (launcher.appCorePerRank : Int) ≤ top + 1
  inSocket : launcher.numSocket ∣ launcher.numAppMask → ∀ top ∈ tops, ∃ socket : Nat,
    (launcher.corePerSocket * socket : Nat) + launcher.appCorePerRank ≤ top + 1 ∧
      top < (launcher.corePerSocket * (socket + 1) : Nat)
  full : state.1 < 0 → ∀ core : Int, 0 ≤ core → core < launcher.corePerNode → launcher.Covered tops core

theorem placed_nil : launcher.Placed (coreIndex, []) [] :=
  ⟨rfl, List.Pairwise.nil, by simp, by simp⟩

theorem assign_assigned (topology : launcher.Topology)
    (fits : launcher.appCorePerRank * launcher.numAppMask ≤ launcher.corePerNode) :
    ∃ tops, launcher.Assigned (launcher.assign false) tops := by
  by_cases even : launcher.numAppMask % launcher.numSocket = 0
  · obtain ⟨sockets, some_socket⟩ := Nat.exists_eq_add_of_le' topology.sockets
    have node : launcher.corePerNode = launcher.corePerSocket * (sockets + 1) := by
      rw [corePerNode, some_socket]
    have ranks : launcher.numAppMask = launcher.rankPerSocket * (sockets + 1) := by
      rw [rankPerSocket, ← some_socket, Nat.div_mul_cancel (Nat.dvd_of_mod_eq_zero even)]
    have boundary : (launcher.corePerSocket : Int) * ((launcher.numSocket : Int) - 1) =
        (launcher.corePerSocket * sockets : Nat) := by
      rw [some_socket]
      push_cast
      ring
    have few : launcher.rankPerSocket * launcher.appCorePerRank ≤ launcher.corePerSocket := by
      apply Nat.le_of_mul_le_mul_right _ (Nat.succ_pos sockets)
      calc launcher.rankPerSocket * launcher.appCorePerRank * (sockets + 1)
          = launcher.appCorePerRank * launcher.numAppMask := by rw [ranks]; ring
        _ ≤ launcher.corePerNode := fits
        _ = launcher.corePerSocket * (sockets + 1) := node
    rw [assign, if_pos even, boundary, some_socket, node]
    have empty : launcher.Placed ((launcher.corePerSocket * (sockets + 1) : Nat) - 1, []) [] := placed_nil
    obtain ⟨tops, placed, count, left, inSocket, covered⟩ :=
      assignSockets_placed (by omega) few empty
    rw [List.append_nil] at placed
    refine ⟨tops, placed, ?_, ?_, fun _ => inSocket, ?_⟩
    · rw [count, ranks, Nat.mul_comm]
    · intro top member
      obtain ⟨socket, low, _⟩ := inSocket top member
      omega
    · intro below
      rw [left] at below
      rw [node]
      exact covered (by omega)
  · rw [assign, if_neg even]
    have empty : launcher.Placed ((launcher.corePerNode : Int) - 1, []) [] := placed_nil
    obtain ⟨tops, placed, count, left, _, covered⟩ := assignRanks_placed empty (by omega)
    rw [Nat.mul_comm] at left covered
    rw [List.append_nil] at placed
    refine ⟨tops, placed, count, ?_, ?_, ?_⟩
    · intro top member
      have above := placed.above top member
      rw [left] at above
      omega
    · intro divides
      exact absurd (Nat.mod_eq_zero_of_dvd divides) even
    · intro below core positive known
      rw [left] at below
      exact covered core (by omega) (by omega)

/-- The controller's own list is made with the same core index. -/
theorem assignRanks_ctl : launcher.assignRanks true ranks (coreIndex, []) =
    ((launcher.assignRanks false ranks (coreIndex, result)).1, []) := by
  induction ranks generalizing coreIndex result with
  | zero => rfl
  | succ ranks ih =>
      rw [assignRanks, assignRanks]
      exact ih

theorem assignSockets_ctl {sockets : Nat} {boundary : Int} :
    launcher.assignSockets true sockets boundary (coreIndex, []) =
      ((launcher.assignSockets false sockets boundary (coreIndex, result)).1, []) := by
  induction sockets generalizing coreIndex result boundary with
  | zero => rfl
  | succ sockets ih =>
      rw [assignSockets, assignSockets, assignRanks_ctl]
      exact ih

theorem assign_ctl : launcher.assign true = ((launcher.assign false).1, []) := by
  rw [assign, assign]
  split
  · exact assignSockets_ctl
  · exact assignRanks_ctl

end Assigned

section Legal

variable {state : Int × List (Finset Int)}

theorem Placed.mem_sets {set : Finset Int} (placed : launcher.Placed state tops) :
    set ∈ state.2 ↔ ∃ top ∈ tops, launcher.cpuRange top = set := by
  rw [placed.sets, List.mem_map]

theorem Assigned.mem_iff (assigned : launcher.Assigned state tops) (member : top ∈ tops) :
    cpu ∈ launcher.cpuRange top ↔
      0 ≤ cpu ∧ cpu < (launcher.corePerNode * launcher.appThreadPerCore : Nat) ∧
        top - launcher.appCorePerRank < launcher.coreOf cpu ∧ launcher.coreOf cpu ≤ top :=
  mem_cpuRange_iff (assigned.positive top member) (assigned.below top member)

theorem Assigned.apart (assigned : launcher.Assigned state tops) :
    state.2.Pairwise fun first second =>
      ∀ cpu ∈ first, ∀ other ∈ second, launcher.coreOf cpu ≠ launcher.coreOf other := by
  rw [assigned.sets, List.pairwise_map]
  refine assigned.spaced.imp_of_mem fun {lower upper} lowerMember upperMember spaced => ?_
  intro cpu first other second same
  have low := (assigned.mem_iff lowerMember).mp first
  have high := (assigned.mem_iff upperMember).mp second
  omega

/-- A CPU of a core that some rank has is in the set of that rank. -/
theorem Assigned.mem_of_covered (assigned : launcher.Assigned state tops) (positive : 0 ≤ cpu)
    (online : cpu < (launcher.corePerNode * launcher.appThreadPerCore : Nat))
    (covered : launcher.Covered tops (launcher.coreOf cpu)) : ∃ set ∈ state.2, cpu ∈ set := by
  obtain ⟨top, member, after, upTo⟩ := covered
  exact ⟨_, assigned.mem_sets.mpr ⟨top, member, rfl⟩, (assigned.mem_iff member).mpr ⟨positive, online, after, upTo⟩⟩

theorem Assigned.oneSocket (assigned : launcher.Assigned state tops)
    (divides : launcher.numSocket ∣ launcher.numAppMask) :
    ∀ set ∈ state.2, ∃ socket, ∀ cpu ∈ set, launcher.socketOf cpu = socket := by
  intro set among
  obtain ⟨top, member, rfl⟩ := assigned.mem_sets.mp among
  obtain ⟨socket, low, high⟩ := assigned.inSocket divides top member
  refine ⟨socket, fun cpu inside => ?_⟩
  have bounds := (assigned.mem_iff member).mp inside
  rw [Nat.mul_succ] at high
  rw [socketOf, Int.ediv_eq_iff_of_pos (by omega)]
  push_cast at low high
  constructor <;> nlinarith

/-- The CPU of the controller is in a set of a rank only where no core is left, and no hyperthread
that may be used. -/
theorem Assigned.controller (assigned : launcher.Assigned state tops)
    (shared : ∃ set ∈ state.2, launcher.geopmCtlCpu state.1 ∈ set) :
    state.1 < 0 ∧ (launcher.allowHtPinning = false ∨
      launcher.numLinuxCpu ≤ launcher.corePerNode * launcher.appThreadPerCore) := by
  obtain ⟨set, among, inside⟩ := shared
  obtain ⟨top, member, rfl⟩ := assigned.mem_sets.mp among
  have bounds := (assigned.mem_iff member).mp inside
  have above := assigned.above top member
  have below := assigned.below top member
  rw [geopmCtlCpu] at bounds
  split at bounds
  · rename_i no_core
    split at bounds
    · omega
    · rename_i no_thread
      rw [coreOf, Int.zero_emod] at bounds
      refine ⟨by omega, ?_⟩
      cases allowed : launcher.allowHtPinning with
      | false => exact .inl rfl
      | true => exact .inr (by simpa [allowed] using no_thread)
  · -- The second core is below every core of the ranks.
    rename_i some_core
    rw [coreOf, Int.emod_eq_of_lt (by omega) (by omega)] at bounds
    omega

theorem Assigned.legal (assigned : launcher.Assigned state tops) (topology : launcher.Topology)
    (some_core : 1 ≤ launcher.corePerNode) (threads : launcher.appThreadPerCore ≤ launcher.threadPerCore) :
    launcher.LegalPlacement (launcher.geopmCtlCpu state.1) state.2 where
  count := by rw [assigned.sets, List.length_map, assigned.count]
  disjoint := assigned.apart.imp fun apart =>
    Finset.disjoint_left.mpr fun cpu first second => apart cpu first cpu second rfl
  apart := assigned.apart
  valid := by
    intro set among cpu inside
    obtain ⟨top, member, rfl⟩ := assigned.mem_sets.mp among
    obtain ⟨positive, online, _⟩ := (assigned.mem_iff member).mp inside
    have fits : launcher.corePerNode * launcher.appThreadPerCore ≤ launcher.numLinuxCpu := by
      rw [topology.cpus, corePerNode, Nat.mul_comm launcher.numSocket]
      exact Nat.mul_le_mul_left _ threads
    exact ⟨positive, by omega⟩
  enough := by
    intro set among
    obtain ⟨top, member, rfl⟩ := assigned.mem_sets.mp among
    exact (cpuPerRank_le some_core).trans
      (card_cpuRange (assigned.positive top member) (assigned.below top member))
  oneSocket := assigned.oneSocket
  controller := by
    intro shared
    obtain ⟨no_core, no_thread⟩ := assigned.controller shared
    have inSet : ∀ cpu : Int, 0 ≤ cpu →
        cpu < (launcher.corePerNode * launcher.appThreadPerCore : Nat) → ∃ set ∈ state.2, cpu ∈ set := by
      intro cpu positive online
      apply assigned.mem_of_covered positive online
      exact assigned.full no_core _ (Int.emod_nonneg _ (by omega)) (Int.emod_lt_of_pos _ (by omega))
    constructor
    · intro core positive known
      have first : core < (launcher.corePerNode * launcher.appThreadPerCore : Nat) := by
        have more := Nat.le_mul_of_pos_right launcher.corePerNode (appThreadPerCore_pos some_core)
        omega
      obtain ⟨set, among, inside⟩ := inSet core positive first
      exact ⟨set, among, core, inside, Int.emod_eq_of_lt positive known⟩
    · refine no_thread.imp_right fun all cpu positive online => ?_
      exact inSet cpu positive (by omega)

/-- The checks before the cores are handed out. -/
structure Accepted (launcher : Launcher) : Prop where
  sockets : launcher.numSocket ≠ 0
  threads : launcher.appThreadPerCore ≤ launcher.threadPerCore
  masks : launcher.numAppMask ≤ launcher.corePerNode
  hyperthreads : launcher.allowHtPinning ∨ launcher.appThreadPerCore ≤ 1
  cpus : launcher.appCpuPerNode ≤ launcher.numLinuxCpu
  cores : launcher.appCorePerRank * launcher.numAppMask ≤ launcher.corePerNode
  ranks : launcher.numAppMask ≠ 0

theorem affinityList_ok {isGeopmctl : Bool} {listed : List (Finset Int)} :
    launcher.affinityList isGeopmctl = .ok listed ↔ launcher.Accepted ∧
      listed = if launcher.ctl = .process ∨ isGeopmctl then
          {launcher.geopmCtlCpu (launcher.assign isGeopmctl).1} :: (launcher.assign isGeopmctl).2
        else (launcher.assign isGeopmctl).2 := by
  unfold affinityList
  constructor
  · intro done
    split at done
    · cases done
    split at done
    · cases done
    split at done
    · cases done
    split at done
    · cases done
    split at done
    · cases done
    split at done
    · cases done
    split at done
    · cases done
    rename_i sockets threads masks hyperthreads cpus cores ranks
    refine ⟨⟨sockets, by omega, by omega, ?_, by omega, by omega, ranks⟩, (Except.ok.inj done).symm⟩
    rw [not_and_or, not_not, not_lt] at hyperthreads
    exact hyperthreads
  · rintro ⟨accepted, rfl⟩
    have hyperthreads : ¬ (¬ launcher.allowHtPinning ∧ 1 < launcher.appThreadPerCore) := by
      rw [not_and_or, not_not, not_lt]
      exact accepted.hyperthreads
    rw [if_neg accepted.sockets, if_neg (Nat.not_lt.mpr accepted.threads),
      if_neg (Nat.not_lt.mpr accepted.masks), if_neg hyperthreads, if_neg (Nat.not_lt.mpr accepted.cpus),
      if_neg (Nat.not_lt.mpr accepted.cores), if_neg accepted.ranks]

/-- Where the launcher raises no error, the list of the application is a legal placement, headed by the
CPU that the list of the controller has. -/
theorem affinityList_legal {listed : List (Finset Int)} (topology : launcher.Topology)
    (done : launcher.affinityList false = .ok listed) :
    ∃ (ctlCpu : Int) (sets : List (Finset Int)),
      listed = (if launcher.ctl = .process then {ctlCpu} :: sets else sets) ∧
      launcher.affinityList true = .ok [{ctlCpu}] ∧
      launcher.LegalPlacement ctlCpu sets := by
  obtain ⟨accepted, rfl⟩ := affinityList_ok.mp done
  obtain ⟨tops, assigned⟩ := assign_assigned topology accepted.cores
  have some_core : 1 ≤ launcher.corePerNode := Nat.mul_pos topology.cores topology.sockets
  refine ⟨_, _, ?_, ?_, assigned.legal topology some_core accepted.threads⟩
  · simp
  · rw [affinityList_ok, assign_ctl]
    exact ⟨accepted, by simp⟩

/-- Two ranks of four CPUs on two sockets of 22 cores. -/
theorem affinityList_legal_twoRanks : ∃ (ctlCpu : Int) (sets : List (Finset Int)),
    [{1}, {18, 19, 20, 21}, {40, 41, 42, 43}] = (if Ctl.process = .process then {ctlCpu} :: sets else sets) ∧
      affinityList ⟨2, 4, 2, 22, 2, 88, true, .process⟩ true = .ok [{ctlCpu}] ∧
      LegalPlacement ⟨2, 4, 2, 22, 2, 88, true, .process⟩ ctlCpu sets := by
  have topology : Topology ⟨2, 4, 2, 22, 2, 88, true, .process⟩ :=
    ⟨by decide, by decide, by decide, by decide, by decide, by decide⟩
  have done : affinityList ⟨2, 4, 2, 22, 2, 88, true, .process⟩ false =
      .ok [{1}, {18, 19, 20, 21}, {40, 41, 42, 43}] :=
    affinityList_ok.mpr ⟨⟨by decide, by decide, by decide, by decide, by decide, by decide, by decide⟩,
      by decide +kernel⟩
  exact affinityList_legal topology done

end Legal

end Geopm.Launcher
