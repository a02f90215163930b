import Geopm.Library.Run
import Geopm.Lscpu
import Mathlib.Data.Set.Card

namespace Geopm

open Lscpu

/-! The domains of `GEOPM_DOMAIN_BOARD_MEMORY`: which NUMA node has which CPUs. -/

section Lists

variable {Entry : Type} {property : Entry → Prop} [DecidablePred property] {entries : List Entry}
  {idx : Nat} {entry : Entry}

/-- Where as many entries have the property as there are at the start, no other has it. -/
theorem lt_countP (initial : ∀ idx < entries.countP property, ∃ entry, entries[idx]? = some entry ∧ property entry)
    (listed : entries[idx]? = some entry) (holds : property entry) : idx < entries.countP property := by
  by_contra beyond
  have split := congrArg (List.countP property) (List.take_append_drop (entries.countP property) entries)
  rw [List.countP_append] at split
  have all : (entries.take (entries.countP property)).countP property = entries.countP property := by
    rw [List.countP_eq_length.mpr, List.length_take, min_eq_left List.countP_le_length]
    intro other member
    obtain ⟨place, bound, rfl⟩ := List.getElem_of_mem member
    rw [List.length_take] at bound
    obtain ⟨found, listed, holds⟩ := initial place (by omega)
    rw [List.getElem_take]
    rw [List.getElem?_eq_some_iff] at listed
    obtain ⟨_, rfl⟩ := listed
    exact decide_eq_true holds
  have none_left : (entries.drop (entries.countP property)).countP property = 0 := by omega
  rw [List.countP_eq_zero] at none_left
  refine none_left entry (List.mem_of_getElem? (i := idx - entries.countP property) ?_) (decide_eq_true holds)
  rw [List.getElem?_drop, Nat.add_sub_cancel' (by omega), listed]

/-- Where no entry has the property after one that does not, those that have it are at the start. -/
theorem initial_of_closed (closed : ∀ (later earlier : Nat) (entry : Entry), earlier < later → entries[later]? = some entry →
      property entry → ∃ other, entries[earlier]? = some other ∧ property other)
    (few : idx < entries.countP property) : ∃ entry, entries[idx]? = some entry ∧ property entry := by
  by_contra none_here
  have none_left : (entries.drop idx).countP property = 0 := by
    rw [List.countP_eq_zero]
    intro other member holds
    obtain ⟨place, listed⟩ := List.mem_iff_getElem?.mp member
    rw [List.getElem?_drop] at listed
    rcases Nat.eq_zero_or_pos place with rfl | later
    · exact none_here ⟨other, listed, of_decide_eq_true holds⟩
    · exact none_here (closed (idx + place) idx other (by omega) listed (of_decide_eq_true holds))
  have split := congrArg (List.countP property) (List.take_append_drop idx entries)
  rw [List.countP_append, none_left] at split
  have bound : (entries.take idx).countP property ≤ idx :=
    List.countP_le_length.trans (List.length_take_le _ _)
  omega

end Lists

namespace Lscpu

/-- The CPUs on the line of a NUMA node. -/
def nodeCpus (lscpuMap : List (Text × Text)) (nodeIdx : Nat) : Option (Finset Nat) :=
  match Assoc.lookup (numaKey nodeIdx) lscpuMap with
  | none => none
  | some hexMask =>
      match maskBits 0 (maskDigits hexMask) with
      | .error _ => none
      | .ok cpus => some cpus

/-- The node has a line with some CPU. -/
def HasCpus (output : Text) (nodeIdx : Nat) : Prop :=
  ∃ cpus, nodeCpus (lscpu output) nodeIdx = some cpus ∧ cpus.Nonempty

/-- The lines of the NUMA nodes are a partition of the CPUs. -/
structure Partition (output : Text) (numCpu : Nat) : Prop where
  cover : ∀ cpu, cpu < numCpu ↔ ∃ node cpus, nodeCpus (lscpu output) node = some cpus ∧ cpu ∈ cpus
  disjoint : ∀ first second firstCpus secondCpus, first ≠ second →
    nodeCpus (lscpu output) first = some firstCpus → nodeCpus (lscpu output) second = some secondCpus →
    Disjoint firstCpus secondCpus

variable {lscpuMap : List (Text × Text)} {passes nodeIdx : Nat} {numaMap found : List (Finset Nat)}

/-- A number can be read from between two texts. -/
theorem affixed_injective (before after : Text) :
    Function.Injective fun number => before ++ Nat.toDigits 10 number ++ after := by
  intro first second same
  have digits : Nat.toDigits 10 first = Nat.toDigits 10 second := by
    simpa only [List.append_assoc, List.append_cancel_left_eq, List.append_cancel_right_eq] using same
  rw [← @Nat.ofDigitChars_ten_toDigits first, digits, Nat.ofDigitChars_ten_toDigits]

theorem long_affixed {before after : Text} {length number : Nat} (long : length ≤ before.length + after.length) :
    length ≤ (before ++ Nat.toDigits 10 number ++ after).length := by
  rw [List.length_append, List.length_append]
  omega

theorem take_affixed {before after : Text} {length number : Nat} (exact_length : before.length = length) :
    (before ++ Nat.toDigits 10 number ++ after).take length = before := by
  rw [List.append_assoc, ← exact_length, List.take_left]

theorem numaKey_injective : Function.Injective numaKey :=
  affixed_injective _ _

theorem length_numaKey (nodeIdx : Nat) : 16 ≤ (numaKey nodeIdx).length :=
  long_affixed (by decide +kernel)

theorem take_numaKey (nodeIdx : Nat) : (numaKey nodeIdx).take 9 = "NUMA node".toList :=
  take_affixed (by decide +kernel)

/-- What the loop finds are the nodes from the first on, up to one without a line. -/
theorem numaWithin_ok (done : numaWithin lscpuMap passes nodeIdx numaMap = .ok found) :
    ∃ nodes, found = numaMap ++ nodes ∧ nodes.length ≤ passes ∧
      (∀ place cpus, nodes[place]? = some cpus → nodeCpus lscpuMap (nodeIdx + place) = some cpus) ∧
      (nodes.length < passes → Assoc.lookup (numaKey (nodeIdx + nodes.length)) lscpuMap = none) := by
  induction passes generalizing nodeIdx numaMap with
  | zero =>
      cases done
      exact ⟨[], by simp, by simp, by simp, by simp⟩
  | succ passes ih =>
      rw [numaWithin] at done
      cases line : Assoc.lookup (numaKey nodeIdx) lscpuMap with
      | none =>
          rw [line] at done
          cases done
          exact ⟨[], by simp, by simp, by simp, fun _ => line⟩
      | some hexMask =>
          rw [line] at done
          cases parsed : maskBits 0 (maskDigits hexMask) with
          | error reason =>
              simp only [parsed, bind, Except.bind] at done
              cases done
          | ok cpus =>
              simp only [parsed, bind, Except.bind] at done
              obtain ⟨nodes, rfl, few, known, ended⟩ := ih done
              refine ⟨cpus :: nodes, by simp, by simpa using few, ?_, ?_⟩
              · intro place other listed
                cases place with
                | zero =>
                    cases listed
                    simp [nodeCpus, line, parsed]
                | succ place =>
                    rw [List.getElem?_cons_succ] at listed
                    rw [← known place other listed, Nat.add_right_comm, Nat.add_assoc]
              · intro fewer
                rw [List.length_cons] at fewer ⊢
                rw [← ended (by omega), Nat.add_right_comm, Nat.add_assoc]

theorem mem_keys_of_nodeCpus {cpus : Finset Nat} (line : nodeCpus lscpuMap nodeIdx = some cpus) :
    numaKey nodeIdx ∈ lscpuMap.map Prod.fst := by
  rw [nodeCpus] at line
  cases value : Assoc.lookup (numaKey nodeIdx) lscpuMap with
  | none => simp [value] at line
  | some hexMask => exact List.mem_map.mpr ⟨_, Assoc.mem_of_lookup value, rfl⟩

/-- The nodes up to the first that has no line. -/
structure Nodes (lscpuMap : List (Text × Text)) (nodes : List (Finset Nat)) : Prop where
  known : ∀ node cpus, nodes[node]? = some cpus → nodeCpus lscpuMap node = some cpus
  ended : nodeCpus lscpuMap nodes.length = none

theorem Nodes.length_le {nodes others : List (Finset Nat)} (listed : Nodes lscpuMap nodes)
    (other : Nodes lscpuMap others) : nodes.length ≤ others.length := by
  by_contra longer
  have line := listed.known others.length _ (List.getElem?_eq_getElem (Nat.not_le.mp longer))
  rw [other.ended] at line
  cases line

theorem Nodes.unique {nodes others : List (Finset Nat)} (listed : Nodes lscpuMap nodes)
    (other : Nodes lscpuMap others) : nodes = others := by
  have sameLength : nodes.length = others.length :=
    Nat.le_antisymm (listed.length_le other) (other.length_le listed)
  apply List.ext_getElem sameLength
  intro node first second
  have line := listed.known node _ (List.getElem?_eq_getElem first)
  rw [other.known node _ (List.getElem?_eq_getElem second)] at line
  exact (Option.some.inj line).symm

/-- The loop ends before the bound, since every node has a key of its own. -/
theorem parseLscpuNuma_ok (done : parseLscpuNuma lscpuMap numaMap = .ok found) :
    ∃ nodes, found = numaMap ++ nodes ∧ Nodes lscpuMap nodes := by
  obtain ⟨nodes, rfl, few, known, ended⟩ := numaWithin_ok done
  simp only [Nat.zero_add] at known ended
  have keys : (List.range nodes.length).map numaKey ⊆ lscpuMap.map Prod.fst := by
    intro key member
    obtain ⟨place, inside, rfl⟩ := List.mem_map.mp member
    rw [List.mem_range] at inside
    exact mem_keys_of_nodeCpus (known place _ (List.getElem?_eq_getElem inside))
  have distinct : ((List.range nodes.length).map numaKey).Nodup :=
    List.nodup_range.map numaKey_injective
  have bound := (distinct.subperm keys).length_le
  rw [List.length_map, List.length_map, List.length_range] at bound
  exact ⟨nodes, rfl, known, by rw [nodeCpus, ended (by omega)]⟩

end Lscpu

namespace PlatformTopo

/-- The nodes with CPUs are counted, and their sets are a partition of the CPUs that `domain_idx` inverts. -/
structure BoardMemoryWellFormed (output : Text) (topo : PlatformTopo) : Prop where
  count : topo.numDomain .boardMemory = {node | HasCpus output node}.ncard
  nonempty : ∀ idx : Nat, idx < topo.numDomain .boardMemory →
    ∃ cpus, topo.domainCpus .boardMemory idx = .ok cpus ∧ cpus.Nonempty
  disjoint : ∀ (first second : Nat) (firstCpus secondCpus : Finset Nat), first ≠ second →
    topo.domainCpus .boardMemory first = .ok firstCpus →
    topo.domainCpus .boardMemory second = .ok secondCpus → Disjoint firstCpus secondCpus
  cover : ∀ cpu, cpu < topo.numDomain .cpu ↔
    ∃ (idx : Nat) (cpus : Finset Nat), topo.domainCpus .boardMemory idx = .ok cpus ∧ cpu ∈ cpus
  place : ∀ cpu < topo.numDomain .cpu, ∃ (idx : Nat) (cpus : Finset Nat),
    topo.domainIdx .boardMemory cpu = .ok (idx : Int) ∧ idx < topo.numDomain .boardMemory ∧
      topo.domainCpus .boardMemory idx = .ok cpus ∧ cpu ∈ cpus

variable {output : Text} {topo made : PlatformTopo} {nodes : List (Finset Nat)} {idx : Nat} {cpus : Finset Nat}

theorem domainCpus_boardMemory : topo.domainCpus .boardMemory idx = .ok cpus ↔
    idx < topo.numDomain .boardMemory ∧ topo.numaMap[idx]? = some cpus := by
  have few : topo.numDomain .boardMemory ≤ topo.numaMap.length := List.countP_le_length
  rw [domainCpus]
  by_cases inside : idx < topo.numDomain .boardMemory
  · rw [if_neg (by omega), Except.ok.injEq, Int.toNat_natCast, List.getD_eq_getElem?_getD,
      List.getElem?_eq_getElem (inside.trans_le few)]
    simp [inside]
  · rw [if_pos (.inr (by omega))]
    simp [inside]

theorem readLscpu_ok (done : topo.readLscpu output = .ok made) :
    ∃ nodes, made.numaMap = topo.numaMap ++ nodes ∧ Nodes (lscpu output) nodes := by
  obtain ⟨counts, _, later⟩ := Transition.ok_of_bind done
  obtain ⟨numaMap, parsed, returned⟩ := Transition.ok_of_bind later
  cases returned
  exact parseLscpuNuma_ok parsed

/-- Where the constructor delegates, the nodes are added twice. -/
theorem numaMap_new {numAccelerator : Nat} {cpuAffinityIdeal : Nat → Finset Nat} {constructor : Constructor}
    (done : new output numAccelerator cpuAffinityIdeal constructor = .ok topo) :
    ∃ nodes, Nodes (lscpu output) nodes ∧
      topo.numaMap = if constructor = .acceleratorTopo then nodes else nodes ++ nodes := by
  have twice : ∀ start middle : PlatformTopo, start.numaMap = [] → start.readLscpu output = .ok middle →
      middle.readLscpu output = .ok topo → ∃ nodes, Nodes (lscpu output) nodes ∧
        topo.numaMap = nodes ++ nodes := by
    intro start middle empty first second
    obtain ⟨nodes, firstMap, listed⟩ := readLscpu_ok first
    obtain ⟨others, secondMap, again⟩ := readLscpu_ok second
    refine ⟨nodes, listed, ?_⟩
    rw [secondMap, firstMap, empty, List.nil_append, again.unique listed]
  cases constructor with
  | acceleratorTopo =>
      obtain ⟨nodes, numaMap, listed⟩ := readLscpu_ok done
      exact ⟨nodes, listed, numaMap⟩
  | nothing =>
      obtain ⟨middle, first, second⟩ := Transition.ok_of_bind done
      exact twice _ middle rfl first second
  | cacheFileName =>
      obtain ⟨middle, first, second⟩ := Transition.ok_of_bind done
      exact twice _ middle rfl first second

theorem hasCpus_iff (listed : Nodes (lscpu output) nodes) (known : nodes[idx]? = some cpus) :
    HasCpus output idx ↔ cpus.Nonempty := by
  have line := listed.known idx cpus known
  constructor
  · rintro ⟨others, found, filled⟩
    rw [line] at found
    cases found
    exact filled
  · exact fun filled => ⟨cpus, line, filled⟩

/-- Where no node is left out before one with CPUs, the loop reaches all of these. -/
theorem listed_of_closed (listed : Nodes (lscpu output) nodes)
    (closed : ∀ later, HasCpus output later → ∀ earlier < later, HasCpus output earlier)
    (filled : HasCpus output idx) : ∃ cpus, nodes[idx]? = some cpus ∧ cpus.Nonempty := by
  have notEnd : ¬ HasCpus output nodes.length := by
    rintro ⟨cpus, found, _⟩
    rw [listed.ended] at found
    cases found
  have inside : idx < nodes.length := by
    by_contra beyond
    rcases Nat.lt_or_eq_of_le (Nat.not_lt.mp beyond) with before | same
    · exact notEnd (closed idx filled _ before)
    · exact notEnd (same ▸ filled)
  have known := List.getElem?_eq_getElem inside
  exact ⟨_, known, (hasCpus_iff listed known).mp filled⟩

theorem wellFormed_of_closed (listed : Nodes (lscpu output) nodes)
    (single : topo.numaMap = nodes) (partition : Partition output (topo.numDomain .cpu))
    (closed : ∀ later, HasCpus output later → ∀ earlier < later, HasCpus output earlier) :
    BoardMemoryWellFormed output topo := by
  have counted : topo.numDomain .boardMemory = nodes.countP fun cpus => cpus.Nonempty := by
    rw [← single]
    rfl
  have initial : ∀ idx < nodes.countP (fun cpus => cpus.Nonempty),
      ∃ cpus, nodes[idx]? = some cpus ∧ cpus.Nonempty := by
    intro idx few
    refine initial_of_closed (fun later earlier cpus before known filled => ?_) few
    exact listed_of_closed listed closed (closed later ((hasCpus_iff listed known).mpr filled) earlier before)
  have numbered : ∀ (node : Nat) (cpus : Finset Nat), nodes[node]? = some cpus →
      (cpus.Nonempty ↔ topo.domainCpus .boardMemory node = .ok cpus) := by
    intro node cpus known
    rw [domainCpus_boardMemory, single, counted]
    constructor
    · exact fun filled => ⟨lt_countP initial known filled, known⟩
    · rintro ⟨few, _⟩
      obtain ⟨others, again, filled⟩ := initial node few
      rw [known] at again
      cases again
      exact filled
  have cover : ∀ cpu, cpu < topo.numDomain .cpu ↔
      ∃ (idx : Nat) (cpus : Finset Nat), topo.domainCpus .boardMemory idx = .ok cpus ∧ cpu ∈ cpus := by
    intro cpu
    rw [partition.cover]
    constructor
    · rintro ⟨node, cpus, line, member⟩
      obtain ⟨others, known, filled⟩ := listed_of_closed listed closed ⟨cpus, line, cpu, member⟩
      have same := listed.known node others known
      rw [line] at same
      cases same
      exact ⟨node, cpus, (numbered node cpus known).mp filled, member⟩
    · rintro ⟨idx, cpus, told, member⟩
      rw [domainCpus_boardMemory, single] at told
      exact ⟨idx, cpus, listed.known idx cpus told.2, member⟩
  have disjoint : ∀ (first second : Nat) (firstCpus secondCpus : Finset Nat), first ≠ second →
      nodes[first]? = some firstCpus → nodes[second]? = some secondCpus →
      Disjoint firstCpus secondCpus := by
    intro first second firstCpus secondCpus differ known other
    exact partition.disjoint first second _ _ differ (listed.known _ _ known) (listed.known _ _ other)
  refine ⟨?_, ?_, ?_, cover, ?_⟩
  · have nodesWith : {node | HasCpus output node} =
        (Finset.range (nodes.countP fun cpus => cpus.Nonempty) : Set Nat) := by
      ext node
      rw [Finset.coe_range, Set.mem_Iio]
      constructor
      · intro filled
        obtain ⟨cpus, known, some_cpu⟩ := listed_of_closed listed closed filled
        exact lt_countP initial known some_cpu
      · intro few
        obtain ⟨cpus, known, filled⟩ := initial node few
        exact (hasCpus_iff listed known).mpr filled
    rw [counted, nodesWith, Set.ncard_coe_finset, Finset.card_range]
  · intro idx few
    rw [counted] at few
    obtain ⟨cpus, known, filled⟩ := initial idx few
    exact ⟨cpus, (numbered idx cpus known).mp filled, filled⟩
  · intro first second firstCpus secondCpus differ told other
    rw [domainCpus_boardMemory, single] at told other
    exact disjoint first second _ _ differ told.2 other.2
  · intro cpu online
    obtain ⟨idx, cpus, told, member⟩ := (cover cpu).mp online
    have known := domainCpus_boardMemory.mp told
    refine ⟨idx, cpus, ?_, known.1, told, member⟩
    rw [single] at known
    have found : nodes.findIdx? (cpu ∈ ·) = some idx := by
      obtain ⟨inside, here⟩ := List.getElem?_eq_some_iff.mp known.2
      rw [List.findIdx?_eq_some_iff_getElem]
      refine ⟨inside, decide_eq_true (here ▸ member), ?_⟩
      intro earlier before there
      have apart := disjoint earlier idx _ _ (Nat.ne_of_lt before)
        (List.getElem?_eq_getElem (before.trans inside)) known.2
      exact Finset.disjoint_left.mp apart (of_decide_eq_true there) member
    rw [domainIdx, if_neg (Nat.not_le.mpr online), single, found]

theorem wellFormed_of_offline (listed : Nodes (lscpu output) nodes) (doubled : topo.numaMap = nodes ++ nodes)
    (partition : Partition output (topo.numDomain .cpu)) (offline : topo.numDomain .cpu = 0) :
    BoardMemoryWellFormed output topo := by
  have no_line : ∀ (node : Nat) (cpus : Finset Nat), nodeCpus (lscpu output) node = some cpus → cpus = ∅ := by
    intro node cpus line
    rw [Finset.eq_empty_iff_forall_notMem]
    intro cpu member
    have online := (partition.cover cpu).mpr ⟨node, cpus, line, member⟩
    omega
  have none_filled : (nodes.countP fun cpus => cpus.Nonempty) = 0 := by
    rw [List.countP_eq_zero]
    intro cpus member filled
    obtain ⟨node, known⟩ := List.mem_iff_getElem?.mp member
    exact (of_decide_eq_true filled).ne_empty (no_line node cpus (listed.known node cpus known))
  have none_counted : topo.numDomain .boardMemory = 0 := by
    simp only [numDomain, doubled, List.countP_append, none_filled]
  have no_domain : ∀ (idx : Nat) (cpus : Finset Nat), topo.domainCpus .boardMemory idx ≠ .ok cpus := by
    intro idx cpus told
    have inside := (domainCpus_boardMemory.mp told).1
    omega
  refine ⟨?_, ?_, ?_, ?_, ?_⟩
  · have none_has : {node | HasCpus output node} = ∅ := by
      rw [Set.eq_empty_iff_forall_notMem]
      rintro node ⟨cpus, line, filled⟩
      exact filled.ne_empty (no_line node cpus line)
    rw [none_counted, none_has, Set.ncard_empty]
  · intro idx inside
    omega
  · intro first second firstCpus secondCpus differ told
    exact absurd told (no_domain first firstCpus)
  · intro cpu
    constructor
    · intro online
      omega
    · rintro ⟨idx, cpus, told, _⟩
      exact absurd told (no_domain idx cpus)
  · intro cpu online
    omega

/-- A node with CPUs that are in some set is in the list. -/
theorem listed_of_cover (partition : Partition output (topo.numDomain .cpu))
    (listed : Nodes (lscpu output) nodes) (formed : BoardMemoryWellFormed output topo)
    (single : topo.numaMap = nodes) (filled : HasCpus output idx) :
    ∃ cpus, nodes[idx]? = some cpus ∧ cpus.Nonempty := by
  obtain ⟨cpus, line, cpu, member⟩ := filled
  obtain ⟨other, otherCpus, told, again⟩ := (formed.cover cpu).mp ((partition.cover cpu).mpr ⟨idx, cpus, line, member⟩)
  rw [domainCpus_boardMemory, single] at told
  have same : other = idx := by
    by_contra differ
    have apart := partition.disjoint other idx _ _ differ (listed.known _ _ told.2) line
    exact Finset.disjoint_left.mp apart again member
  subst same
  exact ⟨otherCpus, told.2, cpu, again⟩

/-- A list of nodes that is there twice numbers no CPU well. -/
theorem not_doubled (formed : BoardMemoryWellFormed output topo) (doubled : topo.numaMap = nodes ++ nodes) :
    topo.numDomain .cpu = 0 := by
  by_contra online
  obtain ⟨idx, cpus, told, _⟩ := (formed.cover 0).mp (Nat.pos_of_ne_zero online)
  have counted : topo.numDomain .boardMemory = 2 * nodes.countP fun cpus => cpus.Nonempty := by
    simp only [numDomain, doubled, List.countP_append]
    omega
  have some_node := (domainCpus_boardMemory.mp told).1
  rw [counted] at some_node
  have few : (nodes.countP fun cpus => cpus.Nonempty) ≤ nodes.length := List.countP_le_length
  have filled : ∀ place < topo.numDomain .boardMemory, place < nodes.length →
      ∃ cpus, nodes[place]? = some cpus ∧ cpus.Nonempty := by
    intro place inside short
    obtain ⟨cpus, told, filled⟩ := formed.nonempty place inside
    rw [domainCpus_boardMemory, doubled, List.getElem?_append_left short] at told
    exact ⟨cpus, told.2, filled⟩
  by_cases short : nodes.length < topo.numDomain .boardMemory
  · -- The second copy of the first node is in reach.
    obtain ⟨cpus, told, some_cpu⟩ := formed.nonempty 0 (by omega)
    have again : topo.domainCpus .boardMemory nodes.length = .ok cpus := by
      rw [domainCpus_boardMemory, doubled] at told ⊢
      rw [List.getElem?_append_left (by omega)] at told
      rw [List.getElem?_append_right le_rfl, Nat.sub_self]
      exact ⟨short, told.2⟩
    have apart := formed.disjoint 0 nodes.length cpus cpus (by omega) told again
    rw [Finset.disjoint_self_iff_empty] at apart
    exact absurd apart some_cpu.ne_empty
  · obtain ⟨cpus, known, some_cpu⟩ :=
      filled (nodes.countP fun cpus => cpus.Nonempty) (by omega) (by omega)
    have before := lt_countP (fun place inside => filled place (by omega) (by omega)) known some_cpu
    exact absurd before (lt_irrefl _)

/-- The board memory is well formed when the nodes are read once and those with CPUs come first. -/
theorem boardMemory_wellFormed {numAccelerator : Nat} {cpuAffinityIdeal : Nat → Finset Nat}
    {constructor : Constructor} (done : new output numAccelerator cpuAffinityIdeal constructor = .ok topo)
    (partition : Partition output (topo.numDomain .cpu)) :
    BoardMemoryWellFormed output topo ↔
      (constructor = .acceleratorTopo ∨ topo.numDomain .cpu = 0) ∧
        ∀ later, HasCpus output later → ∀ earlier < later, HasCpus output earlier := by
  obtain ⟨nodes, listed, numaMap⟩ := numaMap_new done
  constructor
  · intro formed
    by_cases single : constructor = .acceleratorTopo
    · rw [if_pos single] at numaMap
      refine ⟨.inl single, fun later filled earlier before => ?_⟩
      have initial : ∀ place < nodes.countP (fun cpus => cpus.Nonempty),
          ∃ cpus, nodes[place]? = some cpus ∧ cpus.Nonempty := by
        intro place inside
        rw [← numaMap] at inside
        obtain ⟨cpus, told, some_cpu⟩ := formed.nonempty place inside
        rw [domainCpus_boardMemory, numaMap] at told
        exact ⟨cpus, told.2, some_cpu⟩
      obtain ⟨cpus, known, some_cpu⟩ := listed_of_cover partition listed formed numaMap filled
      obtain ⟨others, there, other_cpu⟩ := initial earlier (before.trans (lt_countP initial known some_cpu))
      exact (hasCpus_iff listed there).mpr other_cpu
    · rw [if_neg single] at numaMap
      have offline := not_doubled formed numaMap
      refine ⟨.inr offline, ?_⟩
      rintro later ⟨cpus, line, cpu, member⟩
      have online := (partition.cover cpu).mpr ⟨later, cpus, line, member⟩
      omega
  · rintro ⟨once, closed⟩
    by_cases single : constructor = .acceleratorTopo
    · rw [if_pos single] at numaMap
      exact wellFormed_of_closed listed numaMap partition closed
    · rw [if_neg single] at numaMap
      exact wellFormed_of_offline listed numaMap partition (once.resolve_left single)

/-- The output for two nodes with the given masks. -/
def twoNodes (firstMask secondMask : Text) : Text :=
  "CPU(s):                4\nOn-line CPU(s) mask:   0xf\nThread(s) per core:    2\n".toList ++
  "Core(s) per socket:    2\nSocket(s):             1\nNUMA node(s):          2\n".toList ++
  "NUMA node0 CPU(s):     ".toList ++ firstMask ++
  "\nNUMA node1 CPU(s):     ".toList ++ secondMask ++ "\n".toList

section TwoNodes

variable {first second : Finset Nat} {numCpu node : Nat}

/-- The lines of two nodes and of no others. -/
def HasTwo (output : Text) (first second : Finset Nat) : Prop :=
  (∀ key ∈ (lscpu output).map Prod.fst, 16 ≤ key.length → key.take 9 = "NUMA node".toList →
    key = numaKey 0 ∨ key = numaKey 1) ∧
  nodeCpus (lscpu output) 0 = some first ∧ nodeCpus (lscpu output) 1 = some second

instance : Decidable (HasTwo output first second) := inferInstanceAs (Decidable (_ ∧ _))

theorem nodeCpus_two (two : HasTwo output first second) (line : nodeCpus (lscpu output) node = some cpus) :
    (node = 0 ∧ cpus = first) ∨ (node = 1 ∧ cpus = second) := by
  obtain ⟨keys, zero, one⟩ := two
  have known := keys _ (mem_keys_of_nodeCpus line) (length_numaKey node) (take_numaKey node)
  rw [numaKey_injective.eq_iff, numaKey_injective.eq_iff] at known
  obtain rfl | rfl := known
  · rw [zero] at line
    exact .inl ⟨rfl, (Option.some.inj line).symm⟩
  · rw [one] at line
    exact .inr ⟨rfl, (Option.some.inj line).symm⟩

theorem partition_two (two : HasTwo output first second) (apart : Disjoint first second)
    (all : first ∪ second = Finset.range numCpu) : Partition output numCpu := by
  constructor
  · intro cpu
    rw [← Finset.mem_range, ← all, Finset.mem_union]
    constructor
    · rintro (member | member)
      · exact ⟨0, first, two.2.1, member⟩
      · exact ⟨1, second, two.2.2, member⟩
    · rintro ⟨node, cpus, line, member⟩
      obtain ⟨_, rfl⟩ | ⟨_, rfl⟩ := nodeCpus_two two line
      · exact .inl member
      · exact .inr member
  · intro node other nodeCpus otherCpus differ line another
    obtain ⟨rfl, rfl⟩ | ⟨rfl, rfl⟩ := nodeCpus_two two line <;>
      obtain ⟨rfl, rfl⟩ | ⟨rfl, rfl⟩ := nodeCpus_two two another
    · exact absurd rfl differ
    · exact apart
    · exact apart.symm
    · exact absurd rfl differ

end TwoNodes

theorem new_ok {numAccelerator : Nat} {cpuAffinityIdeal : Nat → Finset Nat} {constructor : Constructor}
    {numaMap : List (Finset Nat)} {numCpu : Nat}
    (made : ((new output numAccelerator cpuAffinityIdeal constructor).toOption.map fun topo =>
      (topo.numaMap, topo.numDomain .cpu)) = some (numaMap, numCpu)) :
    ∃ topo, new output numAccelerator cpuAffinityIdeal constructor = .ok topo ∧
      topo.numaMap = numaMap ∧ topo.numDomain .cpu = numCpu := by
  cases done : new output numAccelerator cpuAffinityIdeal constructor with
  | error reason =>
      rw [done] at made
      cases made
  | ok topo =>
      rw [done] at made
      cases made
      exact ⟨topo, rfl, rfl, rfl⟩

theorem boardMemory_wellFormed_memoryLast :
    ∃ topo, new (twoNodes "0xf".toList "0x0".toList) 0 (fun _ => ∅) .acceleratorTopo = .ok topo ∧
      BoardMemoryWellFormed (twoNodes "0xf".toList "0x0".toList) topo := by
  obtain ⟨topo, done, numaMap, online⟩ : ∃ topo, new (twoNodes "0xf".toList "0x0".toList) 0 (fun _ => ∅)
      .acceleratorTopo = .ok topo ∧ topo.numaMap = [{0, 1, 2, 3}, ∅] ∧ topo.numDomain .cpu = 4 :=
    new_ok (by decide +kernel)
  have two : HasTwo (twoNodes "0xf".toList "0x0".toList) {0, 1, 2, 3} ∅ := by decide +kernel
  have partition : Partition (twoNodes "0xf".toList "0x0".toList) (topo.numDomain .cpu) := by
    rw [online]
    exact partition_two two (by decide) (by decide)
  refine ⟨topo, done, (boardMemory_wellFormed done partition).mpr ⟨.inl rfl, ?_⟩⟩
  rintro later ⟨cpus, line, filled⟩ earlier before
  obtain ⟨rfl, rfl⟩ | ⟨rfl, rfl⟩ := nodeCpus_two two line
  · omega
  · exact absurd rfl filled.ne_empty

theorem not_boardMemory_wellFormed :
    (∃ topo, new (twoNodes "0x0".toList "0xf".toList) 0 (fun _ => ∅) .acceleratorTopo = .ok topo ∧
      Partition (twoNodes "0x0".toList "0xf".toList) (topo.numDomain .cpu) ∧
      ¬ BoardMemoryWellFormed (twoNodes "0x0".toList "0xf".toList) topo) ∧
    ∃ topo, new (twoNodes "0x3".toList "0xc".toList) 0 (fun _ => ∅) .cacheFileName = .ok topo ∧
      Partition (twoNodes "0x3".toList "0xc".toList) (topo.numDomain .cpu) ∧
      ¬ BoardMemoryWellFormed (twoNodes "0x3".toList "0xc".toList) topo := by
  constructor
  · obtain ⟨topo, done, numaMap, online⟩ : ∃ topo, new (twoNodes "0x0".toList "0xf".toList) 0 (fun _ => ∅)
        .acceleratorTopo = .ok topo ∧ topo.numaMap = [∅, {0, 1, 2, 3}] ∧ topo.numDomain .cpu = 4 :=
      new_ok (by decide +kernel)
    refine ⟨topo, done, ?_, fun formed => ?_⟩
    · rw [online]
      have two : HasTwo (twoNodes "0x0".toList "0xf".toList) ∅ {0, 1, 2, 3} := by
        decide +kernel
      exact partition_two two (by decide) (by decide)
    · have counted : topo.numDomain .boardMemory = 1 := by
        rw [numDomain, numaMap]
        decide
      obtain ⟨cpus, told, filled⟩ := formed.nonempty 0 (by omega)
      rw [domainCpus_boardMemory, numaMap] at told
      cases told.2
      exact filled.ne_empty rfl
  · obtain ⟨topo, done, numaMap, online⟩ : ∃ topo, new (twoNodes "0x3".toList "0xc".toList) 0 (fun _ => ∅)
        .cacheFileName = .ok topo ∧ topo.numaMap = [{0, 1}, {2, 3}, {0, 1}, {2, 3}] ∧
          topo.numDomain .cpu = 4 :=
      new_ok (by decide +kernel)
    refine ⟨topo, done, ?_, fun formed => ?_⟩
    · rw [online]
      have two : HasTwo (twoNodes "0x3".toList "0xc".toList) {0, 1} {2, 3} := by
        decide +kernel
      exact partition_two two (by decide) (by decide)
    · have counted : topo.numDomain .boardMemory = 4 := by
        rw [numDomain, numaMap]
        decide
      have apart := formed.disjoint 0 2 {0, 1} {0, 1} (by decide)
        (domainCpus_boardMemory.mpr ⟨by omega, by rw [numaMap]; rfl⟩)
        (domainCpus_boardMemory.mpr ⟨by omega, by rw [numaMap]; rfl⟩)
      exact absurd apart (by decide)

end PlatformTopo

end Geopm
