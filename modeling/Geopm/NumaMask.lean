import Geopm.BoardMemory
import Geopm.Library.Hexadecimal

namespace Geopm

/-! `parse_lscpu_numa`: the CPUs that the masks of the NUMA nodes denote. -/

namespace Lscpu

/-- A mask of hexadecimal digits, with or without `0x` before them, denotes a number. -/
def Denotes (mask : Text) (number : Nat) : Prop :=
  ∃ digits, (mask = digits ∨ mask = '0' :: 'x' :: digits) ∧ Hexadecimal.Digits digits ∧
    number = Hexadecimal.number digits

variable {lscpuMap : List (Text × Text)} {mask digits : Text} {letter : Char} {number value offset passes nodeIdx : Nat}
  {numaMap : List (Finset Nat)}

theorem hexDigit_ok (found : Hexadecimal.digit letter = some value) : hexDigit letter = .ok value := by
  rw [Hexadecimal.digit] at found
  rw [hexDigit]
  grind

theorem mem_bits {cpu : Nat} :
    cpu ∈ ((Finset.range 4).filter fun bitIdx => value.testBit bitIdx).image (offset + ·) ↔
      offset ≤ cpu ∧ cpu - offset < 4 ∧ value.testBit (cpu - offset) := by
  rw [Finset.mem_image]
  constructor
  · rintro ⟨bitIdx, member, rfl⟩
    simpa using member
  · rintro ⟨after, few, set⟩
    exact ⟨cpu - offset, by simp [few, set], Nat.add_sub_cancel' after⟩

/-- The digits from the last one on give the bits of their number. -/
theorem maskBits_reverse (written : Hexadecimal.Digits digits) :
    ∃ cpus, maskBits offset digits.reverse = .ok cpus ∧
      ∀ cpu, cpu ∈ cpus ↔ offset ≤ cpu ∧ (Hexadecimal.number digits).testBit (cpu - offset) := by
  induction digits using List.reverseRecOn generalizing offset with
  | nil => exact ⟨∅, rfl, by simp [Hexadecimal.number]⟩
  | append_singleton digits letter ih =>
      obtain ⟨before, value, found⟩ := Hexadecimal.digits_concat.mp written
      obtain ⟨others, parsed, higher⟩ := @ih (offset + 4) before
      refine ⟨((Finset.range 4).filter fun bitIdx => value.testBit bitIdx).image (offset + ·) ∪ others, ?_, ?_⟩
      · rw [List.reverse_concat, maskBits, hexDigit_ok found]
        simp only [parsed, bind, Except.bind]
      · intro cpu
        rw [Finset.mem_union, mem_bits, higher, Hexadecimal.testBit_concat found]
        by_cases low : cpu - offset < 4
        · have below : ¬ offset + 4 ≤ cpu := by omega
          simp [low, below]
        · have above : offset + 4 ≤ cpu := by omega
          have after : offset ≤ cpu := by omega
          simp [low, above, after, Nat.sub_sub]

theorem maskDigits_prefix : maskDigits ('0' :: 'x' :: digits) = digits.reverse := rfl

theorem maskDigits_plain (written : Hexadecimal.Digits digits) : maskDigits digits = digits.reverse := by
  rw [maskDigits, if_neg]
  intro marked
  have letter : 'x' ∈ digits := List.mem_of_mem_take (i := 2) (by simp [marked])
  have not_digit : ¬ (Hexadecimal.digit 'x').isSome := by decide
  exact not_digit (written 'x' letter)

theorem maskBits_denotes (denotes : Denotes mask number) :
    ∃ cpus, maskBits 0 (maskDigits mask) = .ok cpus ∧ ∀ cpu, cpu ∈ cpus ↔ number.testBit cpu := by
  obtain ⟨digits, spelled, written, rfl⟩ := denotes
  have stripped : maskDigits mask = digits.reverse := by
    rcases spelled with rfl | rfl
    · exact maskDigits_plain written
    · exact maskDigits_prefix
  rw [stripped]
  simpa using @maskBits_reverse digits 0 written

/-- A loop over masks does not fail. -/
theorem numaWithin_exists
    (spelled : ∀ node mask, Assoc.lookup (numaKey node) lscpuMap = some mask → ∃ number, Denotes mask number) :
    ∃ found, numaWithin lscpuMap passes nodeIdx numaMap = .ok found := by
  induction passes generalizing nodeIdx numaMap with
  | zero => exact ⟨numaMap, rfl⟩
  | succ passes ih =>
      rw [numaWithin]
      cases line : Assoc.lookup (numaKey nodeIdx) lscpuMap with
      | none => exact ⟨numaMap, rfl⟩
      | some mask =>
          obtain ⟨number, denotes⟩ := spelled nodeIdx mask line
          obtain ⟨cpus, parsed, _⟩ := maskBits_denotes denotes
          simp only [parsed, bind, Except.bind]
          exact ih

/-- Each node from the first one on, up to one without a line, gets the CPUs of its mask. -/
theorem parseLscpuNuma_denotes (lscpuMap : List (Text × Text)) (numaMap : List (Finset Nat))
    (spelled : ∀ node mask, Assoc.lookup (numaKey node) lscpuMap = some mask → ∃ number, Denotes mask number) :
    ∃ nodes, parseLscpuNuma lscpuMap numaMap = .ok (numaMap ++ nodes) ∧
      Assoc.lookup (numaKey nodes.length) lscpuMap = none ∧
      ∀ node cpus, nodes[node]? = some cpus → ∃ mask, Assoc.lookup (numaKey node) lscpuMap = some mask ∧
        ∀ number, Denotes mask number → ∀ cpu, cpu ∈ cpus ↔ number.testBit cpu := by
  obtain ⟨found, done⟩ := @numaWithin_exists lscpuMap (lscpuMap.length + 1) 0 numaMap spelled
  obtain ⟨nodes, rfl, listed⟩ := parseLscpuNuma_ok done
  refine ⟨nodes, done, ?_, ?_⟩
  · have ended := listed.ended
    rw [nodeCpus] at ended
    cases line : Assoc.lookup (numaKey nodes.length) lscpuMap with
    | none => rfl
    | some mask =>
        obtain ⟨number, denotes⟩ := spelled _ mask line
        obtain ⟨cpus, parsed, _⟩ := maskBits_denotes denotes
        simp [line, parsed] at ended
  · intro node cpus place
    have known := listed.known node cpus place
    rw [nodeCpus] at known
    cases line : Assoc.lookup (numaKey node) lscpuMap with
    | none => simp [line] at known
    | some mask =>
        refine ⟨mask, rfl, ?_⟩
        intro number denotes
        obtain ⟨others, parsed, bits⟩ := maskBits_denotes denotes
        simp only [line, parsed, Option.some.injEq] at known
        rw [← known]
        exact bits

/-- Two nodes, one with the prefix and one without. -/
def twoNodes : List (Text × Text) :=
  [("NUMA node0 CPU(s)".toList, "0x3".toList), ("NUMA node1 CPU(s)".toList, "c".toList)]

theorem parseLscpuNuma_denotes_two :
    ∃ nodes, parseLscpuNuma twoNodes [] = .ok ([] ++ nodes) ∧
      Assoc.lookup (numaKey nodes.length) twoNodes = none ∧
      ∀ node cpus, nodes[node]? = some cpus → ∃ mask, Assoc.lookup (numaKey node) twoNodes = some mask ∧
        ∀ number, Denotes mask number → ∀ cpu, cpu ∈ cpus ↔ number.testBit cpu := by
  apply parseLscpuNuma_denotes twoNodes []
  intro node mask line
  have member := Assoc.mem_of_lookup line
  simp only [twoNodes, List.mem_cons, Prod.mk.injEq, List.not_mem_nil, or_false] at member
  rcases member with ⟨_, rfl⟩ | ⟨_, rfl⟩
  · exact ⟨3, ['3'], .inr (by decide +kernel), List.forall_mem_singleton.mpr rfl, rfl⟩
  · exact ⟨12, ['c'], .inl (by decide +kernel), List.forall_mem_singleton.mpr rfl, rfl⟩

end Lscpu

end Geopm
