import Geopm.TreeComm.Cartesian
import Mathlib.Data.List.Sort
import Mathlib.Logic.Relation

namespace Geopm

/-! `TreeComm`: the factors of the number of compute nodes and the communicators of the
levels of the tree that is built over them. -/

namespace TreeComm

open Cartesian

/-- The loop of `fan_out`: one more dimension until the first factor is small enough or the
last is one. -/
def growFanOut (dimensionCreate : Nat → Nat → List Nat) (maxFanOut numNodes : Nat) :
    Nat → Nat → List Nat → Option (List Nat)
  | 0, _, _ => none
  | fuel + 1, numFanOut, factors =>
      if maxFanOut < factors.getD 0 0 ∧ factors.getD (numFanOut - 1) 0 ≠ 1 then
        growFanOut dimensionCreate maxFanOut numNodes fuel (numFanOut + 1)
          (dimensionCreate numNodes (numFanOut + 1))
      else if 1 < numFanOut ∧ factors.getD (numFanOut - 1) 0 = 1 then
        some (factors.take (numFanOut - 1)).reverse
      else some factors.reverse

/-- `fan_out`, if it ends within the given number of rounds. -/
def fanOut (dimensionCreate : Nat → Nat → List Nat) (maxFanOut fuel numNodes : Nat) :
    Option (List Nat) :=
  if 1 < numNodes then growFanOut dimensionCreate maxFanOut numNodes fuel 1 [numNodes]
  else some []

/-- What a rank passes to `split`: a color, unless it takes no part, and a key. -/
structure SplitCall where
  color : Option Nat
  key : Nat
deriving Repr, DecidableEq

/-- `num_level_controlled`. -/
def numLevelControlled (coords : List Nat) : Nat := (coords.reverse.takeWhile (· = 0)).length

/-- The first loop of `init_level`. -/
def joinLevels (dims : List Nat) (rank : Nat) : List Nat → List Nat → List SplitCall
  | [], _ => []
  | level :: rest, parentCoords =>
      let parentCoords := parentCoords.set (dims.length - 1 - level) 0
      ⟨some (cartRank dims parentCoords), rank⟩ :: joinLevels dims rank rest parentCoords

/-- `m_num_level_ctl` of a rank. -/
def numLevelCtl (dims : List Nat) (rank : Nat) : Nat := numLevelControlled (coordinate dims rank)

/-- `m_max_level` of a rank. -/
def maxLevel (dims : List Nat) (rank : Nat) : Nat :=
  if numLevelCtl dims rank ≠ dims.length then numLevelCtl dims rank + 1
  else numLevelCtl dims rank

/-- The calls that `init_level` makes, in all ranks as many as there are levels. -/
def initLevel (dims : List Nat) (rank : Nat) : List SplitCall :=
  joinLevels dims rank (List.range (maxLevel dims rank)) (coordinate dims rank) ++
    List.replicate (dims.length - maxLevel dims rank) ⟨none, 0⟩

/-- `level_size`, where the factors have been reversed. It throws for other levels. -/
def levelSize (dims : List Nat) (level : Nat) : Option Nat := dims.reverse[level]?

/-- What a rank passes to `split` for a level. -/
def levelCall (dims : List Nat) (level rank : Nat) : SplitCall :=
  (initLevel dims rank).getD level ⟨none, 0⟩

/-- The communicator of a level that a rank gets, as the list of its ranks in order. -/
def levelComm (split : (Nat → SplitCall) → Nat → List Nat) (dims : List Nat) (level rank : Nat) :
    List Nat :=
  split (levelCall dims level) rank

/-- A rank has a communicator for the level. -/
def TakesPart (dims : List Nat) (level rank : Nat) : Prop := (levelCall dims level rank).color ≠ none

/-- The parent of a rank in a level is the first rank of its communicator, unless that is
the rank itself. -/
def IsParent (split : (Nat → SplitCall) → Nat → List Nat) (dims : List Nat)
    (parent rank : Nat) : Prop :=
  ∃ level < dims.length, TakesPart dims level rank ∧
    (levelComm split dims level rank).head? = some parent ∧ parent ≠ rank

/-- What is relied on of `dimension_create`. -/
structure Factors (dimensionCreate : Nat → Nat → List Nat) : Prop where
  length : ∀ numNodes count, (dimensionCreate numNodes count).length = count
  positive : ∀ numNodes count, ∀ factor ∈ dimensionCreate numNodes count, 1 ≤ factor
  nonincreasing : ∀ numNodes count, (dimensionCreate numNodes count).Pairwise (· ≥ ·)
  product : ∀ numNodes count, 1 ≤ count → 1 ≤ numNodes →
    (dimensionCreate numNodes count).prod = numNodes

/-- What is relied on of `split`: the ranks with the same color, in the order of their keys. -/
structure Splits (numRank : Nat) (split : (Nat → SplitCall) → Nat → List Nat) : Prop where
  members : ∀ calls rank color, rank < numRank → (calls rank).color = some color →
    ∀ other, other ∈ split calls rank ↔ other < numRank ∧ (calls other).color = some color
  sorted : ∀ calls rank, rank < numRank → (split calls rank).Pairwise fun left right =>
    (calls left).key < (calls right).key ∨ (calls left).key = (calls right).key ∧ left < right

section FanOut

variable {dimensionCreate : Nat → Nat → List Nat} {maxFanOut numNodes fuel numFanOut : Nat}
  {factors : List Nat}

/-- The state of the loop of `fan_out`. -/
structure Dims (numNodes numFanOut : Nat) (factors : List Nat) : Prop where
  some_left : 1 ≤ numFanOut
  length : factors.length = numFanOut
  positive : ∀ factor ∈ factors, 1 ≤ factor
  nonincreasing : factors.Pairwise (· ≥ ·)
  product : factors.prod = numNodes

theorem Factors.dims (factors : Factors dimensionCreate) (nodes : 1 ≤ numNodes) :
    Dims numNodes (numFanOut + 1) (dimensionCreate numNodes (numFanOut + 1)) where
  some_left := Nat.le_add_left _ _
  length := factors.length _ _
  positive := factors.positive _ _
  nonincreasing := factors.nonincreasing _ _
  product := factors.product _ _ (Nat.le_add_left _ _) nodes

theorem Dims.split (dims : Dims numNodes numFanOut factors) :
    ∃ init last, factors = init ++ [last] ∧ init.length = numFanOut - 1 ∧
      factors.getD (numFanOut - 1) 0 = last := by
  have some_left := dims.some_left
  have filled : factors ≠ [] := by
    intro empty
    have length := dims.length
    rw [empty, List.length_nil] at length
    omega
  have parts := List.dropLast_append_getLast filled
  have length : factors.dropLast.length = numFanOut - 1 := by
    rw [List.length_dropLast, dims.length]
  refine ⟨factors.dropLast, factors.getLast filled, parts.symm, length, ?_⟩
  conv_lhs => rw [← parts]
  rw [← length, List.getD_eq_getElem?_getD, List.getElem?_concat_length, Option.getD_some]

theorem pow_le_prod (large : ∀ factor ∈ factors, 2 ≤ factor) : 2 ^ factors.length ≤ factors.prod := by
  induction factors with
  | nil => simp
  | cons head rest ih =>
      rw [List.length_cons, List.prod_cons, Nat.pow_succ, Nat.mul_comm]
      exact Nat.mul_le_mul (large head (by simp)) (ih fun factor member => large factor (by simp [member]))

/-- As long as the last factor is not one, there are fewer factors than nodes. -/
theorem Dims.lt_nodes (dims : Dims numNodes numFanOut factors)
    (not_one : factors.getD (numFanOut - 1) 0 ≠ 1) : numFanOut < numNodes := by
  obtain ⟨init, last, parts, _, last_eq⟩ := dims.split
  have large : ∀ factor ∈ factors, 2 ≤ factor := by
    have last_large : 2 ≤ last := by
      have := dims.positive last (by simp [parts])
      omega
    intro factor member
    rw [parts, List.mem_append, List.mem_singleton] at member
    rcases member with member | rfl
    · have sorted := dims.nonincreasing
      rw [parts, List.pairwise_append] at sorted
      exact Nat.le_trans last_large (sorted.2.2 factor member last (by simp))
    · exact last_large
  have bound := pow_le_prod large
  rw [dims.length, dims.product] at bound
  exact Nat.lt_of_lt_of_le Nat.lt_two_pow_self bound

/-- A last factor that is one is dropped. -/
theorem Dims.take_prod (dims : Dims numNodes numFanOut factors)
    (one : factors.getD (numFanOut - 1) 0 = 1) : (factors.take (numFanOut - 1)).prod = numNodes := by
  obtain ⟨init, last, parts, length, last_eq⟩ := dims.split
  have product := dims.product
  rw [← last_eq, one] at parts
  rw [parts, ← length, List.take_left]
  rw [parts, List.prod_append, List.prod_singleton, Nat.mul_one] at product
  exact product

/-- More rounds than nodes are never needed. -/
theorem growFanOut_ends (create : Factors dimensionCreate) (dims : Dims numNodes numFanOut factors)
    (few : numFanOut ≤ numNodes) (enough : numNodes < numFanOut + fuel) :
    ∃ result, growFanOut dimensionCreate maxFanOut numNodes fuel numFanOut factors = some result ∧
      (∀ factor ∈ result, 1 ≤ factor) ∧ result.prod = numNodes := by
  induction fuel generalizing numFanOut factors with
  | zero => omega
  | succ fuel ih =>
      rw [growFanOut]
      split
      case isTrue more =>
          have less := dims.lt_nodes more.2
          exact ih (create.dims (by omega)) less (by omega)
      case isFalse =>
          split
          case isTrue last_one =>
              refine ⟨_, rfl, ?_, ?_⟩
              · intro factor member
                exact dims.positive factor (List.mem_of_mem_take (List.mem_reverse.mp member))
              · rw [List.prod_reverse, dims.take_prod last_one.2]
          case isFalse =>
              refine ⟨_, rfl, ?_, ?_⟩
              · intro factor member
                exact dims.positive factor (List.mem_reverse.mp member)
              · rw [List.prod_reverse, dims.product]

theorem growFanOut_more {result : List Nat}
    (ends : growFanOut dimensionCreate maxFanOut numNodes fuel numFanOut factors = some result) :
    growFanOut dimensionCreate maxFanOut numNodes (fuel + 1) numFanOut factors = some result := by
  induction fuel generalizing numFanOut factors with
  | zero => cases ends
  | succ fuel ih =>
      rw [growFanOut] at ends ⊢
      split at ends
      case isTrue more =>
          rw [if_pos more]
          exact ih ends
      case isFalse done =>
          rw [if_neg done]
          exact ends

/-- `fan_out` ends, with factors of the number of nodes. -/
theorem fanOut_factors (create : Factors dimensionCreate) (nodes : 1 ≤ numNodes) :
    ∃ result, (∀ fuel, numNodes ≤ fuel →
        fanOut dimensionCreate maxFanOut fuel numNodes = some result) ∧
      (∀ factor ∈ result, 1 ≤ factor) ∧ result.prod = numNodes := by
  by_cases several : 1 < numNodes
  · have start : Dims numNodes 1 [numNodes] := by
      constructor <;> simp
      exact nodes
    obtain ⟨result, ends, positive, product⟩ :=
      growFanOut_ends create start nodes (Nat.lt_add_of_pos_left Nat.one_pos)
    refine ⟨result, ?_, positive, product⟩
    intro fuel enough
    rw [fanOut, if_pos several]
    induction fuel, enough using Nat.le_induction with
    | base => exact ends
    | succ fuel _ ih => exact growFanOut_more ih
  · have one : numNodes = 1 := by omega
    refine ⟨[], ?_, by simp, by simp [one]⟩
    intro fuel _
    rw [fanOut, if_neg several]

end FanOut

section Levels

variable {dims coords : List Nat} {rank level count : Nat}

theorem le_length_takeWhile {values : List Nat} :
    count ≤ (values.takeWhile (· = 0)).length ↔
      count ≤ values.length ∧ ∀ value ∈ values.take count, value = 0 := by
  induction values generalizing count with
  | nil => simp
  | cons head rest ih =>
      cases count with
      | zero => simp
      | succ count =>
          by_cases zero : head = 0
          · simp [zero, ih]
          · simp [zero]

theorem le_numLevelControlled (few : count ≤ coords.length) :
    count ≤ numLevelControlled coords ↔ Trailing coords count := by
  rw [numLevelControlled, le_length_takeWhile, List.take_reverse, Trailing, List.length_reverse]
  simp [few]

/-- One more coordinate is made zero in each level. -/
theorem set_reset (more : count < coords.length) :
    (reset coords count).set (coords.length - 1 - count) 0 = reset coords (count + 1) := by
  have kept : (coords.take (coords.length - count)).length = coords.length - count := by simp
  have place : coords.length - 1 - count < (coords.take (coords.length - count)).length := by omega
  have last : coords.take (coords.length - count) =
      coords.take (coords.length - (count + 1)) ++ [coords[coords.length - 1 - count]] := by
    rw [show coords.length - count = coords.length - 1 - count + 1 by omega, List.take_succ_eq_append_getElem]
    rw [show coords.length - (count + 1) = coords.length - 1 - count by omega]
  have front : (coords.take (coords.length - (count + 1))).length = coords.length - 1 - count := by
    simp
    omega
  rw [reset, List.set_append_left _ _ place, last, reset, List.set_append_right _ _ (by omega), front,
    Nat.sub_self, List.set_cons_zero, List.replicate_succ, List.append_assoc, List.singleton_append]

theorem joinLevels_getElem? {start : Nat} (inside : start + count ≤ dims.length)
    (less : level < count) (sized : coords.length = dims.length) :
    (joinLevels dims rank (List.range' start count) (reset coords start))[level]? =
      some ⟨some (cartRank dims (reset coords (start + level + 1))), rank⟩ := by
  induction count generalizing start level with
  | zero => omega
  | succ count ih =>
      rw [List.range'_succ, joinLevels, ← sized, set_reset (by omega)]
      cases level with
      | zero => rfl
      | succ level =>
          rw [List.getElem?_cons_succ, ih (by omega) (by omega),
            show start + 1 + level + 1 = start + (level + 1) + 1 by omega]

theorem length_joinLevels {levels parentCoords : List Nat} :
    (joinLevels dims rank levels parentCoords).length = levels.length := by
  induction levels generalizing parentCoords with
  | nil => rfl
  | cons level rest ih => simp [joinLevels, ih]

theorem reset_zero : reset coords 0 = coords := by
  simp [reset]

theorem numLevelCtl_le : numLevelCtl dims rank ≤ dims.length := by
  rw [numLevelCtl, numLevelControlled]
  have short := (@List.takeWhile_sublist _ (coordinate dims rank).reverse (· = 0)).length_le
  simpa using short

theorem maxLevel_le : maxLevel dims rank ≤ dims.length := by
  have few : numLevelCtl dims rank ≤ dims.length := numLevelCtl_le
  rw [maxLevel]
  split <;> omega

theorem lt_maxLevel (inside : level < dims.length) :
    level < maxLevel dims rank ↔ level ≤ numLevelCtl dims rank := by
  have few : numLevelCtl dims rank ≤ dims.length := numLevelCtl_le
  rw [maxLevel]
  split <;> omega

/-- All ranks call `split` once for each level. -/
theorem length_initLevel : (initLevel dims rank).length = dims.length := by
  have few : maxLevel dims rank ≤ dims.length := maxLevel_le
  rw [initLevel, List.length_append, length_joinLevels, List.length_range, List.length_replicate]
  omega

theorem levelCall_eq : levelCall dims level rank =
    if level < maxLevel dims rank then
      ⟨some (cartRank dims (reset (coordinate dims rank) (level + 1))), rank⟩
    else ⟨none, 0⟩ := by
  have calls : (joinLevels dims rank (List.range (maxLevel dims rank)) (coordinate dims rank)).length =
      maxLevel dims rank := by
    rw [length_joinLevels, List.length_range]
  rw [levelCall, initLevel, List.getD_eq_getElem?_getD]
  split
  case isTrue joins =>
      rw [List.getElem?_append_left (by omega)]
      have few : 0 + maxLevel dims rank ≤ dims.length := by
        rw [Nat.zero_add]
        exact maxLevel_le
      have call : (joinLevels dims rank (List.range' 0 (maxLevel dims rank))
          (reset (coordinate dims rank) 0))[level]? = _ :=
        joinLevels_getElem? few joins length_coordinate
      rw [reset_zero, ← List.range_eq_range', Nat.zero_add] at call
      rw [call, Option.getD_some]
  case isFalse leaves =>
      rw [List.getElem?_append_right (by omega), List.getElem?_replicate]
      split <;> rfl

/-- The first rank of the communicator of a level. -/
def base (dims : List Nat) (level rank : Nat) : Nat := rank - rank % span dims (level + 1)

theorem takesPart_iff (positive : ∀ dim ∈ dims, 1 ≤ dim) (known : rank < dims.prod)
    (inside : level < dims.length) : TakesPart dims level rank ↔ span dims level ∣ rank := by
  rw [TakesPart, levelCall_eq, ← trailing_coordinate positive known (Nat.le_of_lt inside),
    ← le_numLevelControlled (by rw [length_coordinate]; omega), ← numLevelCtl, ← lt_maxLevel inside]
  split <;> simp_all

theorem lt_numLevelCtl (positive : ∀ dim ∈ dims, 1 ≤ dim) (known : rank < dims.prod)
    (inside : level < dims.length) : level < numLevelCtl dims rank ↔ span dims (level + 1) ∣ rank := by
  rw [← trailing_coordinate positive known inside,
    ← le_numLevelControlled (by rw [length_coordinate]; omega), ← numLevelCtl]
  exact Iff.rfl

theorem levelCall_color (positive : ∀ dim ∈ dims, 1 ≤ dim) (known : rank < dims.prod)
    (inside : level < dims.length) (takesPart : TakesPart dims level rank) :
    levelCall dims level rank = ⟨some (base dims level rank), rank⟩ := by
  rw [TakesPart] at takesPart
  rw [levelCall_eq] at takesPart ⊢
  split at takesPart
  case isTrue joins => rw [if_pos joins, cartRank_reset positive known inside, base]
  case isFalse leaves => exact absurd rfl takesPart

/-- The ranks of a level that have a base are the multiples of the span of the level in the
span of the next level. -/
theorem same_base (positive : ∀ dim ∈ dims, 1 ≤ dim) (inside : level < dims.length) {size other : Nat}
    (sized : levelSize dims level = some size) :
    (span dims level ∣ other ∧ base dims level other = base dims level rank) ↔
      ∃ index < size, base dims level rank + index * span dims level = other := by
  have wide : span dims (level + 1) = size * span dims level := by
    rw [levelSize, List.getElem?_reverse inside] at sized
    rw [span_succ inside, List.getD_eq_getElem?_getD, sized, Option.getD_some]
  have spanPos : 0 < span dims level := span_pos positive
  have widePos : 0 < span dims (level + 1) := span_pos positive
  have start : span dims (level + 1) ∣ base dims level rank := Nat.dvd_sub_mod rank
  constructor
  · rintro ⟨divides, same⟩
    have rest : span dims level ∣ other % span dims (level + 1) :=
      (Nat.dvd_mod_iff (wide ▸ Nat.dvd_mul_left _ _)).mpr divides
    obtain ⟨index, index_eq⟩ := rest
    refine ⟨index, ?_, ?_⟩
    · have less := Nat.mod_lt other widePos
      rw [index_eq, wide, Nat.mul_comm size] at less
      exact Nat.lt_of_mul_lt_mul_left less
    · rw [← same, Nat.mul_comm, ← index_eq, base]
      exact Nat.sub_add_cancel (Nat.mod_le _ _)
  · rintro ⟨index, less, rfl⟩
    have short : index * span dims level < span dims (level + 1) := by
      rw [wide]
      exact Nat.mul_lt_mul_of_pos_right less spanPos
    constructor
    · exact Nat.dvd_add (Nat.dvd_trans (wide ▸ Nat.dvd_mul_left _ _) start) (Nat.dvd_mul_left _ _)
    · obtain ⟨quotient, start_eq⟩ := start
      rw [start_eq, base, Nat.mul_add_mod, Nat.mod_eq_of_lt short, Nat.add_sub_cancel]

theorem levelSize_pos (positive : ∀ dim ∈ dims, 1 ≤ dim) {size : Nat}
    (sized : levelSize dims level = some size) : 0 < size :=
  positive size (List.mem_reverse.mp (List.mem_of_getElem? sized))

theorem base_le : base dims level rank ≤ rank := Nat.sub_le _ _

theorem base_add_span (positive : ∀ dim ∈ dims, 1 ≤ dim) (known : rank < dims.prod) :
    base dims level rank + span dims (level + 1) ≤ dims.prod := by
  have widePos : 0 < span dims (level + 1) := span_pos positive
  obtain ⟨quotient, start⟩ : span dims (level + 1) ∣ base dims level rank := Nat.dvd_sub_mod rank
  obtain ⟨count, all⟩ : span dims (level + 1) ∣ dims.prod := span_dvd_prod
  have less : span dims (level + 1) * quotient < span dims (level + 1) * count := by
    rw [← start, ← all]
    exact Nat.lt_of_le_of_lt base_le known
  rw [start, all, ← Nat.mul_succ]
  exact Nat.mul_le_mul_left _ (Nat.lt_of_mul_lt_mul_left less)

variable {split : (Nat → SplitCall) → Nat → List Nat}

theorem mem_levelComm (splits : Splits dims.prod split) (positive : ∀ dim ∈ dims, 1 ≤ dim)
    (known : rank < dims.prod) (inside : level < dims.length) (takesPart : TakesPart dims level rank)
    {other : Nat} : other ∈ levelComm split dims level rank ↔
      other < dims.prod ∧ TakesPart dims level other ∧ base dims level other = base dims level rank := by
  have call := levelCall_color positive known inside takesPart
  rw [levelComm, splits.members _ _ _ known (congrArg SplitCall.color call)]
  apply and_congr_right
  intro otherKnown
  constructor
  · intro same
    have otherPart : TakesPart dims level other := by
      rw [TakesPart, same]
      exact Option.some_ne_none _
    rw [levelCall_color positive otherKnown inside otherPart] at same
    exact ⟨otherPart, Option.some.inj same⟩
  · rintro ⟨otherPart, same⟩
    rw [levelCall_color positive otherKnown inside otherPart, same]

theorem sorted_levelComm (splits : Splits dims.prod split) (positive : ∀ dim ∈ dims, 1 ≤ dim)
    (known : rank < dims.prod) (inside : level < dims.length) (takesPart : TakesPart dims level rank) :
    (levelComm split dims level rank).Pairwise (· < ·) := by
  have key : ∀ other ∈ levelComm split dims level rank, (levelCall dims level other).key = other := by
    intro other member
    obtain ⟨otherKnown, otherPart, _⟩ :=
      (mem_levelComm splits positive known inside takesPart).mp member
    rw [levelCall_color positive otherKnown inside otherPart]
  apply (splits.sorted (levelCall dims level) rank known).imp_of_mem
  intro left right leftMember rightMember order
  rw [key left leftMember, key right rightMember] at order
  omega

/-- The communicator of a level has one rank for each subtree of the level below. -/
theorem levelComm_eq (splits : Splits dims.prod split) (positive : ∀ dim ∈ dims, 1 ≤ dim)
    (known : rank < dims.prod) (inside : level < dims.length) (takesPart : TakesPart dims level rank)
    {size : Nat} (sized : levelSize dims level = some size) :
    levelComm split dims level rank =
      (List.range size).map fun index => base dims level rank + index * span dims level := by
  have spanPos : 0 < span dims level := span_pos positive
  have left := sorted_levelComm splits positive known inside takesPart
  have right : ((List.range size).map fun index =>
      base dims level rank + index * span dims level).Pairwise (· < ·) := by
    rw [List.pairwise_map]
    apply List.pairwise_lt_range.imp
    intro first second order
    exact Nat.add_lt_add_left (Nat.mul_lt_mul_of_pos_right order spanPos) _
  have perm : (levelComm split dims level rank).Perm
      ((List.range size).map fun index => base dims level rank + index * span dims level) := by
    rw [List.perm_ext_iff_of_nodup (left.imp Nat.ne_of_lt) (right.imp Nat.ne_of_lt)]
    intro other
    rw [mem_levelComm splits positive known inside takesPart, List.mem_map]
    have whole : base dims level rank + span dims (level + 1) ≤ dims.prod :=
      base_add_span positive known
    constructor
    · rintro ⟨otherKnown, otherPart, same⟩
      rw [takesPart_iff positive otherKnown inside] at otherPart
      obtain ⟨index, less, other_eq⟩ := (same_base positive inside sized).mp ⟨otherPart, same⟩
      exact ⟨index, List.mem_range.mpr less, other_eq⟩
    · rintro ⟨index, member, other_eq⟩
      obtain ⟨divides, same⟩ : span dims level ∣ other ∧ base dims level other = base dims level rank :=
        (same_base positive inside sized).mpr ⟨index, List.mem_range.mp member, other_eq⟩
      have otherKnown : other < dims.prod := by
        have widePos : 0 < span dims (level + 1) := span_pos positive
        have rest := Nat.mod_lt other widePos
        have below : base dims level other = other - other % span dims (level + 1) := rfl
        have := Nat.mod_le other (span dims (level + 1))
        omega
      exact ⟨otherKnown, (takesPart_iff positive otherKnown inside).mpr divides, same⟩
  exact perm.eq_of_pairwise (fun first second _ _ less more => absurd more (Nat.lt_asymm less)) left right

/-- What holds of the communicators of a level. -/
structure LevelFormed (split : (Nat → SplitCall) → Nat → List Nat) (dims : List Nat) (level : Nat) :
    Prop where
  part : ∀ rank < dims.prod, TakesPart dims level rank ↔ Trailing (coordinate dims rank) level
  own : ∀ rank < dims.prod, TakesPart dims level rank → rank ∈ levelComm split dims level rank
  members : ∀ rank < dims.prod, TakesPart dims level rank →
    ∀ other ∈ levelComm split dims level rank, other < dims.prod ∧ TakesPart dims level other ∧
      levelComm split dims level other = levelComm split dims level rank
  size : ∀ rank < dims.prod, TakesPart dims level rank →
    levelSize dims level = some (levelComm split dims level rank).length
  controls : ∀ rank < dims.prod, TakesPart dims level rank →
    ∃ head, (levelComm split dims level rank).head? = some head ∧
      ∀ other ∈ levelComm split dims level rank,
        (level < numLevelCtl dims other ↔ other = head) ∧
        (level + 1 < dims.length → (TakesPart dims (level + 1) other ↔ other = head))

theorem exists_levelSize (inside : level < dims.length) : ∃ size, levelSize dims level = some size :=
  ⟨_, List.getElem?_eq_getElem (by rw [List.length_reverse]; exact inside)⟩

theorem head_levelComm (splits : Splits dims.prod split) (positive : ∀ dim ∈ dims, 1 ≤ dim)
    (known : rank < dims.prod) (inside : level < dims.length) (takesPart : TakesPart dims level rank) :
    (levelComm split dims level rank).head? = some (base dims level rank) := by
  obtain ⟨size, sized⟩ := exists_levelSize inside
  obtain ⟨more, size_eq⟩ := Nat.exists_eq_succ_of_ne_zero (Nat.ne_of_gt (levelSize_pos positive sized))
  rw [levelComm_eq splits positive known inside takesPart sized, size_eq, Nat.succ_eq_add_one,
    List.range_succ_eq_map, List.map_cons, List.head?_cons, Nat.zero_mul, Nat.add_zero]

/-- The multiples of the span of the next level are the first ranks. -/
theorem span_dvd_iff (positive : ∀ dim ∈ dims, 1 ≤ dim) :
    span dims (level + 1) ∣ rank ↔ rank = base dims level rank := by
  have widePos : 0 < span dims (level + 1) := span_pos positive
  rw [Nat.dvd_iff_mod_eq_zero, base]
  have := Nat.mod_le rank (span dims (level + 1))
  omega

theorem levelFormed (splits : Splits dims.prod split) (positive : ∀ dim ∈ dims, 1 ≤ dim)
    (inside : level < dims.length) : LevelFormed split dims level where
  part rank known := by
    rw [takesPart_iff positive known inside, trailing_coordinate positive known (Nat.le_of_lt inside)]
  own rank known takesPart := (mem_levelComm splits positive known inside takesPart).mpr
    ⟨known, takesPart, rfl⟩
  members rank known takesPart other member := by
    obtain ⟨otherKnown, otherPart, same⟩ :=
      (mem_levelComm splits positive known inside takesPart).mp member
    obtain ⟨size, sized⟩ := exists_levelSize inside
    refine ⟨otherKnown, otherPart, ?_⟩
    rw [levelComm_eq splits positive known inside takesPart sized,
      levelComm_eq splits positive otherKnown inside otherPart sized, same]
  size rank known takesPart := by
    obtain ⟨size, sized⟩ := exists_levelSize inside
    rw [levelComm_eq splits positive known inside takesPart sized, List.length_map, List.length_range,
      sized]
  controls rank known takesPart := by
    refine ⟨_, head_levelComm splits positive known inside takesPart, ?_⟩
    intro other member
    obtain ⟨otherKnown, _, same⟩ := (mem_levelComm splits positive known inside takesPart).mp member
    constructor
    · rw [lt_numLevelCtl positive otherKnown inside, span_dvd_iff positive, same]
    · intro next
      rw [takesPart_iff positive otherKnown next, span_dvd_iff positive, same]

/-- Each rank but the first has one parent, and the first is above all. -/
structure SingleRooted (split : (Nat → SplitCall) → Nat → List Nat) (dims : List Nat) : Prop where
  root : ∀ parent, ¬ IsParent split dims parent 0
  parent : ∀ rank < dims.prod, rank ≠ 0 → ∃! parent, IsParent split dims parent rank
  above : ∀ rank < dims.prod, Relation.ReflTransGen (IsParent split dims) 0 rank

/-- In the levels that a rank controls it is itself the first. -/
theorem isParent_iff (splits : Splits dims.prod split) (positive : ∀ dim ∈ dims, 1 ≤ dim)
    (known : rank < dims.prod) {parent : Nat} : IsParent split dims parent rank ↔
      numLevelCtl dims rank < dims.length ∧ parent = base dims (numLevelCtl dims rank) rank := by
  constructor
  · rintro ⟨level, inside, takesPart, head, other⟩
    rw [head_levelComm splits positive known inside takesPart, Option.some.injEq] at head
    have joins : level ≤ numLevelCtl dims rank := by
      rw [takesPart_iff positive known inside, ← trailing_coordinate positive known (Nat.le_of_lt inside),
        ← le_numLevelControlled (by rw [length_coordinate]; omega)] at takesPart
      exact takesPart
    have top : ¬ level < numLevelCtl dims rank := by
      rw [lt_numLevelCtl positive known inside, span_dvd_iff positive, head]
      exact fun same => other same.symm
    have level_eq : level = numLevelCtl dims rank := by omega
    rw [← level_eq]
    exact ⟨inside, head.symm⟩
  · rintro ⟨inside, rfl⟩
    have takesPart : TakesPart dims (numLevelCtl dims rank) rank := by
      rw [takesPart_iff positive known inside, ← trailing_coordinate positive known (Nat.le_of_lt inside),
        ← le_numLevelControlled (by rw [length_coordinate]; omega)]
      exact Nat.le_refl _
    refine ⟨_, inside, takesPart, head_levelComm splits positive known inside takesPart, ?_⟩
    intro same
    have controlled := (lt_numLevelCtl positive known inside).mpr
      ((span_dvd_iff positive).mpr same.symm)
    exact absurd controlled (Nat.lt_irrefl _)

theorem numLevelCtl_lt (positive : ∀ dim ∈ dims, 1 ≤ dim) (known : rank < dims.prod)
    (not_root : rank ≠ 0) : numLevelCtl dims rank < dims.length := by
  have few : numLevelCtl dims rank ≤ dims.length := numLevelCtl_le
  apply Nat.lt_of_le_of_ne few
  intro all
  have trailing : Trailing (coordinate dims rank) dims.length := by
    rw [← le_numLevelControlled (by rw [length_coordinate]), ← numLevelCtl, all]
  rw [trailing_coordinate positive known (Nat.le_refl _), span_length] at trailing
  exact not_root (Nat.eq_zero_of_dvd_of_lt trailing known)

theorem singleRooted (splits : Splits dims.prod split) (positive : ∀ dim ∈ dims, 1 ≤ dim) :
    SingleRooted split dims where
  root parent isParent := by
    obtain ⟨inside, _⟩ := (isParent_iff splits positive (prod_pos positive)).mp isParent
    have controlled := (lt_numLevelCtl positive (prod_pos positive) inside).mpr (Nat.dvd_zero _)
    exact absurd controlled (Nat.lt_irrefl _)
  parent rank known not_root := by
    refine ⟨base dims (numLevelCtl dims rank) rank, ?_, ?_⟩
    · exact (isParent_iff splits positive known).mpr ⟨numLevelCtl_lt positive known not_root, rfl⟩
    · intro parent isParent
      exact ((isParent_iff splits positive known).mp isParent).2
  above rank known := by
    induction rank using Nat.strongRecOn with
    | ind rank ih =>
        by_cases root : rank = 0
        · rw [root]
        · have inside := numLevelCtl_lt positive known root
          have isParent := (isParent_iff splits positive known).mpr ⟨inside, rfl⟩
          have other : base dims (numLevelCtl dims rank) rank ≠ rank := by
            obtain ⟨_, _, _, _, other⟩ := isParent
            exact other
          have less := Nat.lt_of_le_of_ne base_le other
          exact (ih _ less (Nat.lt_trans less known)).tail isParent

end Levels

/-- `fan_out` ends with factors of the number of nodes, and over all factors `init_level` builds a
tree. -/
theorem builds_tree (dimensionCreate : Nat → Nat → List Nat) (create : Factors dimensionCreate)
    (numNodes maxFanOut : Nat) (nodes : 1 ≤ numNodes) :
    (∃ factors, (∀ fuel, numNodes ≤ fuel →
        fanOut dimensionCreate maxFanOut fuel numNodes = some factors) ∧
      (∀ factor ∈ factors, 1 ≤ factor) ∧ factors.prod = numNodes) ∧
    ∀ dims split, (∀ dim ∈ dims, 1 ≤ dim) → Splits dims.prod split →
      (∀ level < dims.length, LevelFormed split dims level) ∧ SingleRooted split dims := by
  constructor
  · exact fanOut_factors create nodes
  · intro dims split positive splits
    constructor
    · intro level inside
      exact levelFormed splits positive inside
    · exact singleRooted splits positive

section Small

/-- `dimension_create`, balanced for four nodes. -/
def smallCreate (numNodes count : Nat) : List Nat :=
  if numNodes = 4 ∧ count = 2 then [2, 2]
  else if count = 0 then [] else max numNodes 1 :: List.replicate (count - 1) 1

theorem smallCreate_factors : Factors smallCreate where
  length numNodes count := by
    rw [smallCreate]
    split
    case isTrue four => rw [four.2]; rfl
    case isFalse =>
        split
        case isTrue zero => rw [zero]; rfl
        case isFalse some_left => simp; omega
  positive numNodes count := by
    rw [smallCreate]
    split
    case isTrue => decide
    case isFalse =>
        split
        case isTrue => simp
        case isFalse =>
            intro factor member
            rcases List.mem_cons.mp member with rfl | one
            · exact Nat.le_max_right _ _
            · rw [List.eq_of_mem_replicate one]
  nonincreasing numNodes count := by
    rw [smallCreate]
    split
    case isTrue => decide
    case isFalse =>
        split
        case isTrue => exact List.Pairwise.nil
        case isFalse =>
            rw [List.pairwise_cons]
            constructor
            · intro factor one
              rw [List.eq_of_mem_replicate one]
              exact Nat.le_max_right _ _
            · exact List.pairwise_replicate.mpr (Or.inr (Nat.le_refl _))
  product numNodes count some_left nodes := by
    rw [smallCreate]
    split
    case isTrue four => rw [four.1]; rfl
    case isFalse =>
        rw [if_neg (by omega), List.prod_cons, List.prod_replicate, Nat.one_pow, Nat.mul_one]
        exact Nat.max_eq_left nodes

/-- The order of the ranks in a communicator: by their keys and then by the ranks. -/
def Precedes (calls : Nat → SplitCall) (left right : Nat) : Prop :=
  (calls left).key < (calls right).key ∨ (calls left).key = (calls right).key ∧ left ≤ right

instance (calls : Nat → SplitCall) : DecidableRel (Precedes calls) := fun _ _ =>
  inferInstanceAs (Decidable (_ ∨ _))

instance (calls : Nat → SplitCall) : Std.Total (Precedes calls) where
  total left right := by
    rw [Precedes, Precedes]
    omega

instance (calls : Nat → SplitCall) : IsTrans Nat (Precedes calls) where
  trans first second third before after := by
    rw [Precedes] at before after ⊢
    omega

/-- `split` by color. -/
def splitByKey (numRank : Nat) (calls : Nat → SplitCall) (rank : Nat) : List Nat :=
  ((List.range numRank).filter fun other => (calls other).color = (calls rank).color).insertionSort
    (Precedes calls)

theorem splitByKey_splits (numRank : Nat) : Splits numRank (splitByKey numRank) where
  members calls rank color known colored other := by
    rw [splitByKey, List.mem_insertionSort, List.mem_filter, List.mem_range, colored, decide_eq_true_iff]
  sorted calls rank known := by
    have ordered := List.pairwise_insertionSort (Precedes calls)
      ((List.range numRank).filter fun other => (calls other).color = (calls rank).color)
    have distinct : (splitByKey numRank calls rank).Nodup :=
      (List.perm_insertionSort _ _).nodup_iff.mpr (List.nodup_range.filter _)
    apply (ordered.and distinct).imp
    rintro left right ⟨order, different⟩
    rw [Precedes] at order
    omega

end Small

theorem builds_tree_four :
    (∃ factors, (∀ fuel, 4 ≤ fuel → fanOut smallCreate 2 fuel 4 = some factors) ∧
      (∀ factor ∈ factors, 1 ≤ factor) ∧ factors.prod = 4) ∧
    LevelFormed (splitByKey 4) [2, 2] 0 ∧ LevelFormed (splitByKey 4) [2, 2] 1 ∧
    SingleRooted (splitByKey 4) [2, 2] :=
  have tree := (builds_tree smallCreate smallCreate_factors 4 2 (by decide)).2 [2, 2] (splitByKey 4)
    (by decide) (splitByKey_splits 4)
  ⟨(builds_tree smallCreate smallCreate_factors 4 2 (by decide)).1, tree.1 0 (by decide),
    tree.1 1 (by decide), tree.2⟩

end TreeComm

end Geopm
