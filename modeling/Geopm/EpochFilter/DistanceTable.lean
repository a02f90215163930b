import Geopm.EpochFilter.PeriodicityDetector
import Geopm.EpochFilter.RingBuffer
import Mathlib.Data.Nat.ModEq

namespace Geopm

/-! What the table of the edit distances holds: it is used for a window of the rows and the columns,
and an entry of the window is zero where the parts of the history are equal. -/

namespace PeriodicityDetector

open Geopm.Ring (Recent window length_window)

variable {detector other next start : PeriodicityDetector} {sequence : Nat → Nat}
  {ii jj mm row column rank val count index first stop : Nat}

/-- An entry of the table. -/
def cell (detector : PeriodicityDetector) (ii jj mm : Nat) : Nat := detector.DP (detector.dIdx ii jj mm)

/-- Two entries are kept in the same place. -/
def Aliases (detector : PeriodicityDetector) (ii jj mm row column rank : Nat) : Prop :=
  ii % detector.historyBufferSize = row % detector.historyBufferSize ∧
    jj % detector.historyBufferSize = column % detector.historyBufferSize ∧
    mm % detector.historyBufferSize = rank % detector.historyBufferSize

theorem digits_inj {size low high left right : Nat} (lowLess : low < size) (highLess : high < size)
    (same : left * size + low = right * size + high) : left = right ∧ low = high := by
  have quotient := congrArg (· / size) same
  have positive : 0 < size := Nat.lt_of_le_of_lt (Nat.zero_le _) lowLess
  simp only [Nat.add_comm _ low, Nat.add_comm _ high, Nat.add_mul_div_right _ _ positive,
    Nat.div_eq_of_lt lowLess, Nat.div_eq_of_lt highLess, Nat.zero_add] at quotient
  subst quotient
  exact ⟨rfl, Nat.add_left_cancel same⟩

theorem aliases_of_dIdx (positive : 0 < detector.historyBufferSize)
    (same : detector.dIdx ii jj mm = detector.dIdx row column rank) :
    detector.Aliases ii jj mm row column rank := by
  have less (value : Nat) := Nat.mod_lt value positive
  rw [dIdx, dIdx, ← Nat.add_mul, ← Nat.add_mul] at same
  obtain ⟨upper, last⟩ := digits_inj (less mm) (less rank) same
  obtain ⟨top, middle⟩ := digits_inj (less jj) (less column) upper
  exact ⟨top, middle, last⟩

theorem cell_dSet_self : (detector.dSet ii jj mm val).cell ii jj mm = val :=
  Function.update_self _ _ _

theorem cell_dSet_alias (aliases : detector.Aliases ii jj mm row column rank) :
    (detector.dSet ii jj mm val).cell row column rank = val := by
  have same : detector.dIdx row column rank = detector.dIdx ii jj mm := by
    rw [dIdx, dIdx, aliases.1, aliases.2.1, aliases.2.2]
  have set : (detector.dSet ii jj mm val).cell row column rank =
      Function.update detector.DP (detector.dIdx ii jj mm) val (detector.dIdx row column rank) := rfl
  rw [set, same, Function.update_self]

theorem cell_dSet_other (positive : 0 < detector.historyBufferSize)
    (apart : ¬detector.Aliases ii jj mm row column rank) :
    (detector.dSet ii jj mm val).cell row column rank = detector.cell row column rank :=
  Function.update_of_ne (fun same => apart (aliases_of_dIdx positive same.symm)) _ _

/-- Distinct numbers of a window of the size of the table have distinct places. -/
theorem mod_ne {size left right : Nat} (less : left < right) (near : right < left + size) :
    left % size ≠ right % size := by
  intro same
  have divides := (Nat.modEq_iff_dvd' (Nat.le_of_lt less)).mp same
  exact absurd (Nat.le_of_dvd (by omega) divides) (by omega)

/-- What is read of the table. -/
theorem dGet_eq : detector.dGet ii jj mm =
    if detector.recordCount < ii + detector.historyBufferSize ∧ jj < detector.historyBufferSize ∧
      detector.recordCount < mm + detector.historyBufferSize then detector.cell ii jj mm
    else (2 ^ 32 - 1) / 2 := by
  rw [dGet]
  apply if_congr _ rfl rfl
  constructor
  · rintro ⟨left, middle, right⟩
    exact ⟨by omega, middle, by omega⟩
  · rintro ⟨left, middle, right⟩
    exact ⟨by omega, middle, by omega⟩

/-- Parts of the history of equal length are equal: the one before an index and the one from another
index on. -/
def Shifted (sequence : Nat → Nat) (ii jj mm : Nat) : Prop :=
  jj ≤ ii ∧ ∀ index < jj, sequence (ii - jj + index) = sequence (mm + index)

theorem shifted_zero : Shifted sequence ii 0 mm :=
  ⟨Nat.zero_le _, fun _ less => absurd less (Nat.not_lt_zero _)⟩

theorem shifted_succ (positive : 1 ≤ ii) : Shifted sequence ii (jj + 1) mm ↔
    Shifted sequence (ii - 1) jj mm ∧ sequence (ii - 1) = sequence (mm + jj) := by
  constructor
  · rintro ⟨inside, same⟩
    refine ⟨⟨by omega, ?_⟩, ?_⟩
    · intro index less
      rw [← same index (by omega)]
      congr 1
      omega
    · rw [← same jj (by omega)]
      congr 1
      omega
  · rintro ⟨⟨inside, same⟩, last⟩
    refine ⟨by omega, ?_⟩
    intro index less
    rcases Nat.lt_succ_iff_lt_or_eq.mp less with earlier | rfl
    · rw [← same index earlier]
      congr 1
      omega
    · rw [← last]
      congr 1
      omega

/-- What is said of an entry when the given number of records has been entered. -/
structure Matches (sequence : Nat → Nat) (size count mm ii val : Nat) : Prop where
  bounded : val ≤ (2 ^ 32 - 1) / 2 + (count - mm)
  zero : val = 0 ↔ (mm < count → count + 1 < ii + size) ∧ Shifted sequence ii (count - mm) mm

theorem matches_start {size : Nat} : Matches sequence size count count ii 0 where
  bounded := Nat.zero_le _
  zero := by
    rw [Nat.sub_self]
    exact ⟨fun _ => ⟨fun less => absurd less (Nat.lt_irrefl _), shifted_zero⟩, fun _ => rfl⟩

theorem matches_border {size : Nat} (less : mm < count) :
    Matches sequence size count mm 0 (count - mm) where
  bounded := by omega
  zero := by
    constructor
    · omega
    · rintro ⟨_, inside, _⟩
      omega

/-- The penalty of a replacement is two unless the records are equal and the first is still known. -/
theorem matches_penalty {size left above corner term : Nat} (less : mm < count) (near : count < mm + size)
    (small : size < 2 ^ 31) (some_left : 1 ≤ ii) (leftBounded : left ≤ (2 ^ 32 - 1) / 2 + (count - mm))
    (aboveBounded : above ≤ (2 ^ 32 - 1) / 2 + (count - 1 - mm))
    (cornerBounded : corner ≤ (2 ^ 32 - 1) / 2 + (count - 1 - mm))
    (cornerZero : corner = 0 ↔ count < ii - 1 + size ∧ Shifted sequence (ii - 1) (count - 1 - mm) mm)
    (termEq : term = if count - (ii - 1) ≤ size ∧ sequence (ii - 1) = sequence (count - 1) then 0 else 2) :
    Matches sequence size count mm ii
      (min (min ((left + 1) % 2 ^ 32) ((above + 1) % 2 ^ 32)) ((corner + term) % 2 ^ 32)) := by
  have termSmall : term ≤ 2 := by
    rw [termEq]
    split <;> omega
  rw [Nat.mod_eq_of_lt (by omega), Nat.mod_eq_of_lt (by omega), Nat.mod_eq_of_lt (by omega)]
  constructor
  case bounded => omega
  case zero =>
      have split : min (min (left + 1) (above + 1)) (corner + term) = 0 ↔ corner = 0 ∧ term = 0 := by omega
      have last : mm + (count - 1 - mm) = count - 1 := by omega
      rw [split, cornerZero, show count - mm = count - 1 - mm + 1 by omega, shifted_succ some_left, last]
      constructor
      · rintro ⟨⟨guarded, shifted⟩, zero⟩
        refine ⟨fun _ => by omega, shifted, ?_⟩
        rw [termEq] at zero
        split at zero
        case isTrue same => exact same.2
        case isFalse => omega
      · rintro ⟨guarded, shifted, same⟩
        have inside := guarded less
        refine ⟨⟨by omega, shifted⟩, ?_⟩
        rw [termEq, if_pos ⟨by omega, same⟩]

/-- The buffer holds the last records of a sequence. -/
structure Follows (sequence : Nat → Nat) (detector : PeriodicityDetector) : Prop where
  some_left : 2 ≤ detector.historyBufferSize
  small : detector.historyBufferSize < 2 ^ 31
  recent : Recent detector.historyBuffer detector.historyBufferSize
    ((List.range detector.recordCount).map sequence)

theorem Follows.size (follows : detector.Follows sequence) :
    detector.historyBuffer.size = min detector.recordCount detector.historyBufferSize := by
  rw [CircularBuffer.size, follows.recent.2, length_window, List.length_map, List.length_range]

theorem Follows.value (follows : detector.Follows sequence) {age : Nat} (positive : 0 < age)
    (inside : age ≤ detector.historyBuffer.size) :
    detector.historyBuffer.value (detector.historyBuffer.size - age) =
      .ok (sequence (detector.recordCount - age)) := by
  have size := follows.size
  have place : detector.recordCount - detector.historyBufferSize + (detector.historyBuffer.size - age) =
      detector.recordCount - age := by omega
  have found : detector.historyBuffer.entries[detector.historyBuffer.size - age]? =
      some (sequence (detector.recordCount - age)) := by
    rw [follows.recent.2, window, List.getElem?_drop, List.length_map, List.length_range, place,
      List.getElem?_map, List.getElem?_range (by omega), Option.map_some]
  rw [CircularBuffer.value, found]

theorem Follows.term (follows : detector.Follows sequence) (some_left : 1 ≤ ii)
    (inside : ii ≤ detector.recordCount) : detector.term (sequence (detector.recordCount - 1)) ii =
      .ok (if detector.recordCount - (ii - 1) ≤ detector.historyBufferSize ∧
        sequence (ii - 1) = sequence (detector.recordCount - 1) then 0 else 2) := by
  have size := follows.size
  rw [PeriodicityDetector.term]
  by_cases known : detector.recordCount - (ii - 1) ≤ detector.historyBufferSize
  case pos =>
      have there : detector.recordCount - (ii - 1) ≤ detector.historyBuffer.size := by omega
      simp only [if_pos there, follows.value (by omega) there, known, true_and, Except.map]
      rw [show detector.recordCount - (detector.recordCount - (ii - 1)) = ii - 1 by omega]
  case neg =>
      rw [if_neg (by omega), if_neg fun both => known both.1]

theorem Follows.alike (follows : detector.Follows sequence) (alike : detector.Alike other) :
    other.Follows sequence := by
  obtain ⟨historyBuffer, historyBufferSize, recordCount⟩ := alike
  constructor
  · rw [historyBufferSize]
    exact follows.some_left
  · rw [historyBufferSize]
    exact follows.small
  · rw [historyBuffer, historyBufferSize, recordCount]
    exact follows.recent

/-- What the loops find in a column: the row that the last record has left, and its border. -/
structure Prepared (sequence : Nat → Nat) (start : PeriodicityDetector) (mm : Nat) : Prop where
  above : ∀ row ≤ mm, start.recordCount < row + start.historyBufferSize →
    Matches sequence start.historyBufferSize (start.recordCount - 1) mm row
      (start.cell row (start.recordCount - 1 - mm) mm)
  border : start.recordCount < start.historyBufferSize →
    start.cell 0 (start.recordCount - mm) mm = start.recordCount - mm

/-- What holds in the inner loop over a column up to a row. -/
structure Filling (sequence : Nat → Nat) (start : PeriodicityDetector) (mm ii : Nat)
    (detector : PeriodicityDetector) : Prop where
  alike : start.Alike detector
  others : ∀ row column rank, mm % start.historyBufferSize ≠ rank % start.historyBufferSize →
    detector.cell row column rank = start.cell row column rank
  above : ∀ row, detector.cell row (start.recordCount - 1 - mm) mm =
    start.cell row (start.recordCount - 1 - mm) mm
  filled : start.recordCount < mm + start.historyBufferSize →
    ∀ row < ii, start.recordCount < row + start.historyBufferSize →
      Matches sequence start.historyBufferSize start.recordCount mm row
        (detector.cell row (start.recordCount - mm) mm)

/-- The penalty that the loops put into an entry. -/
def penalty (detector : PeriodicityDetector) (term mm ii : Nat) : Nat :=
  min (min ((detector.dGet (ii - 1) (detector.recordCount - mm) mm + 1) % 2 ^ 32)
    ((detector.dGet ii (detector.recordCount - mm - 1) mm + 1) % 2 ^ 32))
    ((detector.dGet (ii - 1) (detector.recordCount - mm - 1) mm + term) % 2 ^ 32)

theorem penalize_eq {lastRec term : Nat} (found : detector.term lastRec ii = .ok term) :
    penalize lastRec mm detector ii =
      .ok (detector.dSet ii (detector.recordCount - mm) mm (detector.penalty term mm ii)) := by
  rw [penalize, found]
  rfl

theorem Filling.penalty (follows : start.Follows sequence) (prepared : start.Prepared sequence mm)
    (less : mm < start.recordCount) (near : start.recordCount < mm + start.historyBufferSize)
    (some_left : 1 ≤ ii) (inside : ii ≤ mm) (filling : Filling sequence start mm ii detector) {term : Nat}
    (termEq : term = if start.recordCount - (ii - 1) ≤ start.historyBufferSize ∧
      sequence (ii - 1) = sequence (start.recordCount - 1) then 0 else 2) :
    Matches sequence start.historyBufferSize start.recordCount mm ii (detector.penalty term mm ii) := by
  obtain ⟨_, sameSize, sameCount⟩ := filling.alike
  have room := follows.some_left
  rw [PeriodicityDetector.penalty, sameCount, Nat.sub_right_comm]
  have short : start.recordCount - mm < start.historyBufferSize := by omega
  have shorter : start.recordCount - 1 - mm < start.historyBufferSize := by omega
  apply matches_penalty less near follows.small some_left
  case leftBounded =>
      rw [dGet_eq]
      split
      case isTrue guarded =>
          rw [sameSize, sameCount] at guarded
          exact (filling.filled near (ii - 1) (by omega) guarded.1).bounded
      case isFalse => exact Nat.le_add_right _ _
  case aboveBounded =>
      rw [dGet_eq]
      split
      case isTrue guarded =>
          rw [sameSize, sameCount] at guarded
          rw [filling.above]
          exact (prepared.above ii inside guarded.1).bounded
      case isFalse => exact Nat.le_add_right _ _
  case cornerBounded =>
      rw [dGet_eq]
      split
      case isTrue guarded =>
          rw [sameSize, sameCount] at guarded
          rw [filling.above]
          exact (prepared.above (ii - 1) (by omega) guarded.1).bounded
      case isFalse => exact Nat.le_add_right _ _
  case cornerZero =>
      rw [dGet_eq, sameSize, sameCount]
      split
      case isTrue guarded =>
          rw [filling.above, (prepared.above (ii - 1) (by omega) guarded.1).zero]
          constructor
          · exact fun matched => ⟨guarded.1, matched.2⟩
          · exact fun matched => ⟨fun _ => by omega, matched.2⟩
      case isFalse unguarded =>
          constructor
          · omega
          · exact fun matched => absurd ⟨matched.1, shorter, near⟩ unguarded
  case termEq => exact termEq

theorem Filling.step (follows : start.Follows sequence)
    (prepared : start.recordCount < mm + start.historyBufferSize → start.Prepared sequence mm)
    (less : mm < start.recordCount) (some_left : 1 ≤ ii) (inside : ii ≤ mm)
    (filling : Filling sequence start mm ii detector) :
    ∃ next, penalize (sequence (start.recordCount - 1)) mm detector ii = .ok next ∧
      Filling sequence start mm (ii + 1) next := by
  have alike := filling.alike
  have room := follows.some_left
  have positive : 0 < detector.historyBufferSize := by
    rw [alike.historyBufferSize]
    omega
  have term := (follows.alike alike).term some_left (by rw [alike.recordCount]; omega)
  rw [alike.recordCount, alike.historyBufferSize] at term
  rw [penalize_eq term, alike.recordCount]
  refine ⟨_, rfl, alike.dSet _ _ _ _, ?_, ?_, ?_⟩
  case refine_1 =>
      intro row column rank different
      rw [← filling.others row column rank different]
      apply cell_dSet_other positive
      rintro ⟨_, _, same⟩
      rw [alike.historyBufferSize] at same
      exact different same
  case refine_2 =>
      intro row
      rw [← filling.above row]
      apply cell_dSet_other positive
      rintro ⟨_, same, _⟩
      rw [alike.historyBufferSize] at same
      exact mod_ne (by omega) (by omega) same.symm
  case refine_3 =>
      intro near row earlier known
      rcases Nat.lt_succ_iff_lt_or_eq.mp earlier with before | rfl
      · rw [cell_dSet_other positive]
        · exact filling.filled near row before known
        · rintro ⟨same, _, _⟩
          rw [alike.historyBufferSize] at same
          exact mod_ne before (by omega) same.symm
      · rw [cell_dSet_self]
        exact filling.penalty follows (prepared near) less near some_left inside rfl

/-- The first index of the loops. -/
def firstIndex (detector : PeriodicityDetector) : Nat :=
  max 1 (detector.recordCount - detector.historyBufferSize)

theorem filling_start (prepared : start.recordCount < mm + start.historyBufferSize →
      start.Prepared sequence mm) (less : mm < start.recordCount) :
    Filling sequence start mm start.firstIndex start where
  alike := ⟨rfl, rfl, rfl⟩
  others _ _ _ _ := rfl
  above _ := rfl
  filled near row earlier known := by
    rw [firstIndex] at earlier
    obtain rfl : row = 0 := by omega
    rw [(prepared near).border (by omega)]
    exact matches_border less

/-- The inner loop fills a column. -/
theorem fill_column (follows : start.Follows sequence)
    (prepared : start.recordCount < mm + start.historyBufferSize → start.Prepared sequence mm)
    (less : mm < start.recordCount) (inside : start.firstIndex ≤ mm) :
    ∃ next, (between start.firstIndex (mm + 1)).foldlM
        (penalize (sequence (start.recordCount - 1)) mm) start = .ok next ∧
      Filling sequence start mm (mm + 1) next := by
  have positive : 1 ≤ start.firstIndex := Nat.le_max_left _ _
  have steps (ii : Nat) (detector : PeriodicityDetector) (after : start.firstIndex ≤ ii)
      (before : ii < start.firstIndex + (mm + 1 - start.firstIndex))
      (filling : Filling sequence start mm ii detector) :=
    filling.step follows prepared less (Nat.le_trans positive after) (by omega)
  obtain ⟨next, done, filling⟩ := Transition.ok_range' steps (filling_start prepared less)
  rw [show start.firstIndex + (mm + 1 - start.firstIndex) = mm + 1 by omega] at filling
  exact ⟨next, done, filling⟩

/-- What holds in the outer loop up to a column. -/
structure FillingAll (sequence : Nat → Nat) (start : PeriodicityDetector) (mm : Nat)
    (detector : PeriodicityDetector) : Prop where
  alike : start.Alike detector
  left : ∀ row column rank, mm ≤ rank → rank < start.recordCount →
    detector.cell row column rank = start.cell row column rank
  filled : ∀ rank < mm, 1 ≤ rank → start.recordCount < rank + start.historyBufferSize →
    ∀ row ≤ rank, start.recordCount < row + start.historyBufferSize →
      Matches sequence start.historyBufferSize start.recordCount rank row
        (detector.cell row (start.recordCount - rank) rank)

theorem FillingAll.step (follows : start.Follows sequence)
    (prepared : ∀ rank, 1 ≤ rank → rank < start.recordCount →
      start.recordCount < rank + start.historyBufferSize → start.Prepared sequence rank)
    (after : start.firstIndex ≤ mm) (less : mm < start.recordCount)
    (filling : FillingAll sequence start mm detector) :
    ∃ next, (between start.firstIndex (mm + 1)).foldlM
        (penalize (sequence (start.recordCount - 1)) mm) detector = .ok next ∧
      FillingAll sequence start (mm + 1) next := by
  obtain ⟨sameHistory, sameSize, sameCount⟩ := filling.alike
  have positive : 1 ≤ start.firstIndex := Nat.le_max_left _ _
  have sameFirst : detector.firstIndex = start.firstIndex := by
    rw [firstIndex, sameSize, sameCount, firstIndex]
  have low : start.recordCount ≤ mm + start.historyBufferSize := by
    rw [firstIndex] at after
    omega
  have ready (near : detector.recordCount < mm + detector.historyBufferSize) :
      detector.Prepared sequence mm := by
    rw [sameSize, sameCount] at near
    have before := prepared mm (by omega) less near
    constructor
    · intro row inside known
      rw [filling.left _ _ mm (Nat.le_refl _) less, sameSize, sameCount]
      rw [sameSize, sameCount] at known
      exact before.above row inside known
    · intro whole
      rw [sameSize, sameCount] at whole
      rw [filling.left _ _ mm (Nat.le_refl _) less, sameCount]
      exact before.border whole
  obtain ⟨next, done, column⟩ := fill_column (follows.alike filling.alike) ready
    (by rw [sameCount]; exact less) (by rw [sameFirst]; exact after)
  rw [sameFirst, sameCount] at done
  refine ⟨next, done, ?_, ?_, ?_⟩
  case refine_1 =>
      obtain ⟨history, size, count⟩ := column.alike
      exact ⟨history.trans sameHistory, size.trans sameSize, count.trans sameCount⟩
  case refine_2 =>
      intro row other rank above inside
      rw [column.others row other rank, filling.left row other rank (by omega) inside]
      rw [sameSize]
      exact mod_ne (by omega) (by omega)
  case refine_3 =>
      intro rank earlier some_left near row inside known
      rcases Nat.lt_succ_iff_lt_or_eq.mp earlier with before | rfl
      · rw [column.others row _ rank]
        · exact filling.filled rank before some_left near row inside known
        · rw [sameSize]
          exact (mod_ne before (by omega)).symm
      · have matched := column.filled (by rw [sameSize, sameCount]; exact near) row (by omega)
          (by rw [sameSize, sameCount]; exact known)
        rw [sameSize, sameCount] at matched
        exact matched

/-- The loops fill the columns of the window. -/
theorem fill_all (follows : start.Follows sequence) (several : 2 ≤ start.recordCount)
    (prepared : ∀ rank, 1 ≤ rank → rank < start.recordCount →
      start.recordCount < rank + start.historyBufferSize → start.Prepared sequence rank) :
    ∃ next, start.fill (sequence (start.recordCount - 1)) = .ok next ∧
      FillingAll sequence start start.recordCount next := by
  have room := follows.some_left
  have first : start.firstIndex ≤ start.recordCount := by
    rw [firstIndex]
    omega
  have initial : FillingAll sequence start start.firstIndex start := by
    refine ⟨⟨rfl, rfl, rfl⟩, fun _ _ _ _ _ => rfl, ?_⟩
    intro rank earlier some_left near
    rw [firstIndex] at earlier
    omega
  have steps (mm : Nat) (detector : PeriodicityDetector) (after : start.firstIndex ≤ mm)
      (before : mm < start.firstIndex + (start.recordCount - start.firstIndex))
      (filling : FillingAll sequence start mm detector) :=
    filling.step follows prepared after (by omega)
  obtain ⟨next, done, filling⟩ := Transition.ok_range' steps initial
  rw [show start.firstIndex + (start.recordCount - start.firstIndex) = start.recordCount by omega] at filling
  exact ⟨next, done, filling⟩

section Borders

variable {rows columns ranks vals : Nat → Nat} {indices : List Nat}

/-- A loop over entries. -/
def setEach (rows columns ranks vals : Nat → Nat) (indices : List Nat) (detector : PeriodicityDetector) :
    PeriodicityDetector :=
  indices.foldl (fun detector index =>
    detector.dSet (rows index) (columns index) (ranks index) (vals index)) detector

theorem cell_setEach_other (positive : 0 < detector.historyBufferSize)
    (apart : ∀ index ∈ indices,
      ¬detector.Aliases (rows index) (columns index) (ranks index) row column rank) :
    (setEach rows columns ranks vals indices detector).cell row column rank =
      detector.cell row column rank := by
  induction indices generalizing detector with
  | nil => rfl
  | cons head rest ih =>
      rw [← cell_dSet_other positive (apart head (by simp))]
      exact @ih (detector.dSet _ _ _ _) positive fun index member => apart index (by simp [member])

theorem setEach_historyBufferSize : (setEach rows columns ranks vals indices detector).historyBufferSize =
    detector.historyBufferSize := by
  induction indices generalizing detector with
  | nil => rfl
  | cons head rest ih => exact @ih (detector.dSet _ _ _ _)

/-- Where several entries are kept in one place they are set to one value. -/
theorem cell_setEach (positive : 0 < detector.historyBufferSize) (member : index ∈ indices)
    (aliases : detector.Aliases (rows index) (columns index) (ranks index) row column rank)
    (same : ∀ other ∈ indices, detector.Aliases (rows other) (columns other) (ranks other) row column rank →
      vals other = val) : (setEach rows columns ranks vals indices detector).cell row column rank = val := by
  induction indices using List.reverseRecOn with
  | nil => cases member
  | append_singleton earlier last ih =>
      have size : (setEach rows columns ranks vals earlier detector).historyBufferSize =
          detector.historyBufferSize := setEach_historyBufferSize
      have split : setEach rows columns ranks vals (earlier ++ [last]) detector =
          (setEach rows columns ranks vals earlier detector).dSet (rows last) (columns last) (ranks last)
            (vals last) := by
        rw [setEach, List.foldl_append]
        rfl
      rw [split]
      by_cases hit : detector.Aliases (rows last) (columns last) (ranks last) row column rank
      case pos =>
          rw [same last (by simp) hit]
          apply cell_dSet_alias
          rw [Aliases, size]
          exact hit
      case neg =>
          rw [cell_dSet_other]
          · have before : index ∈ earlier := by
              rcases List.mem_append.mp member with before | here
              · exact before
              · rw [List.mem_singleton.mp here] at aliases
                exact absurd aliases hit
            exact ih before fun other known => same other (by simp [known])
          · rw [size]
            exact positive
          · rw [Aliases, size]
            exact hit

/-- What the loops over the borders leave. -/
theorem setBorders_eq : detector.setBorders =
    setEach (fun _ => 0) (fun mm => detector.recordCount - mm) (fun mm => mm)
      (fun mm => detector.recordCount - mm)
      (between (detector.recordCount - detector.historyBufferSize) detector.recordCount)
      (setEach (fun ii => ii) (fun _ => 0) (fun _ => detector.recordCount - 1) (fun _ => 0)
        (between (detector.recordCount - detector.historyBufferSize) detector.recordCount) detector) := rfl

/-- A table that has the entries for a number of records. -/
def Tabled (sequence : Nat → Nat) (count : Nat) (detector : PeriodicityDetector) : Prop :=
  ∀ rank, 1 ≤ rank → rank < count → count < rank + detector.historyBufferSize →
    ∀ row ≤ rank, count < row + detector.historyBufferSize →
      Matches sequence detector.historyBufferSize count rank row (detector.cell row (count - rank) rank)

/-- In a column that has records the loops over the borders set the entries of its own rank only. -/
theorem cell_setBorders_above (column : Nat) (less : rank < detector.recordCount)
    (near : detector.recordCount < rank + detector.historyBufferSize)
    (last : column + 1 = detector.recordCount - rank) : detector.setBorders.cell row column rank =
      (setEach (fun ii => ii) (fun _ => 0) (fun _ => detector.recordCount - 1) (fun _ => 0)
        (between (detector.recordCount - detector.historyBufferSize) detector.recordCount)
        detector).cell row column rank := by
  have size : (setEach (fun ii => ii) (fun _ => 0) (fun _ => detector.recordCount - 1) (fun _ => 0)
      (between (detector.recordCount - detector.historyBufferSize) detector.recordCount)
      detector).historyBufferSize = detector.historyBufferSize := setEach_historyBufferSize
  rw [setBorders_eq]
  apply cell_setEach_other
  · rw [size]
    omega
  rintro index member ⟨_, sameColumn, sameRank⟩
  rw [mem_between] at member
  rw [size] at sameColumn sameRank
  have here : index = rank := by
    rcases Nat.lt_trichotomy index rank with before | same | after
    · exact absurd sameRank (mod_ne before (by omega))
    · exact same
    · exact absurd sameRank.symm (mod_ne after (by omega))
  rw [here, ← last] at sameColumn
  exact absurd sameColumn.symm (mod_ne (by omega) (by omega))

/-- The last record starts a column of zeros. -/
theorem cell_setBorders_last (last : rank + 1 = detector.recordCount) (inside : row ≤ rank)
    (near : detector.recordCount < rank + detector.historyBufferSize)
    (known : detector.recordCount < row + detector.historyBufferSize) :
    detector.setBorders.cell row 0 rank = 0 := by
  rw [cell_setBorders_above 0 (by omega) near (by omega)]
  have rank_eq : rank = detector.recordCount - 1 := by omega
  rw [rank_eq]
  apply @cell_setEach _ _ _ _ _ row
  · omega
  · rw [mem_between]
    omega
  · exact ⟨rfl, rfl, rfl⟩
  · exact fun _ _ _ => rfl

/-- Columns that have been there before are left as they were. -/
theorem cell_setBorders_earlier (room : 2 ≤ detector.historyBufferSize)
    (earlier : rank + 1 < detector.recordCount)
    (near : detector.recordCount < rank + detector.historyBufferSize) :
    detector.setBorders.cell row (detector.recordCount - 1 - rank) rank =
      detector.cell row (detector.recordCount - 1 - rank) rank := by
  rw [cell_setBorders_above _ (by omega) near (by omega)]
  apply cell_setEach_other (by omega)
  rintro index _ ⟨_, _, sameRank⟩
  exact mod_ne (by omega) (by omega) sameRank.symm

/-- As long as all records are known a column has its length at its border. -/
theorem cell_setBorders_border (less : rank < detector.recordCount)
    (whole : detector.recordCount < detector.historyBufferSize) :
    detector.setBorders.cell 0 (detector.recordCount - rank) rank = detector.recordCount - rank := by
  have size : (setEach (fun ii => ii) (fun _ => 0) (fun _ => detector.recordCount - 1) (fun _ => 0)
      (between (detector.recordCount - detector.historyBufferSize) detector.recordCount)
      detector).historyBufferSize = detector.historyBufferSize := setEach_historyBufferSize
  rw [setBorders_eq]
  apply @cell_setEach _ _ _ _ _ rank
  · rw [size]
    omega
  · rw [mem_between]
    omega
  · exact ⟨rfl, rfl, rfl⟩
  · rintro other member ⟨_, _, sameRank⟩
    rw [mem_between] at member
    rw [size, Nat.mod_eq_of_lt (by omega), Nat.mod_eq_of_lt (by omega)] at sameRank
    rw [sameRank]

/-- With the borders the table is ready for the next record. -/
theorem prepared_setBorders (room : 2 ≤ detector.historyBufferSize)
    (tabled : detector.Tabled sequence (detector.recordCount - 1)) (some_left : 1 ≤ rank)
    (less : rank < detector.recordCount) (near : detector.recordCount < rank + detector.historyBufferSize) :
    detector.setBorders.Prepared sequence rank := by
  obtain ⟨_, sameSize, sameCount⟩ := Alike.setBorders detector
  constructor
  case above =>
      intro row inside known
      rw [sameSize, sameCount] at known
      rw [sameSize, sameCount]
      by_cases last : rank + 1 = detector.recordCount
      case pos =>
          have first : detector.recordCount - 1 - rank = 0 := by omega
          rw [first, cell_setBorders_last last inside near known,
            show detector.recordCount - 1 = rank by omega]
          exact matches_start
      case neg =>
          rw [cell_setBorders_earlier room (by omega) near]
          exact tabled rank some_left (by omega) (by omega) row inside (by omega)
  case border =>
      intro whole
      rw [sameSize, sameCount] at whole
      rw [sameCount]
      exact cell_setBorders_border less whole

end Borders

end PeriodicityDetector

end Geopm
