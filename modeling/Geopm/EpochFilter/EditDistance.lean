import Geopm.EpochFilter.Detection

namespace Geopm

/-! The table as long as the history has not wrapped: every entry of the current
columns is the value of the plain recursion. -/

namespace PeriodicityDetector

variable {detector other next start : PeriodicityDetector} {sequence : Nat → Nat}
  {ii jj mm row column rank val count : Nat}

/-- The plain recursion for the first records against those from an index on. -/
def editDistance (sequence : Nat → Nat) (mm : Nat) : Nat → Nat → Nat
  | _, 0 => 0
  | 0, jj + 1 => jj + 1
  | ii + 1, jj + 1 =>
      min (min (editDistance sequence mm ii (jj + 1) + 1) (editDistance sequence mm (ii + 1) jj + 1))
        (editDistance sequence mm ii jj + if sequence ii = sequence (mm + jj) then 0 else 2)

theorem editDistance_zero : editDistance sequence mm ii 0 = 0 := by
  rw [editDistance]

theorem editDistance_border : editDistance sequence mm 0 jj = jj := by
  cases jj with
  | zero => exact editDistance_zero
  | succ jj => rw [editDistance]

theorem editDistance_le : editDistance sequence mm ii jj ≤ jj := by
  induction jj with
  | zero => exact Nat.le_of_eq editDistance_zero
  | succ jj ih =>
      cases ii with
      | zero => exact Nat.le_of_eq editDistance_border
      | succ ii =>
          rw [editDistance]
          omega

section Loops

/-- Places of a history that has not wrapped are different when their indices are. -/
theorem cell_dSet (lessRow : row < detector.historyBufferSize)
    (lessColumn : column < detector.historyBufferSize) (lessRank : rank < detector.historyBufferSize)
    (lessIi : ii < detector.historyBufferSize) (lessJj : jj < detector.historyBufferSize)
    (lessMm : mm < detector.historyBufferSize) :
    (detector.dSet ii jj mm val).cell row column rank =
      if row = ii ∧ column = jj ∧ rank = mm then val else detector.cell row column rank := by
  by_cases same : row = ii ∧ column = jj ∧ rank = mm
  · obtain ⟨rfl, rfl, rfl⟩ := same
    rw [if_pos ⟨rfl, rfl, rfl⟩, cell_dSet_self]
  · rw [if_neg same]
    apply cell_dSet_other (by omega)
    rintro ⟨sameRow, sameColumn, sameRank⟩
    rw [Nat.mod_eq_of_lt lessIi, Nat.mod_eq_of_lt lessRow] at sameRow
    rw [Nat.mod_eq_of_lt lessJj, Nat.mod_eq_of_lt lessColumn] at sameColumn
    rw [Nat.mod_eq_of_lt lessMm, Nat.mod_eq_of_lt lessRank] at sameRank
    exact same ⟨sameRow.symm, sameColumn.symm, sameRank.symm⟩

theorem dGet_cell (fewer : detector.recordCount < detector.historyBufferSize)
    (less : jj < detector.historyBufferSize) : detector.dGet ii jj mm = detector.cell ii jj mm := by
  rw [dGet_eq, if_pos ⟨by omega, less, by omega⟩]

/-- What a column is filled from. -/
structure Ready (sequence : Nat → Nat) (start : PeriodicityDetector) (mm : Nat) : Prop where
  above : ∀ row ≤ mm, start.cell row (start.recordCount - 1 - mm) mm =
    editDistance sequence mm row (start.recordCount - 1 - mm)
  border : start.cell 0 (start.recordCount - mm) mm = start.recordCount - mm

/-- The inner loop has come to a row. -/
structure Column (sequence : Nat → Nat) (start : PeriodicityDetector) (mm ii : Nat)
    (detector : PeriodicityDetector) : Prop where
  alike : start.Alike detector
  cells : ∀ row column rank, row < start.historyBufferSize → column < start.historyBufferSize →
    rank < start.historyBufferSize → detector.cell row column rank =
      if (1 ≤ row ∧ row < ii) ∧ column = start.recordCount - mm ∧ rank = mm then
        editDistance sequence mm row column
      else start.cell row column rank

/-- The penalty that is computed for an entry is the value of the recursion. -/
theorem Column.penalty (follows : start.Follows sequence) (ready : start.Ready sequence mm)
    (fewer : start.recordCount < start.historyBufferSize) (less : mm < start.recordCount)
    (some_left : 1 ≤ ii) (inside : ii ≤ mm) (filling : Column sequence start mm ii detector) {term : Nat}
    (termEq : term = if start.recordCount - (ii - 1) ≤ start.historyBufferSize ∧
      sequence (ii - 1) = sequence (start.recordCount - 1) then 0 else 2) :
    detector.penalty term mm ii = editDistance sequence mm ii (start.recordCount - mm) := by
  obtain ⟨_, sameSize, sameCount⟩ := filling.alike
  have small := follows.small
  have left : detector.dGet (ii - 1) (start.recordCount - mm) mm =
      editDistance sequence mm (ii - 1) (start.recordCount - mm) := by
    rw [dGet_cell (by omega) (by omega), filling.cells _ _ _ (by omega) (by omega) (by omega)]
    split
    case isTrue => rfl
    case isFalse first =>
        have zero : ii - 1 = 0 := by omega
        rw [zero, ready.border, editDistance_border]
  have above (row : Nat) (below : row ≤ mm) : detector.dGet row (start.recordCount - mm - 1) mm =
      editDistance sequence mm row (start.recordCount - mm - 1) := by
    rw [dGet_cell (by omega) (by omega), filling.cells _ _ _ (by omega) (by omega) (by omega),
      if_neg (by omega), Nat.sub_right_comm]
    exact ready.above row below
  have leftLe : editDistance sequence mm (ii - 1) (start.recordCount - mm) ≤ start.recordCount - mm :=
    editDistance_le
  have aboveLe (row : Nat) : editDistance sequence mm row (start.recordCount - mm - 1) ≤
      start.recordCount - mm - 1 := editDistance_le
  have termSmall : term ≤ 2 := by
    rw [termEq]
    split <;> omega
  have upper := aboveLe ii
  have corner := aboveLe (ii - 1)
  rw [PeriodicityDetector.penalty, sameCount, left, above ii inside, above (ii - 1) (by omega),
    Nat.mod_eq_of_lt (by omega), Nat.mod_eq_of_lt (by omega), Nat.mod_eq_of_lt (by omega)]
  obtain ⟨before, rfl⟩ : ∃ before, ii = before + 1 := ⟨ii - 1, by omega⟩
  obtain ⟨length, length_eq⟩ : ∃ length, start.recordCount - mm = length + 1 :=
    ⟨start.recordCount - mm - 1, by omega⟩
  have last : start.recordCount - 1 = mm + length := by omega
  have known : start.recordCount - before ≤ start.historyBufferSize := by omega
  rw [length_eq, Nat.add_sub_cancel, Nat.add_sub_cancel, editDistance, termEq, last]
  simp only [Nat.add_sub_cancel, known, true_and]

theorem Column.step (follows : start.Follows sequence) (ready : start.Ready sequence mm)
    (fewer : start.recordCount < start.historyBufferSize) (less : mm < start.recordCount)
    (some_left : 1 ≤ ii) (inside : ii ≤ mm) (filling : Column sequence start mm ii detector) :
    ∃ next, penalize (sequence (start.recordCount - 1)) mm detector ii = .ok next ∧
      Column sequence start mm (ii + 1) next := by
  have alike := filling.alike
  have size := alike.historyBufferSize
  have term := (follows.alike alike).term some_left (by rw [alike.recordCount]; omega)
  rw [alike.recordCount, size] at term
  rw [penalize_eq term, alike.recordCount, filling.penalty follows ready fewer less some_left inside rfl]
  refine ⟨_, rfl, alike.dSet _ _ _ _, fun row column rank lessRow lessColumn lessRank => ?_⟩
  rw [cell_dSet (by omega) (by omega) (by omega) (by omega) (by omega) (by omega),
    filling.cells row column rank lessRow lessColumn lessRank]
  by_cases here : row = ii ∧ column = start.recordCount - mm ∧ rank = mm
  · obtain ⟨rfl, rfl, rfl⟩ := here
    rw [if_pos ⟨rfl, rfl, rfl⟩, if_pos ⟨by omega, rfl, rfl⟩]
  · rw [if_neg here]
    apply if_congr _ rfl rfl
    omega

theorem column_filled (follows : start.Follows sequence) (ready : start.Ready sequence mm)
    (fewer : start.recordCount < start.historyBufferSize) (less : mm < start.recordCount)
    (some_left : 1 ≤ mm) :
    ∃ next, (between 1 (mm + 1)).foldlM (penalize (sequence (start.recordCount - 1)) mm) start = .ok next ∧
      Column sequence start mm (mm + 1) next := by
  have initial : Column sequence start mm 1 start := by
    refine ⟨⟨rfl, rfl, rfl⟩, fun row column rank _ _ _ => ?_⟩
    rw [if_neg (by omega)]
  have steps (ii : Nat) (detector : PeriodicityDetector) (after : 1 ≤ ii)
      (before : ii < 1 + (mm + 1 - 1)) (filling : Column sequence start mm ii detector) :=
    filling.step follows ready fewer less after (by omega)
  obtain ⟨next, done, filling⟩ := Transition.ok_range' steps initial
  rw [show 1 + (mm + 1 - 1) = mm + 1 by omega] at filling
  exact ⟨next, done, filling⟩

/-- The outer loop has come to a column. -/
structure Columns (sequence : Nat → Nat) (start : PeriodicityDetector) (mm : Nat)
    (detector : PeriodicityDetector) : Prop where
  alike : start.Alike detector
  cells : ∀ row column rank, row < start.historyBufferSize → column < start.historyBufferSize →
    rank < start.historyBufferSize → detector.cell row column rank =
      if (1 ≤ row ∧ row ≤ rank) ∧ column = start.recordCount - rank ∧ rank < mm then
        editDistance sequence rank row column
      else start.cell row column rank

theorem Columns.step (follows : start.Follows sequence)
    (ready : ∀ rank, 1 ≤ rank → rank < start.recordCount → start.Ready sequence rank)
    (fewer : start.recordCount < start.historyBufferSize) (some_left : 1 ≤ mm)
    (less : mm < start.recordCount) (filling : Columns sequence start mm detector) :
    ∃ next, (between 1 (mm + 1)).foldlM (penalize (sequence (start.recordCount - 1)) mm) detector = .ok next ∧
      Columns sequence start (mm + 1) next := by
  have alike := filling.alike
  have size := alike.historyBufferSize
  have counted := alike.recordCount
  have before := ready mm some_left less
  have untouched (row column : Nat) (inside : row ≤ mm) (short : column < start.historyBufferSize) :
      detector.cell row column mm = start.cell row column mm := by
    rw [filling.cells row column mm (by omega) short (by omega), if_neg (by omega)]
  have readyNow : detector.Ready sequence mm := by
    constructor
    · intro row inside
      rw [counted, untouched row _ inside (by omega)]
      exact before.above row inside
    · rw [counted, untouched 0 _ (by omega) (by omega)]
      exact before.border
  obtain ⟨next, done, column⟩ := column_filled (follows.alike alike) readyNow (by omega) (by omega) some_left
  rw [counted] at done
  refine ⟨next, done, ?_, fun row column' rank lessRow lessColumn lessRank => ?_⟩
  · obtain ⟨history, sameSize, sameCount⟩ := column.alike
    exact ⟨history.trans alike.historyBuffer, sameSize.trans size, sameCount.trans counted⟩
  · rw [column.cells row column' rank (by omega) (by omega) (by omega), counted,
      filling.cells row column' rank lessRow lessColumn lessRank]
    by_cases here : rank = mm
    · subst here
      by_cases inside : (1 ≤ row ∧ row < rank + 1) ∧ column' = start.recordCount - rank ∧ rank = rank
      · rw [if_pos inside, if_pos ⟨by omega, inside.2.1, by omega⟩]
      · rw [if_neg inside, if_neg (by omega), if_neg (by omega)]
    · rw [if_neg (by omega)]
      apply if_congr _ rfl rfl
      omega

theorem columns_filled (follows : start.Follows sequence) (several : 2 ≤ start.recordCount)
    (ready : ∀ rank, 1 ≤ rank → rank < start.recordCount → start.Ready sequence rank)
    (fewer : start.recordCount < start.historyBufferSize) :
    ∃ next, start.fill (sequence (start.recordCount - 1)) = .ok next ∧
      Columns sequence start start.recordCount next := by
  have initial : Columns sequence start 1 start := by
    refine ⟨⟨rfl, rfl, rfl⟩, fun row column rank _ _ _ => ?_⟩
    rw [if_neg (by omega)]
  have steps (mm : Nat) (detector : PeriodicityDetector) (after : 1 ≤ mm)
      (before : mm < 1 + (start.recordCount - 1)) (filling : Columns sequence start mm detector) :=
    filling.step follows ready fewer after (by omega)
  obtain ⟨next, done, filling⟩ := Transition.ok_range' steps initial
  rw [show 1 + (start.recordCount - 1) = start.recordCount by omega] at filling
  refine ⟨next, ?_, filling⟩
  have first : max 1 (start.recordCount - start.historyBufferSize) = 1 := by omega
  rw [fill, first]
  exact done

/-- The current columns hold the values of the recursion. -/
def Held (sequence : Nat → Nat) (count : Nat) (detector : PeriodicityDetector) : Prop :=
  ∀ mm, 1 ≤ mm → mm < count → ∀ ii ≤ mm,
    detector.cell ii (count - mm) mm = editDistance sequence mm ii (count - mm)

theorem ready_setBorders (room : 2 ≤ detector.historyBufferSize)
    (held : detector.Held sequence (detector.recordCount - 1))
    (fewer : detector.recordCount < detector.historyBufferSize) (some_left : 1 ≤ rank)
    (less : rank < detector.recordCount) : detector.setBorders.Ready sequence rank := by
  obtain ⟨_, sameSize, sameCount⟩ := Alike.setBorders detector
  constructor
  · intro row inside
    rw [sameCount]
    by_cases last : rank + 1 = detector.recordCount
    · have first : detector.recordCount - 1 - rank = 0 := by omega
      rw [first, cell_setBorders_last last inside (by omega) (by omega), editDistance_zero]
    · rw [cell_setBorders_earlier room (by omega) (by omega)]
      exact held rank some_left (by omega) row inside
  · rw [sameCount]
    exact cell_setBorders_border less fewer

/-- What `fill` leaves after the borders were set. -/
theorem held_filled (follows : detector.Follows sequence) (several : 2 ≤ detector.recordCount)
    (fewer : detector.recordCount < detector.historyBufferSize)
    (held : detector.Held sequence (detector.recordCount - 1)) :
    ∃ filled, detector.setBorders.fill (sequence (detector.recordCount - 1)) = .ok filled ∧
      detector.Alike filled ∧ filled.Held sequence detector.recordCount := by
  have bordered := Alike.setBorders detector
  have counted := bordered.recordCount
  have size := bordered.historyBufferSize
  have ready (rank : Nat) (some_left : 1 ≤ rank) (less : rank < detector.setBorders.recordCount) :
      detector.setBorders.Ready sequence rank :=
    ready_setBorders follows.some_left held fewer some_left (by omega)
  obtain ⟨filled, done, filling⟩ :=
    columns_filled (follows.alike bordered) (by omega) ready (by omega)
  rw [counted] at done
  obtain ⟨history, sameSize, sameCount⟩ := filling.alike
  refine ⟨filled, done, ⟨history.trans bordered.historyBuffer, sameSize.trans size,
    sameCount.trans counted⟩, fun mm some_left less ii inside => ?_⟩
  rw [filling.cells ii _ mm (by omega) (by omega) (by omega)]
  split
  case isTrue => rfl
  case isFalse outside =>
      have zero : ii = 0 := by omega
      rw [zero, cell_setBorders_border less fewer, editDistance_border]

end Loops

section Run

variable {filled final : PeriodicityDetector} {records : List Record} {record : Record}

/-- What holds after a number of records that the table has room for. -/
structure Recalls (sequence : Nat → Nat) (count : Nat) (detector : PeriodicityDetector) : Prop where
  follows : detector.Follows sequence
  recordCount : detector.recordCount = count
  held : detector.Held sequence count

theorem Tracks.recalls (tracks : detector.Tracks sequence 0) : detector.Recalls sequence 0 :=
  ⟨tracks.follows, tracks.recordCount, fun _ _ none_left => absurd none_left (Nat.not_lt_zero _)⟩

/-- An entry of a region is one more record of the sequence. -/
theorem Recalls.update (recalls : detector.Recalls sequence count)
    (fewer : count + 1 < detector.historyBufferSize) (entry : record.event = .regionEntry)
    (signal : record.signal = sequence count) :
    ∃ next, detector.update record = .ok next ∧
      next.historyBufferSize = detector.historyBufferSize ∧ next.Recalls sequence (count + 1) ∧
      (1 ≤ count → ∃ filled, next.Alike filled ∧ filled.Held sequence (count + 1) ∧
        Reports filled next) := by
  obtain ⟨follows, rfl, held⟩ := recalls
  obtain ⟨historyBuffer, followsNext, updated⟩ := update_inserted follows entry signal
  rw [updated]
  by_cases several : 1 ≤ detector.recordCount
  · obtain ⟨filled, done, whole, current⟩ :=
      held_filled followsNext (Nat.succ_le_succ several) fewer held
    obtain ⟨period, calculated, reports⟩ :=
      calcPeriod_of_fill followsNext (Nat.succ_le_succ several) done whole
    refine ⟨_, calculated, whole.historyBufferSize, ⟨?_, whole.recordCount, current⟩,
      fun _ => ⟨filled, ⟨rfl, rfl, rfl⟩, current, reports⟩⟩
    exact followsNext.alike ⟨whole.historyBuffer, whole.historyBufferSize, whole.recordCount⟩
  · have first : calcPeriod { detector with historyBuffer, recordCount := detector.recordCount + 1 } =
        .ok { detector with historyBuffer, recordCount := detector.recordCount + 1 } := by
      rw [calcPeriod, if_pos (by simp only; omega)]
    refine ⟨_, first, rfl, ⟨followsNext, rfl, fun mm some_left less => ?_⟩,
      fun few => absurd few several⟩
    omega

/-- The entries among records. -/
def entries (records : List Record) : List Record := records.filter (·.event = .regionEntry)

theorem First.congr {value other : Nat → Nat} {first stop : Nat} {found : Nat × Nat}
    (least : First value first stop found)
    (same : ∀ index, first ≤ index → index < stop → value index = other index) :
    First other first stop found where
  after := least.after
  before := least.before
  same := least.same.trans (same _ least.after least.before)
  least index low high := same index low high ▸ least.least index low high
  first index low high :=
    same index low (Nat.lt_trans high least.before) ▸ least.first index low high

/-- The best value is the least value of the recursion, at the first split that has it. -/
theorem Held.best (held : filled.Held sequence filled.recordCount) (several : 2 ≤ filled.recordCount)
    (fewer : filled.recordCount < filled.historyBufferSize) :
    First (fun mm => editDistance sequence mm mm (filled.recordCount - mm))
      ((filled.recordCount + 1) / 2) filled.recordCount filled.best := by
  have found := best_first (by omega : 0 < filled.historyBufferSize) several
  have start : filled.searchStart = (filled.recordCount + 1) / 2 := by
    rw [searchStart]
    omega
  rw [start] at found
  refine found.congr fun mm low high => ?_
  rw [dGet_cell fewer (by omega)]
  exact held mm (by omega) high mm (Nat.le_refl mm)

/-- The length of the groups that a part of the history consists of, its own length where
it has no smaller ones. -/
def smallestPattern (recs : List Nat) : Nat :=
  ((between 1 (recs.length / 2 + 1)).find? fun div => Repeats recs div).getD recs.length

/-- The period is taken from the records behind the best split. -/
theorem Reports.smallestPattern (reports : Reports filled next) (follows : filled.Follows sequence)
    (fewer : filled.recordCount < filled.historyBufferSize) (less : filled.best.1 < filled.recordCount) :
    next.period = PeriodicityDetector.smallestPattern
      (((List.range filled.recordCount).map sequence).drop filled.best.1) := by
  obtain ⟨period, found, reported⟩ := reports.period
  have size := follows.size
  have whole : filled.historyBuffer.size = filled.recordCount := by omega
  have start : ((filled.historyBuffer.size : Int) -
      (filled.recordCount - filled.best.1 : Nat)) = filled.best.1 := by omega
  have made : filled.historyBuffer.makeVector
      (filled.historyBuffer.size - (filled.recordCount - filled.best.1)) filled.historyBuffer.size =
        .ok (slice sequence (filled.recordCount - (filled.recordCount - filled.best.1))
          (filled.recordCount - filled.best.1)) := follows.makeVector (by omega) (by omega)
  have from_best : filled.recordCount - (filled.recordCount - filled.best.1) = filled.best.1 := by omega
  have recs : slice sequence filled.best.1 (filled.recordCount - filled.best.1) =
      ((List.range filled.recordCount).map sequence).drop filled.best.1 := by
    rw [slice, ← List.map_drop, List.range_eq_range', List.drop_range', Nat.zero_add, Nat.mul_one]
  rw [whole, from_best, recs] at made
  rw [start, findSmallestRepeatingPattern, if_neg (by omega), if_neg (by omega), Int.toNat_natCast,
    whole, made] at found
  rw [reported]
  exact congrArg Nat.cast (Except.ok.inj found).symm

/-- The entries of a history, from the first one on. -/
def recorded (records : List Record) (index : Nat) : Nat :=
  ((entries records).map Record.signal).getD index 0

end Run

end PeriodicityDetector

end Geopm
