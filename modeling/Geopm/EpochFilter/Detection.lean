import Geopm.EpochFilter.DistanceTable
import Geopm.Library.Word

namespace Geopm

/-! A word that is repeated: the score is zero and the period is its length. -/

namespace PeriodicityDetector

open Geopm.Ring (Recent window length_window)

variable {detector next filled : PeriodicityDetector} {sequence : Nat → Nat} {count : Nat}

section Update

theorem Follows.sound (follows : detector.Follows sequence) : detector.Sound := by
  have room := follows.some_left
  exact ⟨by omega, follows.recent.1, follows.size⟩

/-- The score and the period that `calc_period` takes from a table. -/
structure Reports (filled next : PeriodicityDetector) : Prop where
  score : next.score = toInt filled.best.2
  period : ∃ period, filled.findSmallestRepeatingPattern
    (filled.historyBuffer.size - (filled.recordCount - filled.best.1 : Nat)) = .ok period ∧
      next.period = period

/-- After the table was filled the score and the period are set. -/
theorem calcPeriod_of_fill (follows : detector.Follows sequence) (several : 2 ≤ detector.recordCount)
    (done : detector.setBorders.fill (sequence (detector.recordCount - 1)) = .ok filled)
    (whole : detector.Alike filled) :
    ∃ period : Nat, detector.calcPeriod = .ok { filled with score := toInt filled.best.2, period } ∧
      Reports filled { filled with score := toInt filled.best.2, period } := by
  have bordered := Alike.setBorders detector
  have size := follows.size
  have room := follows.some_left
  have last : detector.setBorders.historyBuffer.value (detector.setBorders.historyBuffer.size - 1) =
      .ok (sequence (detector.setBorders.recordCount - 1)) := by
    have followsNow := follows.alike bordered
    apply followsNow.value Nat.one_pos
    rw [bordered.historyBuffer]
    omega
  rw [bordered.recordCount] at last
  have behind := best_recorded (by rw [whole.recordCount]; exact several) (follows.alike whole).sound
  rw [Recorded] at behind
  obtain ⟨period, repeats⟩ := @findSmallestRepeatingPattern_ok filled
    (filled.historyBuffer.size - (filled.recordCount - filled.best.1 : Nat)) (by omega) (by omega)
  refine ⟨period, ?_, rfl, period, repeats, rfl⟩
  rw [calcPeriod, if_neg (by omega)]
  simp only [last, done, repeats, bind, Except.bind, pure, Except.pure]

theorem calcPeriod_reports (follows : detector.Follows sequence) (several : 2 ≤ detector.recordCount)
    (tabled : detector.Tabled sequence (detector.recordCount - 1)) :
    ∃ filled next, detector.calcPeriod = .ok next ∧ detector.Alike filled ∧ detector.Alike next ∧
      filled.Tabled sequence filled.recordCount ∧ next.Tabled sequence next.recordCount ∧
      Reports filled next := by
  have bordered := Alike.setBorders detector
  obtain ⟨filled, done, filling⟩ := fill_all (follows.alike bordered)
    (by rw [bordered.recordCount]; exact several) (by
      intro rank some_left less near
      rw [bordered.recordCount] at less near
      rw [bordered.historyBufferSize] at near
      exact prepared_setBorders follows.some_left tabled some_left less near)
  rw [bordered.recordCount] at done
  obtain ⟨history, sameSize, sameCount⟩ := filling.alike
  have whole : detector.Alike filled := ⟨history.trans bordered.historyBuffer,
    sameSize.trans bordered.historyBufferSize, sameCount.trans bordered.recordCount⟩
  have full : filled.Tabled sequence filled.recordCount := by
    intro rank some_left less near row inside known
    rw [sameSize, sameCount] at near known
    rw [sameCount] at less
    rw [sameSize, sameCount]
    exact filling.filled rank less some_left near row inside known
  obtain ⟨period, calculated, reports⟩ := calcPeriod_of_fill follows several done whole
  exact ⟨filled, _, calculated, whole, ⟨whole.historyBuffer, whole.historyBufferSize, whole.recordCount⟩,
    full, full, reports⟩

/-- An entry of a region is put into the history. -/
theorem update_inserted (follows : detector.Follows sequence) {record : Record}
    (entry : record.event = .regionEntry) (signal : record.signal = sequence detector.recordCount) :
    ∃ historyBuffer,
      Follows sequence { detector with historyBuffer, recordCount := detector.recordCount + 1 } ∧
      detector.update record =
        calcPeriod { detector with historyBuffer, recordCount := detector.recordCount + 1 } := by
  have room := follows.some_left
  have space : 0 < detector.historyBuffer.maxSize := by
    rw [follows.recent.1]
    omega
  obtain ⟨historyBuffer, inserted, _⟩ := CircularBuffer.insert_ok space record.signal
  have recent := follows.recent.insert inserted
  have items : (List.range detector.recordCount).map sequence ++ [sequence detector.recordCount] =
      (List.range (detector.recordCount + 1)).map sequence := by
    rw [List.range_succ, List.map_append, List.map_singleton]
  rw [signal, items] at recent
  refine ⟨historyBuffer, ⟨follows.some_left, follows.small, recent⟩, ?_⟩
  rw [PeriodicityDetector.update, if_pos entry]
  simp only [inserted, bind, Except.bind]

/-- What holds after a number of records. -/
structure Tracks (sequence : Nat → Nat) (count : Nat) (detector : PeriodicityDetector) : Prop where
  follows : detector.Follows sequence
  recordCount : detector.recordCount = count
  tabled : detector.Tabled sequence count

/-- An entry of a region is one more record of the sequence. -/
theorem Tracks.update (tracks : detector.Tracks sequence count) {record : Record}
    (entry : record.event = .regionEntry) (signal : record.signal = sequence count) :
    ∃ next, detector.update record = .ok next ∧
      next.historyBufferSize = detector.historyBufferSize ∧ next.Tracks sequence (count + 1) ∧
      (1 ≤ count → ∃ filled, next.Alike filled ∧ filled.Tabled sequence (count + 1) ∧
        Reports filled next) := by
  obtain ⟨historyBuffer, followsNext, updated⟩ :=
    update_inserted tracks.follows entry (tracks.recordCount ▸ signal)
  rw [updated]
  by_cases several : 1 ≤ count
  case pos =>
      obtain ⟨filled, next, done, alikeFilled, alike, tabledFilled, tabled, reports⟩ :=
        calcPeriod_reports followsNext (by simp only [tracks.recordCount]; omega) (by
          simp only [tracks.recordCount, Nat.add_sub_cancel]
          exact tracks.tabled)
      have counted : next.recordCount = count + 1 := by rw [alike.recordCount, tracks.recordCount]
      have countedFilled : filled.recordCount = count + 1 := by
        rw [alikeFilled.recordCount, tracks.recordCount]
      rw [counted] at tabled
      rw [countedFilled] at tabledFilled
      refine ⟨next, done, alike.historyBufferSize, ⟨followsNext.alike alike, counted, tabled⟩,
        fun _ => ⟨filled, ?_, tabledFilled, reports⟩⟩
      exact ⟨alikeFilled.historyBuffer.trans alike.historyBuffer.symm,
        alikeFilled.historyBufferSize.trans alike.historyBufferSize.symm,
        alikeFilled.recordCount.trans alike.recordCount.symm⟩
  case neg =>
      have first : calcPeriod { detector with historyBuffer, recordCount := detector.recordCount + 1 } =
          .ok { detector with historyBuffer, recordCount := detector.recordCount + 1 } := by
        rw [calcPeriod, if_pos (by simp only [tracks.recordCount]; omega)]
      refine ⟨_, first, rfl, ⟨followsNext, by simp only [tracks.recordCount], ?_⟩, fun few => absurd few several⟩
      intro rank some_left less
      omega

end Update

section Best

/-- The first index of a range at which the value is least. -/
structure First (value : Nat → Nat) (start stop : Nat) (found : Nat × Nat) : Prop where
  after : start ≤ found.1
  before : found.1 < stop
  same : found.2 = value found.1
  least : ∀ index, start ≤ index → index < stop → found.2 ≤ value index
  first : ∀ index, start ≤ index → index < found.1 → found.2 < value index

theorem First.better {start stop : Nat} {found : Nat × Nat}
    (first : First (fun mm => detector.dGet mm (detector.recordCount - mm) mm) start stop found) :
    First (fun mm => detector.dGet mm (detector.recordCount - mm) mm) start (stop + 1)
      (detector.better found stop) := by
  have after := first.after
  have before := first.before
  rw [PeriodicityDetector.better]
  split
  case isTrue less =>
      refine ⟨by omega, Nat.lt_succ_self _, rfl, ?_, ?_⟩
      · intro index low high
        rcases Nat.lt_succ_iff_lt_or_eq.mp high with earlier | rfl
        · exact Nat.le_trans (Nat.le_of_lt less) (first.least index low earlier)
        · exact Nat.le_refl _
      · exact fun index low high => Nat.lt_of_lt_of_le less (first.least index low high)
  case isFalse more =>
      refine ⟨after, Nat.lt_succ_of_lt before, first.same, ?_, first.first⟩
      intro index low high
      rcases Nat.lt_succ_iff_lt_or_eq.mp high with earlier | rfl
      · exact first.least index low earlier
      · exact Nat.le_of_not_lt more

theorem First.foldl {start stop length : Nat} {found : Nat × Nat}
    (first : First (fun mm => detector.dGet mm (detector.recordCount - mm) mm) start stop found) :
    First (fun mm => detector.dGet mm (detector.recordCount - mm) mm) start (stop + length)
      ((List.range' stop length).foldl detector.better found) := by
  induction length generalizing stop found with
  | zero => exact first
  | succ length ih =>
      rw [List.range'_succ, List.foldl_cons, show stop + (length + 1) = stop + 1 + length by omega]
      exact ih first.better

/-- The least index at which the search starts. -/
def searchStart (detector : PeriodicityDetector) : Nat :=
  max ((detector.recordCount + 1) / 2) (detector.recordCount - detector.historyBufferSize)

theorem best_first (positive : 0 < detector.historyBufferSize) (several : 2 ≤ detector.recordCount) :
    First (fun mm => detector.dGet mm (detector.recordCount - mm) mm) detector.searchStart
      detector.recordCount detector.best := by
  have less : detector.searchStart < detector.recordCount := by
    rw [searchStart]
    omega
  have start : First (fun mm => detector.dGet mm (detector.recordCount - mm) mm) detector.searchStart
      (detector.searchStart + 1) (detector.searchStart, detector.dGet detector.searchStart
        (detector.recordCount - detector.searchStart) detector.searchStart) := by
    refine ⟨Nat.le_refl _, Nat.lt_succ_self _, rfl, ?_, ?_⟩
    · intro index low high
      obtain rfl : index = detector.searchStart := by omega
      exact Nat.le_refl _
    · exact fun index low high => absurd high (Nat.not_lt_of_le low)
  have whole := @First.foldl _ _ _ (detector.recordCount - (detector.searchStart + 1)) _ start
  rwa [show detector.searchStart + 1 + (detector.recordCount - (detector.searchStart + 1)) =
    detector.recordCount by omega] at whole

end Best

section Period

variable {length div start : Nat} {recs : List Nat}

/-- The slice of the history that is searched for a pattern. -/
def slice (sequence : Nat → Nat) (start length : Nat) : List Nat :=
  (List.range' start length).map sequence

theorem Follows.makeVector (follows : detector.Follows sequence) (some_left : 1 ≤ length)
    (inside : length ≤ detector.historyBuffer.size) :
    detector.historyBuffer.makeVector (detector.historyBuffer.size - length) detector.historyBuffer.size =
      .ok (slice sequence (detector.recordCount - length) length) := by
  have size := follows.size
  rw [CircularBuffer.makeVector, if_neg (by omega), if_neg (by omega), if_neg (by omega)]
  congr 1
  rw [follows.recent.2, window, List.drop_drop, List.length_map, List.length_range,
    show detector.recordCount - detector.historyBufferSize + (detector.historyBuffer.size - length) =
      detector.recordCount - length by omega,
    show detector.historyBuffer.size - (detector.historyBuffer.size - length) = length by omega,
    List.range_eq_range', ← List.map_drop, List.drop_range', slice, ← List.map_take,
    List.take_range'_of_length_le (by omega)]
  congr 2
  · omega
  · omega

end Period

section Words

variable {word : List Nat} {length div start : Nat}

end Words

end PeriodicityDetector

end Geopm
