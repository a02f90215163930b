import Geopm.Record
import Geopm.EpochFilter.CircularBuffer
import Geopm.Library.Run
import Mathlib.Logic.Function.Basic

namespace Geopm

/-! `EditDistPeriodicityDetector`: the period of the regions that are entered, by
edit distances between parts of their history. -/

inductive FilterError where
  /-- "ProxyEpochRecordFilter(): Parameter region_hash is out of range" -/
  | regionHashOutOfRange
  /-- "ProxyEpochRecordFilter(): Parameter calls_per_epoch must be greater than zero" -/
  | callsPerEpochNotPositive
  /-- "ProxyEpochRecordFilter(): Parameter startup_count must be greater than or equal
  to zero" -/
  | startupCountNegative
  /-- `std::length_error` of a vector -/
  | lengthError
  /-- No exception of the source: the size of the table exceeds an `int`. -/
  | sizeOverflow
deriving Repr, DecidableEq

/-- The conversion of a `uint32_t` to an `int`. -/
def toInt (value : Nat) : Int := if value < 2 ^ 31 then value else value - 2 ^ 32

structure PeriodicityDetector where
  historyBuffer : CircularBuffer Nat
  historyBufferSize : Nat
  period : Int
  score : Int
  recordCount : Nat
  DP : Nat → Nat

namespace PeriodicityDetector

/-- The constructor. -/
def new (historyBufferSize : Int) : Except FilterError PeriodicityDetector :=
  if historyBufferSize ^ 3 < -2 ^ 31 ∨ 2 ^ 31 ≤ historyBufferSize ^ 3 then .error .sizeOverflow
  else if historyBufferSize < 0 then .error .lengthError
  else .ok {
    historyBuffer := .new historyBufferSize.toNat
    historyBufferSize := historyBufferSize.toNat
    period := -1
    score := -1
    recordCount := 0
    DP := fun _ => 0 }

/-- `Didx`. -/
def dIdx (detector : PeriodicityDetector) (ii jj mm : Nat) : Nat :=
  ii % detector.historyBufferSize * detector.historyBufferSize * detector.historyBufferSize +
    jj % detector.historyBufferSize * detector.historyBufferSize + mm % detector.historyBufferSize

/-- `Dset`. -/
def dSet (ii jj mm val : Nat) (detector : PeriodicityDetector) : PeriodicityDetector :=
  { detector with DP := Function.update detector.DP (detector.dIdx ii jj mm) val }

/-- `Dget`. The default is large, but a small value can be added to it. -/
def dGet (detector : PeriodicityDetector) (ii jj mm : Nat) : Nat :=
  if (detector.recordCount : Int) - ii < detector.historyBufferSize ∧
      jj < detector.historyBufferSize ∧
      (detector.recordCount : Int) - mm < detector.historyBufferSize then
    detector.DP (detector.dIdx ii jj mm)
  else (2 ^ 32 - 1) / 2

/-- The indices from one up to and without another. -/
def between (start stop : Nat) : List Nat := List.range' start (stop - start)

/-- The penalty of replacing a record by the last one. A record that is not in the
buffer any more does not match. -/
def term (detector : PeriodicityDetector) (lastRec ii : Nat) : Except BufferError Nat :=
  let entryAge := detector.recordCount - (ii - 1)
  if entryAge ≤ detector.historyBuffer.size then
    (detector.historyBuffer.value (detector.historyBuffer.size - entryAge)).map
      fun comparedRec => if comparedRec = lastRec then 0 else 2
  else .ok 2

/-- The innermost body of the loops of `calc_period`. -/
def penalize (lastRec mm : Nat) (detector : PeriodicityDetector) (ii : Nat) :
    Except BufferError PeriodicityDetector :=
  (detector.term lastRec ii).map fun term =>
    let count := detector.recordCount
    let dValue := min (min ((detector.dGet (ii - 1) (count - mm) mm + 1) % 2 ^ 32)
      ((detector.dGet ii (count - mm - 1) mm + 1) % 2 ^ 32))
      ((detector.dGet (ii - 1) (count - mm - 1) mm + term) % 2 ^ 32)
    detector.dSet ii (count - mm) mm dValue

/-- The two loops that fill the table. -/
def fill (lastRec : Nat) (detector : PeriodicityDetector) :
    Except BufferError PeriodicityDetector :=
  let first := max 1 (detector.recordCount - detector.historyBufferSize)
  (between first detector.recordCount).foldlM
    (fun detector mm => (between first (mm + 1)).foldlM (penalize lastRec mm) detector) detector

/-- The assignments to the borders of the table. -/
def setBorders (detector : PeriodicityDetector) : PeriodicityDetector :=
  let count := detector.recordCount
  let indices := between (count - detector.historyBufferSize) count
  let detector := indices.foldl (fun detector ii => detector.dSet ii 0 (count - 1) 0) detector
  indices.foldl (fun detector mm => detector.dSet 0 (count - mm) mm (count - mm)) detector

/-- The body of the loop that finds the best value: the first of equal ones is kept. -/
def better (detector : PeriodicityDetector) (found : Nat × Nat) (mm : Nat) : Nat × Nat :=
  let val := detector.dGet mm (detector.recordCount - mm) mm
  if val < found.2 then (mm, val) else found

/-- The index of the best value and the value. -/
def best (detector : PeriodicityDetector) : Nat × Nat :=
  let count := detector.recordCount
  let mm := max ((count + 1) / 2) (count - detector.historyBufferSize)
  (between (mm + 1) count).foldl detector.better (mm, detector.dGet mm (count - mm) mm)

/-- Groups of the given length are all equal. -/
def Repeats (recs : List Nat) (div : Nat) : Prop :=
  recs.length % div = 0 ∧ ∀ group ∈ between 1 (recs.length / div),
    (recs.drop (div * (group - 1))).take div = (recs.drop (div * group)).take div

instance (recs : List Nat) (div : Nat) : Decidable (Repeats recs div) :=
  inferInstanceAs (Decidable (_ ∧ _))

/-- `find_smallest_repeating_pattern`. -/
def findSmallestRepeatingPattern (detector : PeriodicityDetector) (sliceStart : Int) :
    Except BufferError Nat :=
  if detector.historyBuffer.size = sliceStart then .ok 1
  -- as an unsigned number it is behind the end
  else if sliceStart < 0 then .error .startOutOfBounds
  else
    (detector.historyBuffer.makeVector sliceStart.toNat detector.historyBuffer.size).map fun recs =>
      ((between 1 (recs.length / 2 + 1)).find? fun div => Repeats recs div).getD recs.length

/-- `calc_period`. -/
def calcPeriod (detector : PeriodicityDetector) : Except BufferError PeriodicityDetector :=
  if detector.recordCount < 2 then .ok detector
  else do
    let detector := detector.setBorders
    let lastRec ← detector.historyBuffer.value (detector.historyBuffer.size - 1)
    let detector ← detector.fill lastRec
    let (bestM, bestVal) := detector.best
    let period ← detector.findSmallestRepeatingPattern
      (detector.historyBuffer.size - (detector.recordCount - bestM : Nat))
    pure { detector with score := toInt bestVal, period }

/-- `update`. -/
def update (detector : PeriodicityDetector) (record : Record) :
    Except BufferError PeriodicityDetector :=
  if record.event = .regionEntry then do
    let historyBuffer ← detector.historyBuffer.insert record.signal
    calcPeriod { detector with historyBuffer, recordCount := detector.recordCount + 1 }
  else .ok detector

/-- A detector with a history, which holds the last records. -/
structure Sound (detector : PeriodicityDetector) : Prop where
  positive : 0 < detector.historyBufferSize
  maxSize : detector.historyBuffer.maxSize = detector.historyBufferSize
  size : detector.historyBuffer.size = min detector.recordCount detector.historyBufferSize

/-- Another detector with the same history. -/
structure Alike (detector other : PeriodicityDetector) : Prop where
  historyBuffer : other.historyBuffer = detector.historyBuffer
  historyBufferSize : other.historyBufferSize = detector.historyBufferSize
  recordCount : other.recordCount = detector.recordCount

variable {detector other next : PeriodicityDetector} {record : Record} {lastRec mm ii : Nat}

theorem Alike.sound (alike : detector.Alike other) (sound : detector.Sound) : other.Sound := by
  obtain ⟨historyBuffer, historyBufferSize, recordCount⟩ := alike
  refine ⟨historyBufferSize ▸ sound.positive, ?_, ?_⟩
  · rw [historyBuffer, historyBufferSize, sound.maxSize]
  · rw [historyBuffer, historyBufferSize, recordCount, sound.size]

theorem Alike.dSet (alike : detector.Alike other) (ii jj mm val : Nat) :
    detector.Alike (other.dSet ii jj mm val) :=
  ⟨alike.historyBuffer, alike.historyBufferSize, alike.recordCount⟩

theorem Alike.setBorders (detector : PeriodicityDetector) : detector.Alike detector.setBorders := by
  have loop : ∀ (indices : List Nat) (entry : Nat → Nat × Nat × Nat × Nat)
      (start : PeriodicityDetector), detector.Alike start → detector.Alike (indices.foldl
        (fun detector index => detector.dSet (entry index).1 (entry index).2.1 (entry index).2.2.1
          (entry index).2.2.2) start) := by
    intro indices entry
    induction indices with
    | nil => exact fun _ alike => alike
    | cons index rest ih => exact fun start alike => ih _ (alike.dSet _ _ _ _)
  exact loop _ (fun mm => (0, detector.recordCount - mm, mm, detector.recordCount - mm)) _
    (loop _ (fun ii => (ii, 0, detector.recordCount - 1, 0)) _ ⟨rfl, rfl, rfl⟩)

/-- Only records in the buffer are compared. -/
theorem term_ok (inside : ii < detector.recordCount) :
    ∃ term, detector.term lastRec ii = .ok term := by
  rw [term]
  by_cases known : detector.recordCount - (ii - 1) ≤ detector.historyBuffer.size
  · obtain ⟨comparedRec, found⟩ := @CircularBuffer.value_ok _ detector.historyBuffer
      (detector.historyBuffer.size - (detector.recordCount - (ii - 1))) (by omega)
    simp only [if_pos known, found]
    exact ⟨_, rfl⟩
  · exact ⟨2, if_neg known⟩

theorem mem_between {index start stop : Nat} :
    index ∈ between start stop ↔ start ≤ index ∧ index < stop := by
  rw [between, List.mem_range'_1]
  omega

/-- Filling the table throws no exception and changes the table only. -/
theorem fill_ok (detector : PeriodicityDetector) (lastRec : Nat) :
    ∃ next, detector.fill lastRec = .ok next ∧ detector.Alike next := by
  apply Transition.ok_foldlM
  · intro outer mm inside alike
    apply Transition.ok_foldlM
    · intro inner ii before alike
      rw [mem_between] at inside before
      have count := alike.recordCount
      obtain ⟨term, found⟩ := @term_ok inner lastRec ii (by omega)
      rw [penalize, found]
      exact ⟨_, rfl, alike.dSet _ _ _ _⟩
    · exact alike
  · exact ⟨rfl, rfl, rfl⟩

/-- The index of a record that is in the buffer. -/
def Recorded (detector : PeriodicityDetector) (mm : Nat) : Prop :=
  detector.recordCount - detector.historyBuffer.size ≤ mm ∧ mm < detector.recordCount

theorem Recorded.foldl_better {indices : List Nat} {found : Nat × Nat}
    (inside : ∀ mm ∈ indices, detector.Recorded mm) (start : detector.Recorded found.1) :
    detector.Recorded (indices.foldl detector.better found).1 := by
  induction indices generalizing found with
  | nil => exact start
  | cons mm rest ih =>
      refine ih (fun other member => inside other (by simp [member])) ?_
      simp only [better]
      split
      · exact inside mm (by simp)
      · exact start

/-- So is the best one, and the part of the history from it on starts in the buffer. -/
theorem best_recorded (several : 2 ≤ detector.recordCount) (sound : detector.Sound) :
    detector.Recorded detector.best.1 := by
  have positive := sound.positive
  have size := sound.size
  apply Recorded.foldl_better
  · intro mm member
    rw [mem_between] at member
    exact ⟨by omega, member.2⟩
  · exact ⟨by simp only; omega, by simp only; omega⟩

theorem findSmallestRepeatingPattern_ok {sliceStart : Int} (positive : 0 ≤ sliceStart)
    (inside : sliceStart ≤ detector.historyBuffer.size) :
    ∃ period, detector.findSmallestRepeatingPattern sliceStart = .ok period := by
  rw [findSmallestRepeatingPattern]
  by_cases last : (detector.historyBuffer.size : Int) = sliceStart
  · exact ⟨1, if_pos last⟩
  · obtain ⟨recs, made⟩ := @CircularBuffer.makeVector_ok _ detector.historyBuffer sliceStart.toNat
      (by omega)
    rw [if_neg last, if_neg (by omega), made]
    exact ⟨_, rfl⟩

theorem calcPeriod_ok (sound : detector.Sound) :
    ∃ next, detector.calcPeriod = .ok next ∧ detector.Alike next := by
  rw [calcPeriod]
  by_cases few : detector.recordCount < 2
  · exact ⟨detector, if_pos few, rfl, rfl, rfl⟩
  · have bordered := Alike.setBorders detector
    have size := sound.size
    have positive := sound.positive
    obtain ⟨lastRec, found⟩ := @CircularBuffer.value_ok _ detector.historyBuffer
      (detector.historyBuffer.size - 1) (by omega)
    obtain ⟨filled, done, alike⟩ := fill_ok detector.setBorders lastRec
    have whole : detector.Alike filled := ⟨alike.historyBuffer.trans bordered.historyBuffer,
      alike.historyBufferSize.trans bordered.historyBufferSize,
      alike.recordCount.trans bordered.recordCount⟩
    have several : 2 ≤ filled.recordCount := by rw [whole.recordCount]; omega
    obtain ⟨behind, before⟩ := best_recorded several (whole.sound sound)
    obtain ⟨period, repeats⟩ := @findSmallestRepeatingPattern_ok filled
      (filled.historyBuffer.size - (filled.recordCount - filled.best.1 : Nat)) (by omega) (by omega)
    rw [← bordered.historyBuffer] at found
    simp only [if_neg few, found, done, repeats, bind, Except.bind, pure, Except.pure]
    exact ⟨_, rfl, whole.historyBuffer, whole.historyBufferSize, whole.recordCount⟩

/-- A detector with a history accepts every record. -/
theorem update_ok (sound : detector.Sound) (record : Record) :
    ∃ next, detector.update record = .ok next ∧ next.Sound := by
  rw [update]
  by_cases entry : record.event = .regionEntry
  · obtain ⟨historyBuffer, inserted, maxSize, size⟩ := CircularBuffer.insert_ok
      (sound.maxSize ▸ sound.positive) record.signal
    have recorded : Sound { detector with historyBuffer, recordCount := detector.recordCount + 1 } := by
      refine ⟨sound.positive, maxSize.trans sound.maxSize, ?_⟩
      rw [size, sound.size, sound.maxSize]
      simp only
      omega
    obtain ⟨next, done, alike⟩ := calcPeriod_ok recorded
    refine ⟨next, ?_, alike.sound recorded⟩
    simp only [if_pos entry, inserted, bind, Except.bind, done]
  · exact ⟨detector, if_neg entry, sound⟩

theorem new_sound {historyBufferSize : Int} (created : new historyBufferSize = .ok detector)
    (positive : 0 < historyBufferSize) : detector.Sound := by
  rw [new] at created
  split at created
  · simp at created
  · split at created
    · simp at created
    · obtain rfl := Except.ok.inj created
      exact ⟨by simpa using positive, rfl, (Nat.zero_min _).symm⟩

theorem new_maxSize {historyBufferSize : Int} (created : new historyBufferSize = .ok detector) :
    detector.historyBuffer.maxSize = historyBufferSize.toNat := by
  rw [new] at created
  split at created
  · simp at created
  · split at created
    · simp at created
    · obtain rfl := Except.ok.inj created
      rfl

end PeriodicityDetector

end Geopm
