import Geopm.EpochFilter.RingBuffer
import Geopm.Library.LeastSquares
import Geopm.Library.Number
import Geopm.Library.Run
import Mathlib.Data.List.Destutter

namespace Geopm

/-! `DerivativeSignal` and `DerivativeCombinedSignal`: the slope of the last samples. -/

namespace Derivative

/-- `m_sample_s`. -/
structure Sample where
  time : ℚ
  sample : ℚ
deriving Repr, DecidableEq, Inhabited

/-- The sums of the linear regression. -/
structure Sums where
  A : ℚ
  B : ℚ
  C : ℚ
  D : ℚ
deriving Repr, DecidableEq

namespace Sums

def zero : Sums := ⟨0, 0, 0, 0⟩

/-- One pass of the loop, with the origin at the first sample. -/
def add (first : Sample) (sums : Sums) (entry : Sample) : Sums :=
  let time := entry.time - first.time
  let sig := entry.sample - first.sample
  ⟨sums.A + time * sig, sums.B + time, sums.C + sig, sums.D + time * time⟩

def ssxx (numFit : Nat) (sums : Sums) : ℚ := sums.D - sums.B * sums.B * (1 / numFit)

def ssxy (numFit : Nat) (sums : Sums) : ℚ := sums.A - sums.B * sums.C * (1 / numFit)

/-- A division by zero, which is one of zero, has no value. -/
def slope (numFit : Nat) (sums : Sums) : Number :=
  if sums.ssxx numFit = 0 then .nan else .value (sums.ssxy numFit / sums.ssxx numFit)

end Sums

/-- `m_history` and `m_derivative_num_fit`. -/
structure History where
  ring : Ring Sample
  numFit : Nat

namespace History

/-- The constructor. -/
def new (numSampleHistory : Nat) : History := ⟨.new numSampleHistory, 0⟩

/-- One pass of the loop of the regression. -/
def addValue (history : History) (first : Sample) (sums : Sums) (bufOff : Nat) : Except BufferError Sums := do
  let entry ← history.ring.value bufOff
  .ok (sums.add first entry)

/-- The least squares linear regression over the samples that are held. -/
def regress (history : History) : Except BufferError Number :=
  if 2 ≤ history.numFit then do
    let bufSize := history.ring.size
    let first ← history.ring.value (bufSize - history.numFit)
    let sums ← (List.range' (bufSize - history.numFit) (bufSize - (bufSize - history.numFit))).foldlM
      (history.addValue first) Sums.zero
    .ok (sums.slope history.numFit)
  else .ok .nan

/-- `compute_next`, which is also what `DerivativeCombinedSignal::sample` does. -/
def computeNext (numSampleHistory : Nat) (history : History) (entry : Sample) :
    Except BufferError (Number × History) := do
  let ring ← history.ring.insert entry
  let next : History :=
    ⟨ring, if history.numFit < numSampleHistory then history.numFit + 1 else history.numFit⟩
  let result ← next.regress
  .ok (result, next)

end History

inductive SignalError where
  /-- "setup_batch() must be called before sample()." -/
  | notReady
  | buffer (reason : BufferError)
deriving Repr, DecidableEq

/-- `DerivativeSignal`. -/
structure Signal where
  history : History
  isBatchReady : Bool
  lastResult : Number

namespace Signal

/-- The constructor. -/
def new (numSampleHistory : Nat) : Signal := ⟨.new numSampleHistory, false, .nan⟩

/-- `setup_batch`. -/
def setupBatch (signal : Signal) : Signal := { signal with isBatchReady := true }

/-- The end of `sample` with a time that is new. -/
def renew (signal : Signal) (entry : Sample) : Except SignalError (Number × Signal) :=
  match signal.history.computeNext signal.history.ring.maxSize entry with
  | .error reason => .error (.buffer reason)
  | .ok (result, history) => .ok (result, { signal with history, lastResult := result })

/-- `sample`, with the time and the value that its signals have. -/
def sample (signal : Signal) (entry : Sample) : Except SignalError (Number × Signal) :=
  if !signal.isBatchReady then .error .notReady
  else if signal.history.ring.size = 0 then signal.renew entry
  else match signal.history.ring.value (signal.history.ring.size - 1) with
    | .error reason => .error (.buffer reason)
    | .ok last => if entry.time ≠ last.time then signal.renew entry else .ok (signal.lastResult, signal)

/-- A sequence of samples, and what is returned for the last. -/
def run (signal : Signal) (samples : List Sample) : Except SignalError (Number × Signal) :=
  samples.foldlM (fun reached entry => reached.2.sample entry) (.nan, signal)

end Signal

/-- `DerivativeCombinedSignal`. -/
structure CombinedSignal where
  history : History

namespace CombinedSignal

/-- `M_NUM_SAMPLE_HISTORY`. -/
def numSampleHistory : Nat := 8

/-- The constructor. -/
def new : CombinedSignal := ⟨.new numSampleHistory⟩

/-- `sample` of a time and a value. -/
def sample (signal : CombinedSignal) (entry : Sample) : Except BufferError (Number × CombinedSignal) := do
  let (result, history) ← signal.history.computeNext numSampleHistory entry
  .ok (result, ⟨history⟩)

/-- A sequence of samples, and what is returned for the last. -/
def run (signal : CombinedSignal) (samples : List Sample) : Except BufferError (Number × CombinedSignal) :=
  samples.foldlM (fun reached entry => reached.2.sample entry) (.nan, signal)

end CombinedSignal

/-- The samples but those at the time of the previous one. -/
def distinct (samples : List Sample) : List Sample := samples.destutter fun previous next => previous.time ≠ next.time

def points (samples : List Sample) : List (ℚ × ℚ) := samples.map fun entry => (entry.time, entry.sample)

/-- The sums over samples. -/
def sums (held : List Sample) : Sums := held.foldl (Sums.add (held.headD default)) .zero

/-- What is returned for the samples that are held. -/
def derivative (held : List Sample) : Number := if 2 ≤ held.length then (sums held).slope held.length else .nan

/-- Of two samples or more that are not all of one time, the result is the slope of least squares, which is computed
without a division by zero. -/
structure Fits (held : List Sample) (result : Number) : Prop where
  divides : (∃ first ∈ held, ∃ second ∈ held, first.time ≠ second.time) → (sums held).ssxx held.length ≠ 0
  least : (∃ first ∈ held, ∃ second ∈ held, first.time ≠ second.time) →
    ∃ slope, result = .value slope ∧ ∀ other, LeastSquares.IsSlope (points held) other ↔ other = slope
  line : (∃ first ∈ held, ∃ second ∈ held, first.time ≠ second.time) →
    ∀ slope intercept, (∀ entry ∈ held, entry.sample = intercept + slope * entry.time) → result = .value slope

variable {held samples items : List Sample} {entry first : Sample} {window : Nat} {history : History}

/-- The sums are those of the points as seen from the first sample. -/
theorem foldl_add (start : Sums) : held.foldl (Sums.add first) start =
    ⟨start.A + LeastSquares.total (fun point => point.1 * point.2) (LeastSquares.shift (first.time, first.sample) (points held)),
      start.B + LeastSquares.total Prod.fst (LeastSquares.shift (first.time, first.sample) (points held)),
      start.C + LeastSquares.total Prod.snd (LeastSquares.shift (first.time, first.sample) (points held)),
      start.D + LeastSquares.total (fun point => point.1 * point.1)
        (LeastSquares.shift (first.time, first.sample) (points held))⟩ := by
  induction held generalizing start with
  | nil => simp [points, LeastSquares.shift]
  | cons entry rest ih =>
      rw [List.foldl_cons, ih]
      simp only [points, LeastSquares.shift, List.map_cons, LeastSquares.total_cons, Sums.add, add_assoc]

theorem ssxx_sums : (sums held).ssxx held.length =
    LeastSquares.sxx (LeastSquares.shift ((held.headD default).time, (held.headD default).sample) (points held)) := by
  rw [sums, foldl_add, Sums.ssxx, LeastSquares.sxx]
  simp only [Sums.zero, zero_add, mul_one_div, LeastSquares.shift, points, List.length_map]

theorem ssxy_sums : (sums held).ssxy held.length =
    LeastSquares.sxy (LeastSquares.shift ((held.headD default).time, (held.headD default).sample) (points held)) := by
  rw [sums, foldl_add, Sums.ssxy, LeastSquares.sxy]
  simp only [Sums.zero, zero_add, mul_one_div, LeastSquares.shift, points, List.length_map]

theorem two_le_length (apart : ∃ first ∈ held, ∃ second ∈ held, first.time ≠ second.time) : 2 ≤ held.length := by
  obtain ⟨first, firstMember, second, secondMember, apart⟩ := apart
  cases held with
  | nil => cases firstMember
  | cons head rest =>
      cases rest with
      | nil =>
          rw [List.mem_singleton.mp firstMember, List.mem_singleton.mp secondMember] at apart
          exact absurd rfl apart
      | cons next rest =>
          rw [List.length_cons, List.length_cons]
          omega

/-- The result for the samples that are held is their slope. -/
theorem fits_derivative : Fits held (derivative held) := by
  have spread (apart : ∃ first ∈ held, ∃ second ∈ held, first.time ≠ second.time) (origin : ℚ × ℚ) :
      ∃ first ∈ LeastSquares.shift origin (points held), ∃ second ∈ LeastSquares.shift origin (points held),
        first.1 ≠ second.1 := by
    obtain ⟨first, firstMember, second, secondMember, apart⟩ := apart
    refine ⟨_, List.mem_map.mpr ⟨_, List.mem_map.mpr ⟨first, firstMember, rfl⟩, rfl⟩,
      _, List.mem_map.mpr ⟨_, List.mem_map.mpr ⟨second, secondMember, rfl⟩, rfl⟩, ?_⟩
    simpa using apart
  have divides (apart : ∃ first ∈ held, ∃ second ∈ held, first.time ≠ second.time) :
      (sums held).ssxx held.length ≠ 0 := by
    rw [ssxx_sums]
    exact (LeastSquares.sxx_pos (spread apart _)).ne'
  have least (apart : ∃ first ∈ held, ∃ second ∈ held, first.time ≠ second.time) :
      ∃ slope, derivative held = .value slope ∧ ∀ other, LeastSquares.IsSlope (points held) other ↔ other = slope := by
    rw [derivative, if_pos (two_le_length apart), Sums.slope, if_neg (divides apart)]
    refine ⟨_, rfl, fun other => ?_⟩
    rw [← LeastSquares.isSlope_shift, LeastSquares.isSlope_iff (spread apart _), ssxx_sums, ssxy_sums]
  refine ⟨divides, least, fun apart slope intercept line => ?_⟩
  obtain ⟨best, returned, only⟩ := least apart
  have straight : LeastSquares.IsSlope (points held) slope := by
    have onLine (point : ℚ × ℚ) (member : point ∈ points held) : point.2 = intercept + slope * point.1 := by
      obtain ⟨entry, listed, rfl⟩ := List.mem_map.mp member
      exact line entry listed
    exact LeastSquares.isSlope_line onLine
  rw [returned, (only slope).mp straight]

/-- The history holds the last samples. -/
structure Holds (window : Nat) (history : History) (items : List Sample) : Prop where
  represents : ∃ buffer, history.ring.Represents buffer ∧ Ring.Recent buffer window items
  numFit : history.numFit = min items.length window

namespace Holds

theorem new (window : Nat) : Holds window (.new window) [] where
  represents := ⟨_, Ring.Represents.new window, rfl, List.drop_nil.symm⟩
  numFit := (Nat.zero_min window).symm

theorem makeVector (holds : Holds window history items) : history.ring.makeVector = Ring.window window items := by
  obtain ⟨buffer, represents, recent⟩ := holds.represents
  rw [represents.makeVector, recent.2]

theorem maxSize (holds : Holds window history items) : history.ring.maxSize = window := by
  obtain ⟨buffer, represents, recent⟩ := holds.represents
  rw [represents.capacity, recent.1]

theorem size (holds : Holds window history items) : history.ring.size = (Ring.window window items).length := by
  obtain ⟨buffer, represents, recent⟩ := holds.represents
  rw [Ring.size, represents.counted, recent.2]

theorem value (holds : Holds window history items) {index : Nat}
    (found : (Ring.window window items)[index]? = some entry) : history.ring.value index = .ok entry := by
  obtain ⟨buffer, represents, recent⟩ := holds.represents
  rw [represents.value, CircularBuffer.value, recent.2, found]

/-- The loop adds the samples that the history has. -/
theorem loop (each : ∀ index entry, held[index]? = some entry → history.ring.value index = .ok entry) :
    (List.range' 0 held.length).foldlM (history.addValue first) Sums.zero = .ok (held.foldl (Sums.add first) Sums.zero) := by
  have steps (index : Nat) (reached : Sums) (_ : 0 ≤ index) (below : index < 0 + held.length)
      (same : reached = (held.take index).foldl (Sums.add first) Sums.zero) :
      ∃ next, history.addValue first reached index = .ok next ∧
        next = (held.take (index + 1)).foldl (Sums.add first) Sums.zero := by
    have inside : index < held.length := by omega
    refine ⟨reached.add first held[index], ?_, ?_⟩
    · rw [History.addValue, each index held[index] (List.getElem?_eq_getElem inside)]
      rfl
    · rw [List.take_succ_eq_append_getElem inside, List.foldl_append, ← same]
      rfl
  have initial : Sums.zero = (held.take 0).foldl (Sums.add first) Sums.zero := rfl
  obtain ⟨final, looped, summed⟩ := Transition.ok_range' steps initial
  rw [looped, summed, Nat.zero_add, List.take_length]

/-- The regression is one over the samples that are held. -/
theorem regress (holds : Holds window history items) :
    history.regress = .ok (derivative (Ring.window window items)) := by
  have each (index : Nat) (entry : Sample) (found : (Ring.window window items)[index]? = some entry) :
      history.ring.value index = .ok entry := holds.value found
  have size := holds.size
  have numFit := holds.numFit
  rw [← Ring.length_window] at numFit
  generalize Ring.window window items = held at *
  rw [History.regress, derivative, numFit, size]
  by_cases two : 2 ≤ held.length
  case neg => rw [if_neg two, if_neg two]
  case pos =>
      obtain ⟨head, rest, split⟩ := List.exists_cons_of_length_pos (show 0 < held.length by omega)
      have first : history.ring.value 0 = .ok head := each 0 head (by rw [split]; rfl)
      have head_eq : held.headD default = head := by
        rw [split]
        rfl
      rw [if_pos two, if_pos two, sums, head_eq]
      simp only [Nat.sub_self, Nat.sub_zero, first]
      change ((List.range' 0 held.length).foldlM (history.addValue head) Sums.zero >>= _) = _
      rw [loop each]
      rfl

/-- An insertion keeps the last samples. -/
theorem computeNext (holds : Holds window history items) (positive : 1 ≤ window) (entry : Sample) :
    ∃ next, history.computeNext window entry = .ok (derivative (Ring.window window (items ++ [entry])), next) ∧
      Holds window next (items ++ [entry]) := by
  have numFit := holds.numFit
  have maxSize := holds.maxSize
  obtain ⟨buffer, represents, recent⟩ := holds.represents
  obtain ⟨ring, after, inserted, abstract, represents⟩ := represents.insert (by omega) entry
  have next : Holds window ⟨ring, if history.numFit < window then history.numFit + 1 else history.numFit⟩
      (items ++ [entry]) := by
    refine ⟨⟨after, represents, recent.insert abstract⟩, ?_⟩
    simp only [numFit, List.length_append, List.length_singleton]
    split <;> omega
  refine ⟨_, ?_, next⟩
  rw [History.computeNext, inserted]
  change (History.regress _ >>= _) = _
  rw [next.regress]
  rfl

end Holds

theorem distinct_concat : distinct (samples ++ [entry]) =
    if ∀ last, (distinct samples).getLast? = some last → entry.time ≠ last.time then distinct samples ++ [entry]
    else distinct samples := by
  have each (head : Sample) (rest : List Sample) :
      (rest ++ [entry]).destutter' (fun previous next => previous.time ≠ next.time) head =
        if ∀ last, (rest.destutter' (fun previous next : Sample => previous.time ≠ next.time) head).getLast? = some last →
          entry.time ≠ last.time then
          rest.destutter' (fun previous next => previous.time ≠ next.time) head ++ [entry]
        else rest.destutter' (fun previous next => previous.time ≠ next.time) head := by
    induction rest generalizing head with
    | nil =>
        rw [List.nil_append, List.destutter'_singleton, List.destutter'_nil]
        simp [eq_comm]
    | cons next rest ih =>
        rw [List.cons_append, List.destutter'_cons, List.destutter'_cons]
        split
        · rw [ih, List.getLast?_cons_of_ne_nil (List.destutter'_ne_nil _ _)]
          split <;> rfl
        · exact ih head
  cases samples with
  | nil => simp [distinct]
  | cons head rest => exact each head rest

/-- What a signal has after samples. -/
structure Follows (window : Nat) (signal : Signal) (samples : List Sample) : Prop where
  ready : signal.isBatchReady = true
  holds : Holds window signal.history (distinct samples)
  lastResult : signal.lastResult = derivative (Ring.window window (distinct samples))

namespace Follows

variable {signal : Signal}

theorem start (window : Nat) : Follows window (Signal.new window).setupBatch [] where
  ready := rfl
  holds := Holds.new window
  lastResult := by
    rw [distinct, List.destutter_nil, derivative, Ring.length_window]
    rfl

/-- A sample at another time than the last is inserted. -/
theorem renew (follows : Follows window signal samples) (positive : 1 ≤ window)
    (new : distinct (samples ++ [entry]) = distinct samples ++ [entry]) :
    ∃ next, signal.renew entry = .ok (derivative (Ring.window window (distinct (samples ++ [entry]))), next) ∧
      Follows window next (samples ++ [entry]) := by
  obtain ⟨history, computed, holds⟩ := follows.holds.computeNext positive entry
  rw [← new] at computed holds
  rw [Signal.renew, follows.holds.maxSize, computed]
  exact ⟨_, rfl, follows.ready, holds, rfl⟩

/-- Each sample returns what is found for the samples that are held. -/
theorem sample (follows : Follows window signal samples) (positive : 1 ≤ window) (entry : Sample) :
    ∃ next, signal.sample entry = .ok (derivative (Ring.window window (distinct (samples ++ [entry]))), next) ∧
      Follows window next (samples ++ [entry]) := by
  have size := follows.holds.size
  have extended := @distinct_concat samples entry
  rw [Ring.length_window] at size
  rw [Signal.sample, follows.ready, Bool.not_true, if_neg Bool.false_ne_true]
  by_cases none : signal.history.ring.size = 0
  case pos =>
      have empty : distinct samples = [] := List.eq_nil_of_length_eq_zero (by omega)
      rw [if_pos none]
      refine follows.renew positive (extended.trans (if_pos fun last found => ?_))
      rw [empty] at found
      cases found
  case neg =>
      obtain ⟨last, found⟩ : ∃ last, (distinct samples).getLast? = some last :=
        ⟨_, List.getLast?_eq_some_getLast fun empty => by simp [empty] at size; omega⟩
      have held : signal.history.ring.value (signal.history.ring.size - 1) = .ok last := by
        apply follows.holds.value
        rw [← found, List.getLast?_eq_getElem?, Ring.window, List.getElem?_drop]
        congr 1
        omega
      rw [if_neg none, held]
      by_cases other : entry.time ≠ last.time
      case pos =>
          simp only [if_pos other]
          refine follows.renew positive (extended.trans (if_pos fun previous same => ?_))
          rw [found] at same
          cases same
          exact other
      case neg =>
          have kept : distinct (samples ++ [entry]) = distinct samples :=
            extended.trans (if_neg fun each => other (each last found))
          simp only [if_neg other]
          refine ⟨signal, ?_, follows.ready, ?_, ?_⟩
          · rw [kept, follows.lastResult]
          · rw [kept]
            exact follows.holds
          · rw [kept]
            exact follows.lastResult

end Follows

theorem Signal.run_ok (positive : 1 ≤ window) (samples : List Sample) :
    ∃ signal, (Signal.new window).setupBatch.run samples =
      .ok (derivative (Ring.window window (distinct samples)), signal) ∧ Follows window signal samples := by
  induction samples using List.reverseRecOn with
  | nil =>
      refine ⟨_, ?_, Follows.start window⟩
      rw [← (Follows.start window).lastResult]
      rfl
  | append_singleton earlier entry ih =>
      obtain ⟨signal, reached, follows⟩ := ih
      obtain ⟨next, sampled, follows⟩ := follows.sample positive entry
      refine ⟨next, ?_, follows⟩
      rw [Signal.run] at reached ⊢
      rw [List.foldlM_append, reached]
      change (signal.sample entry >>= pure) = _
      rw [sampled]
      rfl

theorem CombinedSignal.run_ok (samples : List Sample) :
    ∃ signal, CombinedSignal.new.run samples =
      .ok (derivative (Ring.window CombinedSignal.numSampleHistory samples), signal) ∧
        Holds CombinedSignal.numSampleHistory signal.history samples := by
  induction samples using List.reverseRecOn with
  | nil => exact ⟨_, rfl, Holds.new CombinedSignal.numSampleHistory⟩
  | append_singleton earlier entry ih =>
      obtain ⟨signal, reached, holds⟩ := ih
      obtain ⟨history, computed, holds⟩ := holds.computeNext (by decide) entry
      refine ⟨⟨history⟩, ?_, holds⟩
      rw [CombinedSignal.run] at reached ⊢
      rw [List.foldlM_append, reached]
      change (signal.sample entry >>= pure) = _
      rw [CombinedSignal.sample, computed]
      rfl

/-- After any samples both signals hold the last of them, and return their slope. -/
theorem run_fits (enough : 2 ≤ window) (samples : List Sample) :
    (∃ result signal, (Signal.new window).setupBatch.run samples = .ok (result, signal) ∧
      signal.history.ring.makeVector = Ring.window window (distinct samples) ∧
      Fits (Ring.window window (distinct samples)) result) ∧
    ∃ result signal, CombinedSignal.new.run samples = .ok (result, signal) ∧
      signal.history.ring.makeVector = Ring.window CombinedSignal.numSampleHistory samples ∧
      Fits (Ring.window CombinedSignal.numSampleHistory samples) result := by
  obtain ⟨signal, ran, follows⟩ := Signal.run_ok (Nat.le_of_succ_le enough) samples
  obtain ⟨combined, combinedRan, holds⟩ := CombinedSignal.run_ok samples
  exact ⟨⟨_, signal, ran, follows.holds.makeVector, fits_derivative⟩,
    _, combined, combinedRan, holds.makeVector, fits_derivative⟩

theorem run_fits_wrapped :
    (∃ result signal, (Signal.new 2).setupBatch.run [⟨0, 5⟩, ⟨0, 6⟩, ⟨1, 7⟩, ⟨3, 8⟩] = .ok (result, signal) ∧
      signal.history.ring.makeVector = Ring.window 2 (distinct [⟨0, 5⟩, ⟨0, 6⟩, ⟨1, 7⟩, ⟨3, 8⟩]) ∧
      Fits (Ring.window 2 (distinct [⟨0, 5⟩, ⟨0, 6⟩, ⟨1, 7⟩, ⟨3, 8⟩])) result) ∧
    ∃ result signal, CombinedSignal.new.run [⟨0, 5⟩, ⟨0, 6⟩, ⟨1, 7⟩, ⟨3, 8⟩] = .ok (result, signal) ∧
      signal.history.ring.makeVector =
        Ring.window CombinedSignal.numSampleHistory [⟨0, 5⟩, ⟨0, 6⟩, ⟨1, 7⟩, ⟨3, 8⟩] ∧
      Fits (Ring.window CombinedSignal.numSampleHistory [⟨0, 5⟩, ⟨0, 6⟩, ⟨1, 7⟩, ⟨3, 8⟩]) result :=
  run_fits (by decide) _

end Derivative

end Geopm
