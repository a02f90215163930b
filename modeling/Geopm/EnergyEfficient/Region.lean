import Geopm.Balancer.Agg
import Geopm.EpochFilter.CircularBuffer
import Mathlib.Algebra.Order.Floor.Ring
import Mathlib.Data.Rat.Floor

namespace Geopm

/-! `EnergyEfficientRegion`: how the frequency of a region is learned. -/

namespace EnergyEfficient

/-- `M_MIN_PERF_SAMPLE`. -/
def minPerfSample : Nat := 5

/-- The last metrics of a step, as many as a measurement needs. -/
structure PerfBuffer where
  buffer : CircularBuffer ℚ
  capacity : buffer.maxSize = minPerfSample

namespace PerfBuffer

/-- The constructor. -/
def new : PerfBuffer := ⟨.new minPerfSample, rfl⟩

def size (perf : PerfBuffer) : Nat := perf.buffer.size

/-- `insert`, which a buffer that has room never refuses. -/
def insert (perf : PerfBuffer) (metric : ℚ) : PerfBuffer :=
  match taken : perf.buffer.insert metric with
  | .ok next => ⟨next, by
      obtain ⟨other, inserted, sized, _⟩ :=
        CircularBuffer.insert_ok (by rw [perf.capacity]; decide : 0 < perf.buffer.maxSize) metric
      rw [taken] at inserted
      cases inserted
      exact sized.trans perf.capacity⟩
  | .error _ => perf

/-- `Agg::max` of what it holds. -/
def perfMax (perf : PerfBuffer) : Number := Agg.max (perf.buffer.entries.map .value)

end PerfBuffer

/-- `EnergyEfficientRegionImp`. -/
structure Region where
  isLearning : Bool
  maxStep : Nat
  freqStep : ℚ
  currStep : Int
  freqMin : ℚ
  target : ℚ
  freqPerf : Int → PerfBuffer
  perfMargin : ℚ

/-- `calc_num_step`. -/
def calcNumStep (freqMin freqMax freqStep : ℚ) : Nat := 1 + ⌈(freqMax - freqMin) / freqStep⌉.toNat

namespace Region

/-- The constructor. -/
def new (freqMin freqMax freqStep perfMargin : ℚ) : Region where
  isLearning := true
  maxStep := calcNumStep freqMin freqMax freqStep - 1
  freqStep
  currStep := ↑(calcNumStep freqMin freqMax freqStep - 1)
  freqMin
  target := 0
  freqPerf := fun _ => .new
  perfMargin

/-- `freq`. -/
def freq (region : Region) : ℚ := region.freqMin + region.currStep * region.freqStep

/-- The buffer of the step after a metric that counts. -/
def filled (region : Region) (currPerfMetric : Number) : PerfBuffer :=
  match currPerfMetric with
  | .nan => region.freqPerf region.currStep
  | .value metric =>
      if metric = 0 then region.freqPerf region.currStep else (region.freqPerf region.currStep).insert metric

/-- What `update_exit` makes of the best of the metrics of a step. -/
def judge (region : Region) (perfMax : ℚ) : Region :=
  let target := if region.target = 0 then (1 + region.perfMargin) * perfMax else region.target
  if target = 0 then { region with target }
  else if target < perfMax then
    -- performance is in range, so lower the frequency
    if 0 ≤ region.currStep - 1 then { region with target, currStep := region.currStep - 1 }
    else { region with target, isLearning := false }
  else if region.currStep + 1 ≤ region.maxStep then
    { region with target, isLearning := false, currStep := region.currStep + 1 }
  else { region with target, isLearning := false }

def record (region : Region) (currPerfMetric : Number) : Region :=
  { region with freqPerf := Function.update region.freqPerf region.currStep (region.filled currPerfMetric) }

/-- `update_exit`. -/
def updateExit (region : Region) (currPerfMetric : Number) : Region :=
  if region.isLearning then
    let recorded := region.record currPerfMetric
    if minPerfSample ≤ (recorded.freqPerf recorded.currStep).size then
      match (recorded.freqPerf recorded.currStep).perfMax with
      | .nan => recorded
      | .value perfMax => if perfMax = 0 then recorded else recorded.judge perfMax
    else recorded
  else region

/-- The region after a sequence of metrics. -/
def learn (region : Region) (metrics : List Number) : Region := metrics.foldl updateExit region

/-- The metric completes a measurement of the step. -/
def Completes (region : Region) (currPerfMetric : Number) : Prop :=
  region.isLearning = true ∧ minPerfSample ≤ (region.filled currPerfMetric).size

instance (region : Region) (currPerfMetric : Number) : Decidable (region.Completes currPerfMetric) :=
  inferInstanceAs (Decidable (_ ∧ _))

/-- The recorded maximum performance of a step exceeds the target. -/
def Exceeds (region : Region) (step : Int) : Prop :=
  ∃ perfMax, (region.freqPerf step).perfMax = .value perfMax ∧ region.target < perfMax

end Region

variable {perf : PerfBuffer} {metric : ℚ}

/-- A buffer holds metrics other than zero. -/
def PerfBuffer.Counts (perf : PerfBuffer) : Prop := ∀ metric ∈ perf.buffer.entries, metric ≠ 0

theorem PerfBuffer.counts_new : PerfBuffer.new.Counts := fun _ member => absurd member List.not_mem_nil

theorem PerfBuffer.mem_insert {other : ℚ} (member : other ∈ (perf.insert metric).buffer.entries) :
    other = metric ∨ other ∈ perf.buffer.entries := by
  rw [insert] at member
  split at member
  · next next taken =>
      rw [CircularBuffer.insert, dif_neg (by rw [perf.capacity]; decide)] at taken
      split at taken
      · cases taken
        simpa [or_comm] using member
      · cases taken
        rcases List.mem_append.mp member with old | new
        · exact .inr (List.mem_of_mem_tail old)
        · exact .inl (List.mem_singleton.mp new)
  · exact .inr member

theorem PerfBuffer.Counts.insert (counts : perf.Counts) (nonzero : metric ≠ 0) : (perf.insert metric).Counts := by
  intro other member
  rcases mem_insert member with rfl | old
  · exact nonzero
  · exact counts other old

/-- The maximum of a full buffer is one of its metrics. -/
theorem PerfBuffer.Counts.perfMax (counts : perf.Counts) (full : minPerfSample ≤ perf.size) :
    ∃ most, perf.perfMax = .value most ∧ most ≠ 0 := by
  rw [PerfBuffer.perfMax, Agg.max, Number.rationals_value]
  cases most : perf.buffer.entries.max? with
  | none =>
      rw [List.max?_eq_none_iff] at most
      rw [size, CircularBuffer.size, most] at full
      cases full
  | some value => exact ⟨value, rfl, counts value (List.max?_mem most)⟩

namespace Region

variable {region : Region} {currPerfMetric : Number} {metrics : List Number} {most : ℚ} {step : Int}

/-- What holds of a region after any metrics. -/
structure Learns (region : Region) : Prop where
  margin : -1 < region.perfMargin
  nonneg : 0 ≤ region.currStep
  atMost : region.currStep ≤ region.maxStep
  counts : ∀ step, (region.freqPerf step).Counts
  start : region.target = 0 → region.currStep = region.maxStep
  /-- the steps that were left were fast enough -/
  above : region.isLearning = true → ∀ step, region.currStep < step → step ≤ region.maxStep → region.Exceeds step
  learned : region.isLearning = false → region.currStep = region.maxStep ∨ region.Exceeds region.currStep

/-- What a measurement does with the step. -/
def Moves (region next : Region) : Prop :=
  next.isLearning = true ∧ next.currStep = region.currStep - 1 ∨
    next.isLearning = false ∧ (next.currStep = region.currStep ∨ next.currStep = region.currStep + 1)

theorem learns_new {freqMin freqMax freqStep perfMargin : ℚ} (margin : -1 < perfMargin) :
    (new freqMin freqMax freqStep perfMargin).Learns where
  margin := margin
  nonneg := Int.natCast_nonneg _
  atMost := Int.le_refl _
  counts := fun _ => PerfBuffer.counts_new
  start := fun _ => rfl
  above := fun _ step above within => absurd above (Int.not_lt.mpr within)
  learned := fun learned => by cases learned

@[simp] theorem record_self : (region.record currPerfMetric).freqPerf region.currStep = region.filled currPerfMetric := by
  simp [record]

theorem record_other (other : step ≠ region.currStep) :
    (region.record currPerfMetric).freqPerf step = region.freqPerf step := by
  simp [record, other]

theorem Learns.filled (learns : region.Learns) : (region.filled currPerfMetric).Counts := by
  cases currPerfMetric with
  | nan => exact learns.counts region.currStep
  | value metric =>
      rw [Region.filled]
      split
      · exact learns.counts region.currStep
      · next nonzero => exact (learns.counts region.currStep).insert nonzero

/-- A metric that is recorded changes the buffer of the current step alone. -/
theorem Learns.record (learns : region.Learns) (learning : region.isLearning = true) :
    (region.record currPerfMetric).Learns where
  margin := learns.margin
  nonneg := learns.nonneg
  atMost := learns.atMost
  counts := by
    intro step
    by_cases here : step = region.currStep
    · rw [here, record_self]
      exact learns.filled
    · rw [record_other here]
      exact learns.counts step
  start := learns.start
  above := by
    intro _ step above within
    have same : (region.record currPerfMetric).freqPerf step = region.freqPerf step := record_other (ne_of_gt above)
    rw [Exceeds, same]
    exact learns.above learning step above within
  learned := fun learned => by
    rw [show region.isLearning = false from learned] at learning
    cases learning

theorem Learns.judge (learns : region.Learns) (learning : region.isLearning = true)
    (best : (region.freqPerf region.currStep).perfMax = .value most) (nonzero : most ≠ 0) :
    (region.judge most).Learns ∧ region.Moves (region.judge most) := by
  have margin := learns.margin
  have nonneg := learns.nonneg
  have atMost := learns.atMost
  obtain ⟨target, aimed⟩ : ∃ target, target = if region.target = 0 then (1 + region.perfMargin) * most else region.target :=
    ⟨_, rfl⟩
  have positive : target ≠ 0 := by
    rw [aimed]
    split
    · exact mul_ne_zero (by linarith) nonzero
    · assumption
  -- the target is set in the highest step, where none is above
  have above (step : Int) (above : region.currStep < step) (within : step ≤ region.maxStep) :
      ∃ perfMax, (region.freqPerf step).perfMax = .value perfMax ∧ target < perfMax := by
    by_cases fresh : region.target = 0
    · have highest := learns.start fresh
      omega
    · rw [aimed, if_neg fresh]
      exact learns.above learning step above within
  rw [Region.judge, ← aimed, if_neg positive]
  by_cases better : target < most
  case pos =>
      rw [if_pos better]
      by_cases lower : 0 ≤ region.currStep - 1
      case pos =>
          rw [if_pos lower]
          refine ⟨⟨margin, lower, by simp only; omega, learns.counts, fun zero => absurd zero positive, ?_,
            fun learned => ?_⟩, .inl ⟨learning, rfl⟩⟩
          · intro _ step higher within
            by_cases here : step = region.currStep
            · exact ⟨most, by rw [here]; exact best, better⟩
            · exact above step (by simp only at higher; omega) within
          · rw [show region.isLearning = false from learned] at learning
            cases learning
      case neg =>
          rw [if_neg lower]
          exact ⟨⟨margin, nonneg, atMost, learns.counts, fun zero => absurd zero positive,
            (fun learning => nomatch learning), fun _ => .inr ⟨most, best, better⟩⟩, .inr ⟨rfl, .inl rfl⟩⟩
  case neg =>
      rw [if_neg better]
      by_cases higher : region.currStep + 1 ≤ region.maxStep
      case pos =>
          rw [if_pos higher]
          exact ⟨⟨margin, by simp only; omega, higher, learns.counts, fun zero => absurd zero positive,
            (fun learning => nomatch learning), fun _ => .inr (above _ (by simp only; omega) higher)⟩, .inr ⟨rfl, .inr rfl⟩⟩
      case neg =>
          rw [if_neg higher]
          exact ⟨⟨margin, nonneg, atMost, learns.counts, fun zero => absurd zero positive,
            (fun learning => nomatch learning), fun _ => .inl (by simp only; omega)⟩, .inr ⟨rfl, .inl rfl⟩⟩

/-- A region that has learned ignores metrics. -/
theorem updateExit_learned (learned : region.isLearning = false) : region.updateExit currPerfMetric = region := by
  rw [updateExit, learned, if_neg Bool.false_ne_true]

/-- Between measurements metrics are recorded. -/
theorem updateExit_incomplete (learning : region.isLearning = true) (few : ¬ region.Completes currPerfMetric) :
    region.updateExit currPerfMetric = region.record currPerfMetric := by
  have short : ¬ minPerfSample ≤ (region.filled currPerfMetric).size := fun full => few ⟨learning, full⟩
  rw [updateExit, learning, if_pos rfl]
  exact if_neg (by rw [show (region.record currPerfMetric).currStep = region.currStep from rfl, record_self]; exact short)

/-- A measurement moves the step. -/
theorem Learns.complete (learns : region.Learns) (completes : region.Completes currPerfMetric) :
    (region.updateExit currPerfMetric).Learns ∧ region.Moves (region.updateExit currPerfMetric) := by
  obtain ⟨learning, full⟩ := completes
  obtain ⟨most, best, nonzero⟩ := (@Learns.filled _ currPerfMetric learns).perfMax full
  have judged := (@Learns.record _ currPerfMetric learns learning).judge learning
    (by rw [show (region.record currPerfMetric).currStep = region.currStep from rfl, record_self, best]) nonzero
  have result : region.updateExit currPerfMetric = (region.record currPerfMetric).judge most := by
    rw [updateExit, learning, if_pos rfl]
    simp only [show (region.record currPerfMetric).currStep = region.currStep from rfl, record_self, if_pos full, best,
      if_neg nonzero]
  rw [result]
  exact judged

theorem Learns.updateExit (learns : region.Learns) : (region.updateExit currPerfMetric).Learns := by
  cases learning : region.isLearning with
  | false =>
      rw [updateExit_learned learning]
      exact learns
  | true =>
      by_cases completes : region.Completes currPerfMetric
      · exact (learns.complete completes).1
      · rw [updateExit_incomplete learning completes]
        exact learns.record learning

theorem Learns.learn (learns : region.Learns) : (region.learn metrics).Learns := by
  induction metrics generalizing region with
  | nil => exact learns
  | cons metric rest ih => exact ih learns.updateExit

theorem learn_learned (learned : region.isLearning = false) : region.learn metrics = region := by
  induction metrics with
  | nil => rfl
  | cons metric rest ih =>
      rw [learn, List.foldl_cons, updateExit_learned learned]
      exact ih

/-- The step is within its bounds, a measurement moves it by at most one, learning ends once, and the step that was
learned is the highest one or was fast enough. -/
structure Converges (region : Region) : Prop where
  bounds : 0 ≤ region.currStep ∧ region.currStep ≤ region.maxStep
  moves : ∀ metric, region.Completes metric → region.Moves (region.updateExit metric)
  waits : ∀ metric, region.isLearning = true → ¬ region.Completes metric →
    (region.updateExit metric).isLearning = true ∧ (region.updateExit metric).currStep = region.currStep
  stays : region.isLearning = false → ∀ more, (region.learn more).currStep = region.currStep
  learned : region.isLearning = false → region.currStep = region.maxStep ∨ region.Exceeds region.currStep

/-- What is learned from any sequence of metrics. -/
theorem converges_learn {freqMin freqMax freqStep perfMargin : ℚ} (margin : -1 < perfMargin) (metrics : List Number) :
    ((new freqMin freqMax freqStep perfMargin).learn metrics).Converges := by
  have learns := @Learns.learn _ metrics (@learns_new freqMin freqMax freqStep _ margin)
  refine ⟨⟨learns.nonneg, learns.atMost⟩, fun metric completes => (learns.complete completes).2,
    fun metric learning few => ?_, fun learned more => by rw [learn_learned learned], learns.learned⟩
  rw [updateExit_incomplete learning few]
  exact ⟨learning, rfl⟩

theorem converges_learn_slower : ((new 1 3 1 (1 / 10)).learn (List.replicate 5 (.value (-2)))).Converges :=
  converges_learn (by norm_num) _

end Region

end EnergyEfficient

end Geopm
