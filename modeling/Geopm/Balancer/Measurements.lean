import Geopm.Balancer.PowerBalancer
import Geopm.Library.Run

namespace Geopm

/-! The measurements behind the runtime samples of a `PowerBalancer`. -/

namespace PowerBalancer

/-- The constructor. -/
def new (controlLatency minTrialDelta : ℚ) (minNumSample : Nat) (minDuration : ℚ) : PowerBalancer :=
  { controlLatency, minTrialDelta, minNumSample, minDuration }

/-- The measurements of which `calculate_runtime_sample` takes the median. -/
def window (balancer : PowerBalancer) : List ℚ :=
  if balancer.runtimeBuffer.size ≠ 0 then balancer.runtimeBuffer.entries else balancer.runtimeVec

/-- The measurement of a call, if it is not dropped. -/
def accepted (balancer : PowerBalancer) (now : ℚ) (measuredRuntime : Number) : Option ℚ :=
  match balancer.isLimitStable now, measuredRuntime with
  | true, .value runtime => some runtime
  | _, _ => none

inductive Call where
  | powerCap (cap : Number)
  | powerLimitAdjusted (now : ℚ) (actualLimit : Number)
  | targetRuntime (largestRuntime : Number)
  | isRuntimeStable (now : ℚ) (measuredRuntime : Number)
  | isTargetMet (now : ℚ) (measuredRuntime : Number)
deriving Repr, DecidableEq

/-- A runtime sample that a decision is based on, with the measurements it comes
from and those since the last change. -/
structure Decision where
  runtimeSample : Number
  window : List ℚ
  fresh : List ℚ
deriving Repr, DecidableEq

/-- The sample is the median of measurements since the last change. -/
def Decision.IsFresh (decision : Decision) : Prop :=
  decision.runtimeSample = Agg.median (decision.window.map .value) ∧ decision.window <:+ decision.fresh

/-- A balancer with the limit that was adjusted last, the measurements since the
last change, those behind its runtime sample, and the decisions so far. -/
structure History where
  balancer : PowerBalancer
  adjusted : Number
  fresh : List ℚ
  sampled : List ℚ
  decisions : List Decision

namespace History

def start (balancer : PowerBalancer) : History :=
  { balancer, adjusted := .nan, fresh := [], sampled := [], decisions := [] }

/-- A call of `is_runtime_stable` that leaves the balancer as it is given. -/
def measure (history : History) (now : ℚ) (measuredRuntime : Number) (next : PowerBalancer) : History :=
  match history.balancer.accepted now measuredRuntime with
  | none => { history with balancer := next }
  | some runtime =>
      let fresh := history.fresh ++ [runtime]
      { history with
        balancer := next
        fresh
        sampled := next.window
        decisions := ⟨next.runtimeSample, next.window, fresh⟩ :: history.decisions }

/-- The calls. The buffer has room for a measurement, so none of them throws. -/
def step (history : History) : Call → History
  | .powerCap cap =>
      { history with
        balancer := history.balancer.setPowerCap cap
        fresh := if cap = history.balancer.powerCap then history.fresh else [] }
  | .powerLimitAdjusted now actualLimit =>
      { history with
        balancer := history.balancer.powerLimitAdjusted now actualLimit
        adjusted := actualLimit
        fresh := if actualLimit = history.adjusted then history.fresh else [] }
  | .targetRuntime largestRuntime =>
      { history with
        balancer := history.balancer.setTargetRuntime largestRuntime
        decisions :=
          ⟨history.balancer.runtimeSample, history.sampled, history.fresh⟩ :: history.decisions }
  | .isRuntimeStable now measuredRuntime =>
      match history.balancer.isRuntimeStable now measuredRuntime with
      | .error _ => history
      | .ok (_, next) => history.measure now measuredRuntime next
  | .isTargetMet now measuredRuntime =>
      if history.balancer.isTargetMet then history
      else
        match history.balancer.isRuntimeStable now measuredRuntime,
          history.balancer.testTarget now measuredRuntime with
        | .ok (_, measured), .ok (_, next) =>
            { history.measure now measuredRuntime measured with balancer := next }
        | _, _ => history

/-- A change finds no measurement that it leaves in place, and a target is set
with a sample that was taken since the last change. -/
def Clears (history : History) : Call → Prop
  | .powerCap cap => cap = history.balancer.powerCap ∨ history.balancer.runtimeVec = []
  | .powerLimitAdjusted _ actualLimit =>
      actualLimit = history.adjusted ∨ history.balancer.runtimeVec = [] ∧
        (history.balancer.powerLimit.eq actualLimit = true → history.balancer.runtimeBuffer.entries = [])
  | .targetRuntime _ => history.fresh ≠ [] ∨ history.sampled = []
  | .isRuntimeStable _ _ | .isTargetMet _ _ => True

end History

/-- The measurements in both containers. -/
def held (balancer : PowerBalancer) : List ℚ := balancer.runtimeBuffer.entries ++ balancer.runtimeVec

/-- One of the containers is empty. -/
def Exclusive (balancer : PowerBalancer) : Prop :=
  balancer.runtimeBuffer.entries = [] ∨ balancer.runtimeVec = []

variable {balancer next : PowerBalancer} {now : ℚ} {measuredRuntime : Number} {runtime : ℚ}

theorem window_eq (exclusive : balancer.Exclusive) : balancer.window = balancer.held := by
  rw [window, held, CircularBuffer.size]
  cases exclusive with
  | inl empty => simp [empty]
  | inr empty =>
      split
      · rw [empty, List.append_nil]
      · next none =>
          rw [List.length_eq_zero_iff.mp (not_not.mp none), empty]
          rfl

/-- The window with one more measurement. -/
def nextWindow (balancer : PowerBalancer) (runtime : ℚ) : List ℚ :=
  if balancer.runtimeBuffer.size = 0 then balancer.runtimeVec ++ [runtime]
  else (balancer.runtimeBuffer.entries ++ [runtime]).rtake balancer.runtimeBuffer.maxSize

/-- One more measurement makes the runtime stable. -/
def stabilizes (balancer : PowerBalancer) (runtime : ℚ) : Bool :=
  if balancer.runtimeBuffer.size = 0 then
    decide (balancer.minDuration < (balancer.runtimeVec ++ [runtime]).sum) &&
      decide (balancer.minNumSample ≤ (balancer.runtimeVec ++ [runtime]).length)
  else decide (balancer.runtimeBuffer.maxSize ≤ balancer.runtimeBuffer.size + 1)

theorem nextWindow_suffix (exclusive : balancer.Exclusive) :
    balancer.nextWindow runtime <:+ balancer.held ++ [runtime] := by
  rw [nextWindow, held]
  split
  · next empty =>
      simp [List.length_eq_zero_iff.mp empty]
  · next some =>
      rw [exclusive.resolve_left (mt List.length_eq_zero_iff.mpr some), List.append_nil]
      exact List.drop_suffix _ _

/-- A measurement that goes into the vector is held there or in the buffer. -/
theorem collectRuntime_ok (empty : balancer.runtimeBuffer.size = 0) :
    ∃ next, balancer.collectRuntime runtime = .ok (balancer.stabilizes runtime, next) ∧ next.Exclusive ∧
      next.window = balancer.nextWindow runtime := by
  rw [stabilizes, nextWindow, if_pos empty, if_pos empty]
  by_cases enough : balancer.minDuration < (balancer.runtimeVec ++ [runtime]).sum
  · let few := decide ((balancer.runtimeVec ++ [runtime]).length < balancer.minNumSample)
    let numSample := if few then balancer.minNumSample else (balancer.runtimeVec ++ [runtime]).length
    have large : (balancer.runtimeVec ++ [runtime]).length ≤ numSample := by
      simp only [numSample, few]
      split
      · next less => exact (of_decide_eq_true less).le
      · exact Nat.le_refl _
    have positive : 0 < numSample := Nat.lt_of_lt_of_le (by simp) large
    obtain ⟨buffer, filled, _, entries⟩ := @CircularBuffer.foldlM_insert _
      (balancer.runtimeBuffer.setCapacity numSample) [] (balancer.runtimeVec ++ [runtime]) positive
      (List.rtake_nil _).symm
    have all : buffer.entries = balancer.runtimeVec ++ [runtime] := by
      rw [entries, List.nil_append, List.rtake]
      change List.drop (_ - numSample) _ = _
      rw [Nat.sub_eq_zero_of_le large, List.drop_zero]
    refine ⟨{ balancer with numSample, runtimeBuffer := buffer, runtimeVec := [] }, ?_, .inr rfl, ?_⟩
    · have result : (decide (balancer.minDuration < (balancer.runtimeVec ++ [runtime]).sum) &&
          decide (balancer.minNumSample ≤ (balancer.runtimeVec ++ [runtime]).length)) = !few := by
        simp only [few, enough, decide_true, Bool.true_and, ← decide_not, not_lt]
      rw [result]
      simp only [collectRuntime, if_pos enough]
      change Except.bind (List.foldlM _ _ _) _ = _
      rw [filled]
      rfl
    · rw [window, CircularBuffer.size, all, if_pos (by simp)]
  · refine ⟨{ balancer with runtimeVec := balancer.runtimeVec ++ [runtime] }, ?_,
      .inl (List.length_eq_zero_iff.mp empty), ?_⟩
    · simp only [collectRuntime, enough, decide_false, Bool.false_and]
      rfl
    · rw [window, if_neg (not_not.mpr empty)]

/-- A measurement is taken in if it is a number and the limit is stable. -/
theorem accepted_eq_some (taken : balancer.accepted now measuredRuntime = some runtime) :
    balancer.isLimitStable now = true ∧ measuredRuntime = .value runtime := by
  cases measuredRuntime with
  | nan => cases stable : balancer.isLimitStable now <;> simp [accepted, stable] at taken
  | value measured =>
      cases stable : balancer.isLimitStable now with
      | false => simp [accepted, stable] at taken
      | true =>
          simp only [accepted, stable, Option.some.injEq] at taken
          exact ⟨rfl, congrArg _ taken⟩

theorem isRuntimeStable_dropped (dropped : balancer.accepted now measuredRuntime = none) :
    balancer.isRuntimeStable now measuredRuntime = .ok (false, balancer) := by
  cases measuredRuntime with
  | nan => cases stable : balancer.isLimitStable now <;> simp [isRuntimeStable, stable]
  | value measured =>
      cases stable : balancer.isLimitStable now with
      | false => simp [isRuntimeStable, stable]
      | true => simp [accepted, stable] at dropped

theorem calculateRuntimeSample_eq : balancer.calculateRuntimeSample.runtimeSample =
    Agg.median (balancer.calculateRuntimeSample.window.map .value) := by
  rw [calculateRuntimeSample, window]
  split <;> rfl

/-- What `is_runtime_stable` does with a measurement. -/
theorem isRuntimeStable_ok (taken : balancer.accepted now measuredRuntime = some runtime) :
    ∃ next, balancer.isRuntimeStable now measuredRuntime = .ok (balancer.stabilizes runtime, next) ∧
      (balancer.Exclusive → next.Exclusive) ∧ next.window = balancer.nextWindow runtime ∧
      next.runtimeSample = Agg.median ((balancer.nextWindow runtime).map .value) := by
  obtain ⟨stable, rfl⟩ := accepted_eq_some taken
  simp only [isRuntimeStable, stable]
  by_cases empty : balancer.runtimeBuffer.size = 0
  · obtain ⟨next, collected, kept, window⟩ := @collectRuntime_ok balancer runtime empty
    refine ⟨next.calculateRuntimeSample, ?_, fun _ => kept, window, ?_⟩
    · simp only [if_pos empty, collected]
      rfl
    · rw [← window]
      exact calculateRuntimeSample_eq
  · have positive : 0 < balancer.runtimeBuffer.maxSize := by
      have bounded := balancer.runtimeBuffer.bounded
      rw [CircularBuffer.size] at empty
      omega
    obtain ⟨buffer, inserted, sized, entries⟩ :=
      CircularBuffer.insert_rtake positive CircularBuffer.rtake_entries.symm runtime
    obtain ⟨_, again, _, length⟩ := CircularBuffer.insert_ok positive runtime
    cases inserted.symm.trans again
    have full : decide (buffer.size = buffer.maxSize) = balancer.stabilizes runtime := by
      rw [stabilizes, if_neg empty, decide_eq_decide, sized, length]
      omega
    have window : (calculateRuntimeSample { balancer with runtimeBuffer := buffer }).window =
        balancer.nextWindow runtime := by
      rw [nextWindow, if_neg empty, ← entries]
      exact if_pos (by rw [calculateRuntimeSample, length]; omega)
    refine ⟨calculateRuntimeSample { balancer with runtimeBuffer := buffer }, ?_, fun exclusive => ?_,
      window, ?_⟩
    · simp only [if_neg empty, inserted, ← full]
      rfl
    · exact .inr (exclusive.resolve_left (mt List.length_eq_zero_iff.mpr empty))
    · rw [← window]
      exact calculateRuntimeSample_eq

/-- Nothing is measured, and the buffer is kept or cleared. -/
structure Keeps (balancer next : PowerBalancer) : Prop where
  runtimeVec : next.runtimeVec = balancer.runtimeVec
  runtimeSample : next.runtimeSample = balancer.runtimeSample
  buffer : next.runtimeBuffer.entries = balancer.runtimeBuffer.entries ∨ next.runtimeBuffer.entries = []

theorem keeps_tryLimit : balancer.Keeps balancer.tryLimit := by
  rw [tryLimit]
  split
  · exact ⟨rfl, rfl, .inl rfl⟩
  · exact ⟨rfl, rfl, .inr rfl⟩

theorem keeps_powerLimitAdjusted {actualLimit : Number} :
    balancer.Keeps (balancer.powerLimitAdjusted now actualLimit) := by
  rw [powerLimitAdjusted]
  split
  · exact ⟨rfl, rfl, .inl rfl⟩
  · exact ⟨rfl, rfl, .inr rfl⟩

/-- A limit that is adjusted leaves the buffer empty if it was, or if the limit is not the requested one. -/
theorem held_powerLimitAdjusted {actualLimit : Number} (vector : balancer.runtimeVec = [])
    (buffer : balancer.powerLimit.eq actualLimit = true → balancer.runtimeBuffer.entries = []) :
    (balancer.powerLimitAdjusted now actualLimit).held = [] := by
  rw [powerLimitAdjusted, held]
  split
  · next same => exact List.append_eq_nil_iff.mpr ⟨buffer same, vector⟩
  · exact vector

theorem testTarget_eq {stable : Bool} (missed : balancer.isTargetMet = false)
    (done : balancer.isRuntimeStable now measuredRuntime = .ok (stable, next)) :
    balancer.testTarget now measuredRuntime =
      .ok ((if stable then next.tryLimit else next).isTargetMet, if stable then next.tryLimit else next) := by
  simp only [testTarget, missed, done]
  rfl

theorem Keeps.exclusive (keeps : balancer.Keeps next) (exclusive : balancer.Exclusive) : next.Exclusive := by
  cases exclusive with
  | inl empty =>
      cases keeps.buffer with
      | inl same => exact .inl (same.trans empty)
      | inr cleared => exact .inl cleared
  | inr empty => exact .inr (keeps.runtimeVec.trans empty)

theorem Keeps.held (keeps : balancer.Keeps next) : next.held <:+ balancer.held := by
  rw [PowerBalancer.held, PowerBalancer.held, keeps.runtimeVec]
  cases keeps.buffer with
  | inl same =>
      exact same ▸ List.suffix_refl _
  | inr cleared =>
      rw [cleared]
      exact List.suffix_append _ _

namespace History

/-- Everything that is held and decided comes from measurements since the last
change. -/
structure Fresh (history : History) : Prop where
  exclusive : history.balancer.Exclusive
  held : history.balancer.held <:+ history.fresh
  runtimeSample : history.balancer.runtimeSample = Agg.median (history.sampled.map .value)
  sampled : history.fresh ≠ [] → history.sampled <:+ history.fresh
  decisions : ∀ decision ∈ history.decisions, decision.IsFresh

variable {history : History} {call : Call} {calls : List Call}

theorem Fresh.keep (fresh : history.Fresh) (keeps : history.balancer.Keeps next) :
    Fresh { history with balancer := next } where
  exclusive := keeps.exclusive fresh.exclusive
  held := keeps.held.trans fresh.held
  runtimeSample := keeps.runtimeSample.trans fresh.runtimeSample
  sampled := fresh.sampled
  decisions := fresh.decisions

/-- A change that leaves nothing held starts anew. -/
theorem Fresh.change (fresh : history.Fresh) (keeps : history.balancer.Keeps next) (empty : next.held = [])
    (adjusted : Number) : Fresh { history with balancer := next, adjusted, fresh := [] } where
  exclusive := keeps.exclusive fresh.exclusive
  held := empty ▸ List.suffix_refl _
  runtimeSample := keeps.runtimeSample.trans fresh.runtimeSample
  sampled := fun some => absurd rfl some
  decisions := fresh.decisions

theorem measure_balancer : (history.measure now measuredRuntime next).balancer = next := by
  rw [History.measure]
  split <;> rfl

theorem Fresh.measure (fresh : history.Fresh) {result : Bool}
    (done : history.balancer.isRuntimeStable now measuredRuntime = .ok (result, next)) :
    (history.measure now measuredRuntime next).Fresh := by
  rw [History.measure]
  cases taken : history.balancer.accepted now measuredRuntime with
  | none =>
      rw [isRuntimeStable_dropped taken] at done
      cases done
      exact fresh
  | some runtime =>
      obtain ⟨reached, stable, exclusive, window, sample⟩ := isRuntimeStable_ok taken
      rw [stable] at done
      cases done
      rw [← window] at sample
      have recent : next.window <:+ history.fresh ++ [runtime] := by
        obtain ⟨first, same⟩ := fresh.held
        rw [window]
        refine (nextWindow_suffix fresh.exclusive).trans ⟨first, ?_⟩
        rw [← List.append_assoc, same]
      have held := window_eq (exclusive fresh.exclusive) ▸ recent
      refine ⟨exclusive fresh.exclusive, held, sample, fun _ => recent, fun decision member => ?_⟩
      cases List.mem_cons.mp member with
      | inl same =>
          subst same
          exact ⟨sample, recent⟩
      | inr before => exact fresh.decisions decision before

/-- A call that finds its containers cleared keeps everything fresh. -/
theorem Fresh.step (fresh : history.Fresh) (clears : history.Clears call) : (history.step call).Fresh := by
  cases call with
  | powerCap cap =>
      have keeps : history.balancer.Keeps (history.balancer.setPowerCap cap) := ⟨rfl, rfl, .inr rfl⟩
      rw [History.step]
      split
      · exact fresh.keep keeps
      · next changed => exact fresh.change keeps (clears.resolve_left changed) history.adjusted
  | powerLimitAdjusted now actualLimit =>
      have keeps := @keeps_powerLimitAdjusted history.balancer now actualLimit
      rw [History.step]
      split
      · next same =>
          subst same
          exact fresh.keep keeps
      · next changed =>
          obtain ⟨vector, buffer⟩ := clears.resolve_left changed
          exact fresh.change keeps (held_powerLimitAdjusted vector buffer) actualLimit
  | targetRuntime largestRuntime =>
      have keeps : history.balancer.Keeps (history.balancer.setTargetRuntime largestRuntime) :=
        ⟨rfl, rfl, .inl rfl⟩
      have kept := fresh.keep keeps
      refine ⟨kept.exclusive, kept.held, kept.runtimeSample, kept.sampled, fun decision member => ?_⟩
      cases List.mem_cons.mp member with
      | inl same =>
          subst same
          refine ⟨fresh.runtimeSample, ?_⟩
          cases clears with
          | inl some => exact fresh.sampled some
          | inr never =>
              change history.sampled <:+ history.fresh
              rw [never]
              exact List.nil_suffix
      | inr before => exact fresh.decisions decision before
  | isRuntimeStable now measuredRuntime =>
      rw [History.step]
      split
      · exact fresh
      · next done => exact fresh.measure done
  | isTargetMet now measuredRuntime =>
      rw [History.step]
      split
      · exact fresh
      · next missed =>
          split
          · next measured reached done tested =>
              rw [testTarget_eq (Bool.eq_false_iff.mpr missed) done] at tested
              cases tested
              refine (fresh.measure done).keep ?_
              rw [measure_balancer]
              split
              · exact keeps_tryLimit
              · exact ⟨rfl, rfl, .inl rfl⟩
          · exact fresh

theorem fresh_start {controlLatency minTrialDelta minDuration : ℚ} {minNumSample : Nat} :
    (start (new controlLatency minTrialDelta minNumSample minDuration)).Fresh where
  exclusive := .inl rfl
  held := List.suffix_refl _
  runtimeSample := rfl
  sampled := fun some => absurd rfl some
  decisions := by
    intro decision member
    cases member

/-- Every decision uses measurements since the last change, in a run in which
each change finds the containers empty that it does not clear. -/
theorem decisions_fresh {controlLatency minTrialDelta minDuration : ℚ} {minNumSample : Nat}
    (clears : Transition.Permitted step Clears
      (start (new controlLatency minTrialDelta minNumSample minDuration)) calls) :
    ∀ decision ∈ (Transition.run step
        (start (new controlLatency minTrialDelta minNumSample minDuration)) calls).decisions,
      decision.IsFresh :=
  (@Transition.invariant_run _ _ step Clears _ calls Fresh (fun _ _ fresh clears => fresh.step clears)
    fresh_start clears).decisions

/-- The cap is set twice around a measurement that is too short to fill the buffer. -/
def capped (second : ℚ) : List Call :=
  [.powerCap (.value 200), .isRuntimeStable 1 (.value (1 / 10)), .powerCap (.value second),
    .isRuntimeStable 2 (.value (1 / 10))]

theorem decisions_fresh_same_cap :
    Decision.IsFresh ⟨.value (1 / 10), [1 / 10, 1 / 10], [1 / 10, 1 / 10]⟩ :=
  have clears : Transition.Permitted step Clears (start (new (45 / 1000) (1 / 8) 9 (1 / 4))) (capped 200) :=
    ⟨.inr rfl, trivial, .inl (by decide +kernel), trivial, trivial⟩
  decisions_fresh clears _ (by decide +kernel)

/-- A lower cap leaves the measurement in the vector. -/
theorem not_decisions_fresh_lowered :
    ¬ ∀ decision ∈ (Transition.run step (start (new (45 / 1000) (1 / 8) 9 (1 / 4))) (capped 100)).decisions,
      decision.IsFresh := by
  intro all
  have mixed : (⟨.value (1 / 10), [1 / 10, 1 / 10], [1 / 10]⟩ : Decision) ∈
      (Transition.run step (start (new (45 / 1000) (1 / 8) 9 (1 / 4))) (capped 100)).decisions := by
    decide +kernel
  exact absurd (all _ mixed).2.length_le (by decide)

end History

end PowerBalancer

end Geopm
