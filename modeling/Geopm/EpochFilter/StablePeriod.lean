import Geopm.EpochFilter.NamedFilter
import Mathlib.Tactic.Linarith
import Mathlib.Data.Rat.Floor

namespace Geopm

/-! When a period that is reported again and again is detected. -/

namespace EditDistEpochRecordFilter

/-- The detector reports a period of good quality at each entry of a region, of which there is the
given number. -/
inductive Reports (period : Int) : PeriodicityDetector → List Record → Nat → Prop where
  | nil (detector : PeriodicityDetector) : Reports period detector [] 0
  | other {detector : PeriodicityDetector} {record : Record} {rest : List Record} {entries : Nat}
      (other : record.event ≠ .regionEntry) (tail : Reports period detector rest entries) :
      Reports period detector (record :: rest) entries
  | entry {detector next : PeriodicityDetector} {record : Record} {rest : List Record}
      {entries : Nat} (entry : record.event = .regionEntry)
      (updated : detector.update record = .ok next) (reported : next.period = period)
      (quality : next.score < period) (tail : Reports period next rest entries) :
      Reports period detector (record :: rest) (entries + 1)

/-- A state that a filter reaches. -/
def Reached (filter : EditDistEpochRecordFilter) : Prop :=
  ∃ size base detectable stable unstable fresh records outs,
    new size base detectable stable unstable = .ok fresh ∧
      (EpochFilter.editDistance fresh).passAll records = .ok (outs, .editDistance filter)

/-- How often the period was reported again, once it is reported next. -/
def countAfter (filter : EditDistEpochRecordFilter) (period : Int) : Int :=
  if period = filter.lastPeriod then filter.periodStable + 1 else 0

variable {filter next : EditDistEpochRecordFilter} {edpd : PeriodicityDetector} {record : Record}
  {records out : List Record} {period : Int} {entries : Nat}

theorem trackPeriod_periodStable (counted : 0 ≤ filter.periodStable) :
    0 ≤ filter.trackPeriod.periodStable := by
  unfold trackPeriod
  split
  · exact le_refl 0
  · split
    · simp only
      omega
    · exact le_refl 0

theorem epochDetected_periodStable (counted : 0 ≤ filter.periodStable) :
    0 ≤ filter.epochDetected.2.periodStable := by
  unfold epochDetected
  split
  · unfold epochUndetected
    simp only
    split
    · exact le_refl 0
    · exact trackPeriod_periodStable counted
  · unfold epochExpected
    simp only
    generalize (if filter.edpd.period = filter.lastPeriod then 0
      else filter.periodUnstable + 1) = unstable
    split
    · exact counted
    · split <;> exact counted

theorem filter_periodStable (counted : 0 ≤ filter.periodStable)
    (passed : filter.filter record = .ok (out, next)) : 0 ≤ next.periodStable := by
  rw [EditDistEpochRecordFilter.filter] at passed
  split at passed
  · split at passed
    · obtain ⟨edpd, _, passed⟩ := Transition.ok_of_bind passed
      have kept : 0 ≤ ({ filter with edpd }).epochDetected.2.periodStable :=
        epochDetected_periodStable counted
      simp only at passed
      split at passed
      · obtain ⟨-, rfl⟩ := Prod.mk.inj (Except.ok.inj passed)
        exact kept
      · obtain ⟨-, rfl⟩ := Prod.mk.inj (Except.ok.inj passed)
        exact kept
    · obtain ⟨-, rfl⟩ := Prod.mk.inj (Except.ok.inj passed)
      exact counted
  · obtain ⟨-, rfl⟩ := Prod.mk.inj (Except.ok.inj passed)
    exact counted

theorem passAll_periodStable {outs : List (List Record)} (counted : 0 ≤ filter.periodStable)
    (passed : (EpochFilter.editDistance filter).passAll records = .ok (outs, .editDistance next)) :
    0 ≤ next.periodStable := by
  induction records generalizing filter outs with
  | nil =>
      obtain ⟨-, same⟩ := Prod.mk.inj (Except.ok.inj passed)
      obtain rfl := EpochFilter.editDistance.inj same
      exact counted
  | cons record rest ih =>
      obtain ⟨⟨out, middle⟩, first, passed⟩ := Transition.ok_of_bind passed
      obtain ⟨⟨later, last⟩, others, passed⟩ := Transition.ok_of_bind passed
      obtain ⟨-, rfl⟩ := Prod.mk.inj (Except.ok.inj passed)
      simp only [EpochFilter.filter] at first
      cases taken : filter.filter record with
      | error reason => simp [taken] at first
      | ok result =>
          simp only [taken] at first
          obtain ⟨-, rfl⟩ := Prod.mk.inj (Except.ok.inj first)
          exact ih (filter_periodStable counted taken) others

theorem Reached.periodStable (reached : filter.Reached) : 0 ≤ filter.periodStable := by
  obtain ⟨size, base, detectable, stable, unstable, fresh, records, outs, created, passed⟩ := reached
  refine passAll_periodStable ?_ passed
  rw [new] at created
  cases made : PeriodicityDetector.new size with
  | error reason => simp [made, Except.map] at created
  | ok edpd =>
      simp only [made, Except.map] at created
      obtain rfl := Except.ok.inj created
      exact le_refl 0

theorem filter_other (other : record.event ≠ .regionEntry) :
    ∃ out, filter.filter record = .ok (out, filter) := by
  rw [EditDistEpochRecordFilter.filter, if_neg other]
  split
  · exact ⟨[record], rfl⟩
  · exact ⟨[], rfl⟩

/-- The count of a short period is compared with a product that is not always a whole number, and
that it may have passed. -/
def Reaches (filter : EditDistEpochRecordFilter) (period : Int) : Prop :=
  filter.minHysteresisBasePeriod < period ∨ ∃ count : Int,
    (count : ℚ) = filter.stablePeriodHysteresis * filter.minHysteresisBasePeriod ∧
      filter.countAfter period ≤ count

theorem eq_ok_get {Error Value : Type} {result : Except Error Value}
    (taken : result.toOption.isSome = true) : result = .ok (result.toOption.get taken) := by
  cases result with
  | error reason => cases taken
  | ok value => rfl

theorem Reports.taken {detector : PeriodicityDetector} {rest : List Record}
    (entry : record.event = .regionEntry)
    (taken : (detector.update record).toOption.isSome = true)
    (reported : ((detector.update record).toOption.get taken).period = period)
    (quality : ((detector.update record).toOption.get taken).score < period)
    (tail : Reports period ((detector.update record).toOption.get taken) rest entries) :
    Reports period detector (record :: rest) (entries + 1) :=
  .entry entry (eq_ok_get taken) reported quality tail

end EditDistEpochRecordFilter

end Geopm
