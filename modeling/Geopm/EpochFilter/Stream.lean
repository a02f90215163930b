import Geopm.EpochFilter.Filter

namespace Geopm

namespace EpochFilter

/-! A stream of records that passes a filter, and the validator before and behind it. -/

/-- Each record passes the filter. -/
def passAll (filter : EpochFilter) : List Record →
    Except ValidateError (List (List Record) × EpochFilter)
  | [] => .ok ([], filter)
  | record :: rest => do
      let (out, filter) ← filter.filter record
      let (outs, filter) ← filter.passAll rest
      pure (out :: outs, filter)

/-- What becomes of a record, apart from the number of the epoch. -/
inductive Placed (record : Record) : List Record → Prop where
  | removed (epoch : record.event = .epochCount) : Placed record []
  | alone (other : record.event ≠ .epochCount) : Placed record [record]
  | marked (entry : record.event = .regionEntry) (number : Nat) :
      Placed record [record, { record with event := .epochCount, signal := number }]

/-- The signals of the epochs of a stream. -/
def epochSignals (records : List Record) : List Nat :=
  (records.filter (·.event = .epochCount)).map Record.signal

/-- The stream without its epochs. -/
def others (records : List Record) : List Record := records.filter (·.event ≠ .epochCount)

/-- What the filters promise of a stream. -/
structure Preserves (records : List Record) (outs : List (List Record)) : Prop where
  accepted : ∃ valid, ValidateRecord.new.checkAll outs.flatten = .ok valid
  unchanged : others outs.flatten = others records
  numbered : ∃ epochs, epochSignals outs.flatten = List.range' 1 epochs
  placed : List.Forall₂ Placed records outs

/-- What a filter returns for a stream. -/
inductive PassesAll : Nat → List Record → List (List Record) → Nat → Prop where
  | nil (count : Nat) : PassesAll count [] [] count
  | cons {count middle after : Nat} {record : Record} {rest : List Record} {out : List Record}
      {outs : List (List Record)} (head : Passes count record out middle)
      (tail : PassesAll middle rest outs after) : PassesAll count (record :: rest) (out :: outs) after

variable {filter final : EpochFilter} {record : Record} {records out : List Record}
  {outs : List (List Record)} {count after : Nat}

theorem Passes.placed (passes : Passes count record out after) : Placed record out := by
  cases passes with
  | dropped epoch => exact .removed epoch
  | kept other => exact .alone other
  | marked entry => exact .marked entry _

theorem Passes.others (passes : Passes count record out after) : others out = others [record] := by
  cases passes with
  | dropped epoch => simp [EpochFilter.others, epoch]
  | kept other => rfl
  | marked entry => simp [EpochFilter.others, entry]

theorem Passes.epochSignals (passes : Passes count record out after) :
    count ≤ after ∧ epochSignals out = List.range' (count + 1) (after - count) := by
  cases passes with
  | dropped epoch => simp [EpochFilter.epochSignals]
  | kept other => simp [EpochFilter.epochSignals, other]
  | marked entry => simp [EpochFilter.epochSignals, entry]

theorem others_append (left right : List Record) :
    others (left ++ right) = others left ++ others right := List.filter_append ..

theorem epochSignals_append (left right : List Record) :
    epochSignals (left ++ right) = epochSignals left ++ epochSignals right := by
  rw [epochSignals, List.filter_append, List.map_append]
  rfl

namespace PassesAll

theorem placed (passes : PassesAll count records outs after) : List.Forall₂ Placed records outs := by
  induction passes with
  | nil count => exact .nil
  | cons head tail ih => exact .cons head.placed ih

theorem others (passes : PassesAll count records outs after) :
    others outs.flatten = others records := by
  induction passes with
  | nil count => rfl
  | @cons count middle after record rest out outs head tail ih =>
      rw [List.flatten_cons, others_append, head.others, ih, ← others_append]
      rfl

theorem epochSignals (passes : PassesAll count records outs after) :
    count ≤ after ∧ epochSignals outs.flatten = List.range' (count + 1) (after - count) := by
  induction passes with
  | nil count => simp [EpochFilter.epochSignals]
  | @cons count middle after record rest out outs head tail ih =>
      obtain ⟨first, signals⟩ := head.epochSignals
      obtain ⟨second, following⟩ := ih
      refine ⟨first.trans second, ?_⟩
      rw [List.flatten_cons, epochSignals_append, signals, following]
      rw [show after - count = (middle - count) + (after - middle) by omega, ← List.range'_append_1]
      congr 2
      omega

end PassesAll

/-- A filter that can take all records passes them. -/
theorem passAll_ok (numbered : filter.Numbered count)
    (able : filter.Supplied ∨ ∀ record ∈ records, record.event ≠ .regionEntry) :
    ∃ outs final after, filter.passAll records = .ok (outs, final) ∧
      PassesAll count records outs after ∧ final.Numbered after := by
  induction records generalizing filter count with
  | nil => exact ⟨[], filter, count, rfl, .nil count, numbered⟩
  | cons record rest ih =>
      obtain ⟨out, next, middle, done, passes, counted, supplied⟩ :=
        filter_passes numbered (able.imp_right fun absent => absent record (by simp))
      obtain ⟨outs, final, after, others, passesRest, last⟩ := ih counted
        (able.imp supplied fun absent record member => absent record (by simp [member]))
      refine ⟨out :: outs, final, after, ?_, .cons passes passesRest, last⟩
      simp only [passAll, done, others, bind, Except.bind, pure, Except.pure]

/-- Without a history a stream passes only up to its first entry record. -/
theorem passAll_historyless (empty : filter.Historyless)
    (passed : filter.passAll records = .ok (outs, final)) :
    ∀ record ∈ records, record.event ≠ .regionEntry := by
  induction records generalizing filter outs final with
  | nil => simp
  | cons record rest ih =>
      obtain ⟨refused, taken⟩ := @filter_historyless record filter empty
      have other : record.event ≠ .regionEntry := by
        intro entry
        simp [passAll, refused entry, bind, Except.bind] at passed
      obtain ⟨out, next, done, still⟩ := taken other
      simp only [passAll, done, bind, Except.bind] at passed
      cases rested : next.passAll rest with
      | error reason => simp [rested] at passed
      | ok result =>
          intro candidate member
          obtain rfl | later := List.mem_cons.mp member
          · exact other
          · exact ih still rested candidate later

end EpochFilter

namespace ValidateRecord

open EpochFilter (Passes PassesAll)

variable {valid next behind : ValidateRecord} {record : Record} {records out : List Record}
  {outs : List (List Record)} {count after : Nat}

/-- A record that is no epoch is judged by the region, and changes the region only. -/
theorem checkEvent_other (other : record.event ≠ .epochCount)
    (same : behind.regionHash = valid.regionHash) (checked : valid.checkEvent record = .ok next) :
    behind.checkEvent record = .ok (behind.setRegionHash next.regionHash) ∧
      next = valid.setRegionHash next.regionHash := by
  unfold checkEvent at checked ⊢
  split at checked
  case h_4 => exact absurd ‹_› other
  case h_2 =>
    cases named : validateHash record.signal with
    | error reason => simp [named, Bind.bind, Except.bind] at checked
    | ok _ =>
        simp only [named, same, Bind.bind, Except.bind] at checked ⊢
        split at checked
        · simp at checked
        · obtain rfl := Except.ok.inj checked
          exact ⟨if_neg ‹_›, rfl⟩
  case h_3 =>
    cases named : validateHash record.signal with
    | error reason => simp [named, Bind.bind, Except.bind] at checked
    | ok _ =>
        simp only [named, same, Bind.bind, Except.bind] at checked ⊢
        split at checked
        · simp at checked
        · split at checked
          · simp at checked
          · obtain rfl := Except.ok.inj checked
            exact ⟨by rw [if_neg ‹_›, if_neg ‹_›]; rfl, rfl⟩
  case h_1 =>
    split at checked
    · simp at checked
    · obtain rfl := Except.ok.inj checked
      exact ⟨by rw [if_neg ‹_›, setRegionHash, ← same], rfl⟩
  case h_5 =>
    obtain rfl := Except.ok.inj checked
    exact ⟨by rw [setRegionHash, ← same], rfl⟩

theorem check_result (checked : valid.check record = .ok next) :
    next.isEmpty = false ∧ next.time = some record.time ∧ next.process = record.process := by
  obtain ⟨same, _, switched⟩ := check_ok checked
  obtain ⟨_, time, process⟩ := checkEvent_ok switched
  exact ⟨check_nonempty checked, time, process.trans same.symm⟩

/-- The validator behind the filter, and the one in front of it. -/
structure Trails (behind valid : ValidateRecord) (count : Nat) : Prop where
  source : valid.isEmpty = true → valid = new
  blank : behind.isEmpty = true → behind = new
  process : behind.isEmpty = false → valid.isEmpty = false ∧ behind.process = valid.process
  time : behind.isEmpty = false → ∃ seen last, behind.time = some seen ∧ valid.time = some last ∧
    seen ≤ last
  epochCount : behind.epochCount = count
  regionHash : behind.regionHash = valid.regionHash

namespace Trails

/-- What is accepted in front is on time behind as well. -/
theorem admits (trails : behind.Trails valid count) (checked : valid.check record = .ok next) :
    behind.Admits record := by
  obtain ⟨same, ordered, _⟩ := check_ok checked
  constructor
  · intro nonempty
    obtain ⟨started, process⟩ := trails.process nonempty
    rw [process, same, start, if_neg (by simp [started])]
  · intro nonempty
    obtain ⟨started, _⟩ := trails.process nonempty
    obtain ⟨seen, last, known, latest, before⟩ := trails.time nonempty
    rw [start, if_neg (by simp [started]), latest] at ordered
    refine ⟨seen, known, before.trans ?_⟩
    simpa using ordered

theorem advance (trails : behind.Trails valid count) (record : Record) :
    behind.advance record = ⟨false, some record.time,
      if behind.isEmpty then record.process else behind.process, count, valid.regionHash⟩ := by
  rw [ValidateRecord.advance, start]
  cases empty : behind.isEmpty with
  | true =>
      have blank := trails.blank empty
      rw [← trails.epochCount, ← trails.regionHash, blank]
      rfl
  | false =>
      rw [← trails.epochCount, ← trails.regionHash]
      simp [empty]

theorem source_regionHash (trails : behind.Trails valid count) (record : Record) :
    (valid.advance record).regionHash = valid.regionHash := by
  rw [ValidateRecord.advance, start]
  split
  · rw [trails.source ‹_›]
    rfl
  · rfl

/-- A record that is no epoch is accepted behind the filter. -/
theorem kept (trails : behind.Trails valid count) (other : record.event ≠ .epochCount)
    (checked : valid.check record = .ok next) :
    ∃ reached, behind.check record = .ok reached ∧ reached.Trails next count := by
  obtain ⟨nonempty, time, process⟩ := check_result checked
  have admitted := trails.admits checked
  have entered := trails.advance record
  have same : (behind.advance record).regionHash = (valid.advance record).regionHash := by
    rw [entered, trails.source_regionHash record]
  obtain ⟨accepted, _⟩ := checkEvent_other other same (check_ok checked).2.2
  refine ⟨_, (admitted.check).trans accepted, ?_⟩
  rw [entered]
  constructor
  · simp [nonempty]
  · simp [setRegionHash]
  · intro _
    refine ⟨nonempty, ?_⟩
    simp only [setRegionHash, process]
    split
    · rfl
    · exact (admitted.process (by simpa using ‹¬ behind.isEmpty = true›)).symm
  · exact fun _ => ⟨record.time, record.time, rfl, time, le_refl _⟩
  · rfl
  · rfl

/-- An epoch that is removed leaves the validator behind where it was. -/
theorem dropped (trails : behind.Trails valid count) (epoch : record.event = .epochCount)
    (checked : valid.check record = .ok next) : behind.Trails next count := by
  obtain ⟨nonempty, time, process⟩ := check_result checked
  have admitted := trails.admits checked
  constructor
  · simp [nonempty]
  · exact trails.blank
  · intro started
    exact ⟨nonempty, (admitted.process started).symm.trans process.symm⟩
  · intro started
    obtain ⟨seen, known, before⟩ := admitted.time started
    exact ⟨seen, record.time, known, time, before⟩
  · exact trails.epochCount
  · rw [trails.regionHash, ← trails.source_regionHash record]
    have switched := (check_ok checked).2.2
    simp only [checkEvent, epoch] at switched
    split at switched
    · simp at switched
    · rw [← Except.ok.inj switched]

/-- The epoch that a filter makes of the last record is accepted. -/
theorem marked (trails : behind.Trails next count) (nonempty : behind.isEmpty = false)
    (checked : next.time = some record.time ∧ next.process = record.process) :
    ∃ reached, behind.check { record with event := .epochCount, signal := count + 1 } =
      .ok reached ∧ reached.Trails next (count + 1) := by
  obtain ⟨time, process⟩ := checked
  obtain ⟨started, named⟩ := trails.process nonempty
  obtain ⟨seen, last, known, latest, before⟩ := trails.time nonempty
  obtain rfl : last = record.time := by simpa [latest] using time
  have admitted : behind.Admits { record with event := .epochCount, signal := count + 1 } :=
    ⟨fun _ => process.symm.trans named.symm, fun _ => ⟨seen, known, before⟩⟩
  rw [admitted.check, ValidateRecord.advance, start, if_neg (by simp [nonempty])]
  refine ⟨_, if_neg (by simp [trails.epochCount]), ?_⟩
  constructor
  · exact fun empty => absurd empty (by simp [started])
  · exact fun empty => absurd empty (by simp [nonempty])
  · exact fun _ => ⟨started, named⟩
  · exact fun _ => ⟨record.time, record.time, rfl, latest, le_refl _⟩
  · rfl
  · exact trails.regionHash

theorem step (trails : behind.Trails valid count) (passes : Passes count record out after)
    (checked : valid.check record = .ok next) :
    ∃ reached, behind.checkAll out = .ok reached ∧ reached.Trails next after := by
  cases passes with
  | dropped epoch => exact ⟨behind, rfl, trails.dropped epoch checked⟩
  | kept other =>
      obtain ⟨reached, accepted, still⟩ := trails.kept other checked
      exact ⟨reached, (checkAll_concat checkAll_nil record).trans accepted, still⟩
  | marked entry =>
      obtain ⟨middle, accepted, still⟩ := trails.kept (by simp [entry]) checked
      obtain ⟨reached, counted, last⟩ :=
        still.marked (check_nonempty accepted) (check_result checked).2
      refine ⟨reached, ?_, last⟩
      rw [checkAll_cons, accepted]
      exact (checkAll_concat checkAll_nil _).trans counted

theorem run (trails : behind.Trails valid count) (passes : PassesAll count records outs after)
    (checked : valid.checkAll records = .ok next) :
    ∃ reached, behind.checkAll outs.flatten = .ok reached ∧ reached.Trails next after := by
  induction passes generalizing behind valid with
  | nil count =>
      obtain rfl := Except.ok.inj checked
      exact ⟨behind, rfl, trails⟩
  | @cons count middle after record rest out outs head tail ih =>
      rw [checkAll_cons] at checked
      obtain ⟨between, first, others⟩ := Transition.ok_of_bind checked
      obtain ⟨reached, accepted, still⟩ := trails.step head first
      obtain ⟨last, following, ends⟩ := ih still others
      refine ⟨last, ?_, ends⟩
      rw [List.flatten_cons, checkAll_append, accepted]
      exact following

theorem initial : new.Trails new 0 :=
  ⟨fun _ => rfl, fun _ => rfl, fun started => absurd started (by simp [new]),
    fun started => absurd started (by simp [new]), rfl, rfl⟩

end Trails

end ValidateRecord

namespace EpochFilter

variable {params : FilterParams} {filter final : EpochFilter} {valid : ValidateRecord}
  {records : List Record} {outs : List (List Record)} {after : Nat}

theorem PassesAll.preserves (passes : PassesAll 0 records outs after)
    (checked : ValidateRecord.new.checkAll records = .ok valid) : Preserves records outs where
  accepted := by
    obtain ⟨reached, accepted, _⟩ := ValidateRecord.Trails.initial.run passes checked
    exact ⟨reached, accepted⟩
  unchanged := passes.others
  numbered := ⟨after, passes.epochSignals.2⟩
  placed := passes.placed

/-- A history of size zero is of use only as long as no region is entered. -/
def Usable (records : List Record) : FilterParams → Prop
  | .proxyEpoch _ _ _ => True
  | .editDistance historyBufferSize _ _ _ _ =>
      0 < historyBufferSize ∨ ∀ record ∈ records, record.event ≠ .regionEntry

instance (records : List Record) : ∀ params, Decidable (Usable records params)
  | .proxyEpoch _ _ _ => inferInstanceAs (Decidable True)
  | .editDistance _ _ _ _ _ => inferInstanceAs (Decidable (_ ∨ _))

theorem new_supplied (created : new params = .ok filter) (usable : Usable records params) :
    filter.Supplied ∨ ∀ record ∈ records, record.event ≠ .regionEntry := by
  cases params with
  | proxyEpoch regionHash callsPerEpoch startupCount =>
      simp only [new] at created
      cases proxy : ProxyEpochRecordFilter.new regionHash callsPerEpoch startupCount with
      | error reason => simp [proxy, Except.map] at created
      | ok value =>
          rw [proxy] at created
          obtain rfl := Except.ok.inj created
          exact .inl trivial
  | editDistance size base detectable stable unstable =>
      refine usable.imp_left fun positive => ?_
      obtain ⟨edpd, detector, rfl⟩ := new_editDistance created
      exact PeriodicityDetector.new_sound detector positive

theorem new_historyless {size base detectable : Int} {stable unstable : Rat}
    (created : new (.editDistance size base detectable stable unstable) = .ok filter)
    (empty : size ≤ 0) : filter.Historyless := by
  obtain ⟨edpd, detector, rfl⟩ := new_editDistance created
  exact (PeriodicityDetector.new_maxSize detector).trans (Int.toNat_of_nonpos empty)

/-- Of a stream that is valid a filter makes one that is, if its history can take the
regions. -/
theorem passAll_preserves_iff (created : new params = .ok filter)
    (checked : ValidateRecord.new.checkAll records = .ok valid) :
    (∃ outs final, filter.passAll records = .ok (outs, final) ∧ Preserves records outs) ↔
      Usable records params := by
  have numbered := new_numbered created
  constructor
  · rintro ⟨outs, final, passed, _⟩
    cases params with
    | proxyEpoch regionHash callsPerEpoch startupCount => trivial
    | editDistance size base detectable stable unstable =>
        by_cases positive : 0 < size
        · exact .inl positive
        · exact .inr (passAll_historyless (new_historyless created (by omega)) passed)
  · intro usable
    obtain ⟨outs, final, after, passed, passes, _⟩ :=
      passAll_ok numbered (new_supplied created usable)
    exact ⟨outs, final, passed, passes.preserves checked⟩

/-- A valid stream, of which the filter makes an epoch. -/
theorem passAll_preserves_proxy :
    ∃ filter valid, new (.proxyEpoch 7 1 0) = .ok filter ∧
      ValidateRecord.new.checkAll [⟨0, 1, .regionEntry, 7⟩, ⟨1, 1, .regionExit, 7⟩] = .ok valid ∧
      ∃ outs final, filter.passAll [⟨0, 1, .regionEntry, 7⟩, ⟨1, 1, .regionExit, 7⟩] =
        .ok (outs, final) ∧ Preserves [⟨0, 1, .regionEntry, 7⟩, ⟨1, 1, .regionExit, 7⟩] outs :=
  ⟨.proxyEpoch ⟨7, 1, 0⟩, _, rfl, rfl,
    (passAll_preserves_iff (show new (.proxyEpoch 7 1 0) = .ok _ from rfl) rfl).mpr trivial⟩

/-- A history of size zero is accepted by the constructor, but no region can be entered. -/
theorem passAll_historyless_entry :
    ∃ filter valid, new (.editDistance 0 4 3 1 1) = .ok filter ∧
      ValidateRecord.new.checkAll [⟨0, 1, .regionEntry, 7⟩] = .ok valid ∧
      ¬ ∃ outs final, filter.passAll [⟨0, 1, .regionEntry, 7⟩] = .ok (outs, final) ∧
        Preserves [⟨0, 1, .regionEntry, 7⟩] outs := by
  refine ⟨_, _, rfl, rfl, ?_⟩
  rintro ⟨outs, final, passed, _⟩
  exact passAll_historyless (new_historyless rfl (le_refl 0)) passed ⟨0, 1, .regionEntry, 7⟩
    (by simp) rfl

end EpochFilter

end Geopm
