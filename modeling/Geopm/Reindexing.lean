import Geopm.ApplicationSampler
import Geopm.EpochFilter.Stream
import Mathlib.Data.List.Forall2

namespace Geopm

open LogView (shortSignals shortSignals_append getElem?_of_prefix)

/-! The short regions of many processes in the buffers of the sampler. -/

namespace EpochFilter

variable {filter next : EpochFilter} {record : Record} {out : List Record}

theorem ProxyEpoch.placed (proxy : ProxyEpochRecordFilter) (record : Record) :
    Placed record (proxy.filter record).1 := by
  unfold ProxyEpochRecordFilter.filter
  by_cases epoch : record.event = .epochCount
  · rw [if_neg (not_not.mpr epoch)]
    exact .removed epoch
  · rw [if_pos epoch]
    by_cases matching : record.event = .regionEntry ∧ record.signal = proxy.proxyHash
    · rw [if_pos matching]
      simp only
      split
      · exact .marked matching.1 _
      · exact .alone epoch
    · rw [if_neg matching]
      exact .alone epoch

theorem EditDist.placed {editDist last : EditDistEpochRecordFilter}
    (filtered : editDist.filter record = .ok (out, last)) : Placed record out := by
  unfold EditDistEpochRecordFilter.filter at filtered
  by_cases epoch : record.event = .epochCount
  · rw [if_neg (not_not.mpr epoch)] at filtered
    obtain ⟨rfl, _⟩ := Prod.mk.inj (Except.ok.inj filtered)
    exact .removed epoch
  · rw [if_pos epoch] at filtered
    by_cases entry : record.event = .regionEntry
    · rw [if_pos entry] at filtered
      obtain ⟨edpd, _, rest⟩ := Transition.ok_of_bind filtered
      simp only [pure, Except.pure] at rest
      split at rest
      · obtain ⟨rfl, _⟩ := Prod.mk.inj (Except.ok.inj rest)
        exact .marked entry _
      · obtain ⟨rfl, _⟩ := Prod.mk.inj (Except.ok.inj rest)
        exact .alone epoch
    · rw [if_neg entry] at filtered
      obtain ⟨rfl, _⟩ := Prod.mk.inj (Except.ok.inj filtered)
      exact .alone epoch

/-- In whatever state a filter is, it passes the record or removes an epoch. -/
theorem filter_placed (filtered : filter.filter record = .ok (out, next)) : Placed record out := by
  cases filter with
  | proxyEpoch proxy =>
      obtain ⟨rfl, _⟩ := Prod.mk.inj (Except.ok.inj filtered)
      exact ProxyEpoch.placed proxy record
  | editDistance editDist =>
      rw [EpochFilter.filter] at filtered
      split at filtered
      · simp at filtered
      · obtain ⟨rfl, _⟩ := Prod.mk.inj (Except.ok.inj filtered)
        exact EditDist.placed ‹_›

/-- A filter neither drops nor makes short region events. -/
theorem Placed.shortSignals (placed : Placed record out) :
    LogView.shortSignals out = LogView.shortSignals [record] := by
  cases placed with
  | removed epoch => simp [LogView.shortSignals, epoch]
  | alone other => rfl
  | marked entry number => simp [LogView.shortSignals, entry]

end EpochFilter

namespace Process

/-- The vectors that the log of a process returns. -/
def records (process : Process EpochFilter) : List Record := process.recordLog.dump.1.1

def shortRegions (process : Process EpochFilter) : List ShortRegion := process.recordLog.dump.1.2

/-- A process with its log cleared by the dump. -/
def drained (process : Process EpochFilter) : Process EpochFilter :=
  { process with recordLog := process.recordLog.dump.2 }

/-- What becomes of a record. -/
def Emits (process : Process EpochFilter) (record : Record) (out : List Record) : Prop :=
  if process.filter.isSome then EpochFilter.Placed record out else out = [record]

/-- A log with one short region for each event, and a process that accepts its records. -/
structure Mergeable (process : Process EpochFilter) : Prop where
  filters : ∀ filter, process.filter = some filter → filter.filter = EpochFilter.filter
  signals : (shortSignals process.records).Perm (List.range process.shortRegions.length)
  accepted : (process.drained.collect process.records).isOk = true

variable {process next : Process EpochFilter} {records out : List Record}

theorem collect_emits
    (filters : ∀ filter, process.filter = some filter → filter.filter = EpochFilter.filter)
    (collected : process.collect records = .ok (next, out)) :
    ∃ outs, List.Forall₂ process.Emits records outs ∧ out = outs.flatten := by
  induction records generalizing process out with
  | nil =>
      obtain ⟨rfl, rfl⟩ := Prod.mk.inj (Except.ok.inj collected)
      exact ⟨[], .nil, rfl⟩
  | cons record rest ih =>
      obtain ⟨filter, valid, recordLog⟩ := process
      cases filter with
      | none =>
          obtain ⟨checked, _, following⟩ := Transition.ok_of_bind collected
          obtain ⟨middle, made, rested⟩ := Transition.ok_of_bind following
          obtain rfl := Except.ok.inj made
          obtain ⟨⟨last, others⟩, remaining, ends⟩ := Transition.ok_of_bind rested
          obtain ⟨rfl, rfl⟩ := Prod.mk.inj (Except.ok.inj ends)
          obtain ⟨outs, emits, rfl⟩ := @ih ⟨none, checked, recordLog⟩ others filters remaining
          exact ⟨[record] :: outs, .cons rfl emits, rfl⟩
      | some filter =>
          obtain ⟨⟨middle, first⟩, done, following⟩ := Transition.ok_of_bind collected
          obtain ⟨⟨last, others⟩, remaining, ends⟩ := Transition.ok_of_bind following
          obtain ⟨rfl, rfl⟩ := Prod.mk.inj (Except.ok.inj ends)
          obtain ⟨⟨filtered, state⟩, passed, checks⟩ := Transition.ok_of_bind done
          obtain ⟨checked, _, made⟩ := Transition.ok_of_bind checks
          obtain ⟨rfl, rfl⟩ := Prod.mk.inj (Except.ok.inj made)
          have same := filters filter rfl
          rw [same] at passed
          obtain ⟨outs, emits, rfl⟩ := ih (by rintro _ ⟨⟩; exact same) remaining
          exact ⟨filtered :: outs, .cons (EpochFilter.filter_placed passed) emits, rfl⟩

theorem Emits.shortSignals {outs : List (List Record)}
    (emits : List.Forall₂ process.Emits records outs) :
    LogView.shortSignals outs.flatten = LogView.shortSignals records := by
  induction emits with
  | nil => rfl
  | @cons record out rest outs head tail ih =>
      have first : LogView.shortSignals out = LogView.shortSignals [record] := by
        rw [Emits] at head
        split at head
        · exact head.shortSignals
        · rw [head]
      rw [List.flatten_cons, LogView.shortSignals_append, first, ih,
        ← LogView.shortSignals_append]
      rfl

end Process

/-- A record of the common buffer, and the process and the record that it is made of. -/
structure Resolves (before : ApplicationSampler EpochFilter) (buffer : List ShortRegion)
    (origin : Int × Record) (record : Record) : Prop where
  time : record.time = origin.2.time
  process : record.process = origin.2.process
  event : record.event = origin.2.event
  other : origin.2.event ≠ .shortRegion → record.signal = origin.2.signal
  short : origin.2.event = .shortRegion → ∃ region,
    (before.processMap origin.1).shortRegions[origin.2.signal]? = some region ∧
      buffer[record.signal]? = some region

namespace ApplicationSampler

/-- `get_short_region`. -/
def getShortRegion (sampler : ApplicationSampler EpochFilter) (eventSignal : Nat) :
    Except AggregatorError ShortRegion :=
  match sampler.shortRegionBuffer[eventSignal]? with
  | some region => .ok region
  | none => .error .noShortRegion

/-- The records that come from each process, and the process. -/
def origins (keys : List Int) (outs : Int → List (List Record)) : List (Int × Record) :=
  keys.flatMap fun key => (outs key).flatten.map fun record => (key, record)

/-- The short regions that the processes have dumped. -/
def dumpedRegions (sampler : ApplicationSampler EpochFilter) (keys : List Int) : List ShortRegion :=
  keys.flatMap fun key => (sampler.processMap key).shortRegions

/-- What the loop of `update` appends to the buffers, for the processes of the given keys. -/
structure Appends (start before after : ApplicationSampler EpochFilter) (keys : List Int)
    (outs : Int → List (List Record)) (records : List Record) : Prop where
  recordBuffer : after.recordBuffer = before.recordBuffer ++ records
  shortRegionBuffer : after.shortRegionBuffer =
    before.shortRegionBuffer ++ start.dumpedRegions keys
  emitted : ∀ key ∈ keys, List.Forall₂ (start.processMap key).Emits
    (start.processMap key).records (outs key)
  resolved : List.Forall₂ (Resolves start after.shortRegionBuffer) (origins keys outs) records
  reached : (shortSignals records).Perm
    (List.range' before.shortRegionBuffer.length (start.dumpedRegions keys).length)

variable {before middle after : ApplicationSampler EpochFilter} {key : Int} {keys : List Int}
  {outs : Int → List (List Record)} {records : List Record}

/-- The events that are left have a short region each, so all of them are moved. -/
theorem updateProcess_merges (mergeable : (before.processMap key).Mergeable) :
    ∃ next outs, before.updateProcess key = .ok next ∧
      (∀ other, other ≠ key → next.processMap other = before.processMap other) ∧
      next.recordBuffer = before.recordBuffer ++
        outs.flatten.map (Record.shift before.shortRegionBuffer.length) ∧
      next.shortRegionBuffer = before.shortRegionBuffer ++ (before.processMap key).shortRegions ∧
      List.Forall₂ (before.processMap key).Emits (before.processMap key).records outs := by
  obtain ⟨filters, signals, accepted⟩ := mergeable
  cases collected : (before.processMap key).drained.collect (before.processMap key).records with
  | error reason => simp [collected, Except.isOk, Except.toBool] at accepted
  | ok result =>
      obtain ⟨process, out⟩ := result
      obtain ⟨outs, emits, rfl⟩ :=
        @Process.collect_emits (before.processMap key).drained _ _ _ filters collected
      change List.Forall₂ (before.processMap key).Emits _ _ at emits
      have enough : outs.flatten.countP (·.event = .shortRegion) ≤
          (before.processMap key).shortRegions.length := by
        have lengths := signals.length_eq
        rw [← Process.Emits.shortSignals emits, shortSignals, List.length_map,
          ← List.countP_eq_length_filter, List.length_range] at lengths
        exact lengths.le
      have updated : before.updateProcess key = .ok { before with
          processMap := Function.update before.processMap key process
          recordBuffer := before.recordBuffer ++
            outs.flatten.map (Record.shift before.shortRegionBuffer.length)
          shortRegionBuffer := before.shortRegionBuffer ++
            (before.processMap key).shortRegions } := by
        rw [← reindex_eq _ enough]
        change Except.bind ((before.processMap key).drained.collect
          (before.processMap key).records) _ = _
        rw [collected]
        rfl
      exact ⟨_, outs, updated, fun other different => Function.update_of_ne different _ _, rfl, rfl,
        emits⟩

theorem shortSignals_shift (offset : Nat) (records : List Record) :
    shortSignals (records.map (Record.shift offset)) =
      (shortSignals records).map (offset + ·) := by
  induction records with
  | nil => rfl
  | cons record rest ih =>
      by_cases short : record.event = .shortRegion
      · simp only [shortSignals, List.map_cons, Record.shift, if_pos short] at ih ⊢
        simp [short, ih, Nat.add_comm]
      · simp only [shortSignals, List.map_cons, Record.shift, if_neg short] at ih ⊢
        simp [short, ih]

/-- The records of one process resolve to its own short regions. -/
theorem resolves_shift {taken buffer : List ShortRegion} {records : List Record}
    (signals : (shortSignals records).Perm
      (List.range (before.processMap key).shortRegions.length))
    (grown : taken ++ (before.processMap key).shortRegions <+: buffer) :
    List.Forall₂ (Resolves before buffer) (records.map fun record => (key, record))
      (records.map (Record.shift taken.length)) := by
  rw [List.forall₂_map_left_iff, List.forall₂_map_right_iff, List.forall₂_same]
  intro record member
  by_cases short : record.event = .shortRegion
  · rw [Record.shift, if_pos short]
    have bound : record.signal < (before.processMap key).shortRegions.length := by
      have signal : record.signal ∈ shortSignals records :=
        List.mem_map_of_mem (List.mem_filter.mpr ⟨member, by simp [short]⟩)
      simpa using signals.mem_iff.mp signal
    refine ⟨rfl, rfl, rfl, fun other => absurd short other,
      fun _ => ⟨_, List.getElem?_eq_getElem bound, ?_⟩⟩
    apply getElem?_of_prefix grown
    rw [Nat.add_comm, List.getElem?_append_right (Nat.le_add_right _ _), Nat.add_sub_cancel_left]
    exact List.getElem?_eq_getElem bound
  · rw [Record.shift, if_neg short]
    exact ⟨rfl, rfl, rfl, fun _ => rfl, fun other => absurd other short⟩

theorem loop_appends (start before : ApplicationSampler EpochFilter) (distinct : keys.Nodup)
    (same : ∀ key ∈ keys, before.processMap key = start.processMap key)
    (mergeable : ∀ key ∈ keys, (start.processMap key).Mergeable) :
    ∃ after outs records, keys.foldlM updateProcess before = .ok after ∧
      Appends start before after keys outs records := by
  induction keys generalizing before with
  | nil =>
      exact ⟨before, fun _ => [], [], rfl, by simp, by simp [dumpedRegions], by simp, .nil, by
        simp [shortSignals, dumpedRegions]⟩
  | cons key rest ih =>
      have fresh := (List.nodup_cons.mp distinct).1
      have apart : ∀ other ∈ rest, other ≠ key := by
        rintro other member rfl
        exact fresh member
      have first := same key (by simp)
      obtain ⟨middle, segment, updated, others, recordBuffer, shortRegionBuffer, emits⟩ :=
        @updateProcess_merges before key (first ▸ mergeable key (by simp))
      rw [first] at emits shortRegionBuffer
      obtain ⟨after, outs, records, looped, appends⟩ := ih middle (List.nodup_cons.mp distinct).2
        (by
          intro other member
          rw [others other (apart other member), same other (by simp [member])])
        (by
          intro other member
          exact mergeable other (by simp [member]))
      have signals : (shortSignals segment.flatten).Perm
          (List.range (start.processMap key).shortRegions.length) := by
        rw [Process.Emits.shortSignals emits]
        exact (mergeable key (by simp)).signals
      have unchanged : ∀ other ∈ rest, Function.update outs key segment other = outs other := by
        intro other member
        exact Function.update_of_ne (apart other member) _ _
      refine ⟨after, Function.update outs key segment,
        segment.flatten.map (Record.shift before.shortRegionBuffer.length) ++ records, ?_, ?_⟩
      · rw [List.foldlM_cons, updated]
        exact looped
      · constructor
        · rw [appends.recordBuffer, recordBuffer, List.append_assoc]
        · rw [appends.shortRegionBuffer, shortRegionBuffer, List.append_assoc]
          rfl
        · intro other member
          obtain rfl | member := List.mem_cons.mp member
          · rw [Function.update_self]
            exact emits
          · rw [unchanged other member]
            exact appends.emitted other member
        · have others : origins rest (Function.update outs key segment) = origins rest outs :=
            List.flatMap_congr fun other member => by rw [unchanged other member]
          have resolved : List.Forall₂ (Resolves start after.shortRegionBuffer)
              (segment.flatten.map fun record => (key, record))
              (segment.flatten.map (Record.shift before.shortRegionBuffer.length)) := by
            refine resolves_shift signals ?_
            rw [← shortRegionBuffer, appends.shortRegionBuffer]
            exact List.prefix_append _ _
          rw [origins, List.flatMap_cons, Function.update_self]
          refine List.rel_append resolved ?_
          rw [origins] at others
          rw [others]
          exact appends.resolved
        · have moved := signals.map (before.shortRegionBuffer.length + ·)
          have reached := appends.reached
          rw [List.range_eq_range', List.map_add_range', Nat.add_zero] at moved
          rw [shortRegionBuffer, List.length_append] at reached
          rw [shortSignals_append, shortSignals_shift, dumpedRegions, List.flatMap_cons,
            List.length_append, ← List.range'_append_1]
          exact moved.append reached

/-- The common buffers after `update`, and the vectors that were dumped. -/
structure Reindexes (before after : ApplicationSampler EpochFilter)
    (outs : Int → List (List Record)) : Prop where
  /-- what becomes of each record of each process, in order -/
  emitted : ∀ key ∈ before.keys, List.Forall₂ (before.processMap key).Emits
    (before.processMap key).records (outs key)
  /-- the records of the buffer are these, process by process, with the same short regions -/
  resolved : List.Forall₂ (fun origin record => record.time = origin.2.time ∧
      record.process = origin.2.process ∧ record.event = origin.2.event ∧
      (origin.2.event ≠ .shortRegion → record.signal = origin.2.signal) ∧
      (origin.2.event = .shortRegion → ∃ region,
        (before.processMap origin.1).shortRegions[origin.2.signal]? = some region ∧
          after.getShortRegion record.signal = .ok region))
    (origins before.keys outs) after.recordBuffer
  /-- all short regions are kept -/
  shortRegions : after.shortRegionBuffer = before.dumpedRegions before.keys
  /-- each has exactly one event -/
  reached : (shortSignals after.recordBuffer).Perm (List.range after.shortRegionBuffer.length)

theorem getShortRegion_of_getElem? {handle : Nat} {region : ShortRegion}
    (found : after.shortRegionBuffer[handle]? = some region) :
    after.getShortRegion handle = .ok region := by
  rw [getShortRegion, found]

/-- Whatever the processes have dumped, its short regions are found in the common buffers. -/
theorem update_reindexes (sampler : ApplicationSampler EpochFilter) (distinct : sampler.keys.Nodup)
    (mergeable : ∀ key ∈ sampler.keys, (sampler.processMap key).Mergeable) :
    ∃ after outs, sampler.update = .ok after ∧ Reindexes sampler after outs := by
  obtain ⟨after, outs, records, updated, appends⟩ :=
    loop_appends sampler { sampler with recordBuffer := [], shortRegionBuffer := [] } distinct
      (fun _ _ => rfl) mergeable
  have recordBuffer : after.recordBuffer = records := appends.recordBuffer
  have shortRegionBuffer : after.shortRegionBuffer = sampler.dumpedRegions sampler.keys :=
    appends.shortRegionBuffer
  refine ⟨after, outs, updated, appends.emitted, ?_, shortRegionBuffer, ?_⟩
  · rw [recordBuffer]
    refine appends.resolved.imp fun origin record resolves => ?_
    refine ⟨resolves.time, resolves.process, resolves.event, resolves.other, fun short => ?_⟩
    obtain ⟨region, dumped, found⟩ := resolves.short short
    exact ⟨region, dumped, getShortRegion_of_getElem? found⟩
  · rw [recordBuffer, shortRegionBuffer, List.range_eq_range']
    exact appends.reached

/-- Two processes with a short region each, one behind a proxy filter and one behind an
edit distance filter. -/
def twoProcesses : ApplicationSampler EpochFilter where
  keys := [1, 2]
  processMap key := {
    filter := some ⟨if key = 1 then .proxyEpoch ⟨7, 1, 0⟩ else
      .editDistance ⟨⟨.new 2, 2, -1, -1, 0, fun _ => 0⟩, 4, 3, 1, 1, -1, 0, 0, false, -1, 0⟩,
        EpochFilter.filter⟩
    valid := .new
    recordLog := Transition.run RecordLog.step (RecordLog.initial key ⟨1, 0⟩)
      [.enter 7 ⟨2, 0⟩, .exit 7 ⟨3, 0⟩, .epoch ⟨4, 0⟩, .enter 9 ⟨5, 0⟩] }
  recordBuffer := []
  shortRegionBuffer := []

theorem update_twoProcesses :
    ∃ after outs, twoProcesses.update = .ok after ∧ Reindexes twoProcesses after outs := by
  refine update_reindexes twoProcesses (by decide) fun key member => ?_
  have cases : key = 1 ∨ key = 2 := by simpa [twoProcesses] using member
  obtain rfl | rfl := cases
  · exact ⟨by rintro _ ⟨⟩; rfl, by decide +kernel, by decide +kernel⟩
  · exact ⟨by rintro _ ⟨⟩; rfl, by decide +kernel, by decide +kernel⟩

end ApplicationSampler

end Geopm
