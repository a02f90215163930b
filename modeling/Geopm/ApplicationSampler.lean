import Geopm.ValidateRecord
import Geopm.RegionAggregator

namespace Geopm

/-! `ApplicationSampler`: dumps the log of each process, checks the records and
makes the handles of the short regions unique across processes. -/

/-- A `RecordFilter` object: its state, and what `filter` returns and leaves. -/
structure RecordFilter (State : Type) where
  state : State
  filter : State → Record → Except ValidateError (List Record × State)

/-- `m_process_s`. -/
structure Process (State : Type) where
  filter : Option (RecordFilter State)
  valid : ValidateRecord
  recordLog : RecordLog

/-- `ApplicationSamplerImp`. The keys are those of `m_process_map`, in order. -/
structure ApplicationSampler (State : Type) where
  keys : List Int
  processMap : Int → Process State
  recordBuffer : List Record
  shortRegionBuffer : List ShortRegion

variable {State : Type}

namespace Process

/-- Check the records that the filter makes of one record. -/
def filterRecord (process : Process State) (filter : RecordFilter State) (record : Record) :
    Except ValidateError (Process State × List Record) := do
  let (filtered, state) ← filter.filter filter.state record
  let valid ← process.valid.checkAll filtered
  pure ({ process with filter := some { filter with state }, valid }, filtered)

/-- Filter and check the dumped records, or check them only. -/
def collect (process : Process State) :
    List Record → Except ValidateError (Process State × List Record)
  | [] => pure (process, [])
  | record :: rest => do
      let (next, first) ←
        match process.filter with
        | some filter => process.filterRecord filter record
        | none => do
            let valid ← process.valid.check record
            pure ({ process with valid }, [record])
      let (last, others) ← next.collect rest
      pure (last, first ++ others)

end Process

/-- Add the offset to the signals of the first short region events, as many as
there are short regions. -/
def reindex (offset : Nat) : Nat → List Record → List Record
  | remain + 1, record :: rest =>
      if record.event = .shortRegion then
        { record with signal := record.signal + offset } :: reindex offset remain rest
      else record :: reindex offset (remain + 1) rest
  | _, records => records

namespace ApplicationSampler

/-- The part of `update` for one process. -/
def updateProcess (sampler : ApplicationSampler State) (key : Int) :
    Except ValidateError (ApplicationSampler State) := do
  let process := sampler.processMap key
  let ((records, shortRegions), recordLog) := process.recordLog.dump
  let (process, checked) ← { process with recordLog }.collect records
  pure { sampler with
    processMap := Function.update sampler.processMap key process
    recordBuffer := sampler.recordBuffer ++
      reindex sampler.shortRegionBuffer.length shortRegions.length checked
    shortRegionBuffer := sampler.shortRegionBuffer ++ shortRegions }

/-- `update`. -/
def update (sampler : ApplicationSampler State) : Except ValidateError (ApplicationSampler State) :=
  sampler.keys.foldlM updateProcess { sampler with recordBuffer := [], shortRegionBuffer := [] }

end ApplicationSampler

/-- A short region event with its handle moved by an offset. -/
def Record.shift (offset : Nat) (record : Record) : Record :=
  if record.event = .shortRegion then { record with signal := record.signal + offset } else record

/-- Where there is a short region for each event, all of them are moved. -/
theorem reindex_eq {records : List Record} {remain : Nat} (offset : Nat)
    (enough : records.countP (·.event = .shortRegion) ≤ remain) :
    reindex offset remain records = records.map (Record.shift offset) := by
  induction records generalizing remain with
  | nil => cases remain <;> rfl
  | cons record rest ih =>
      by_cases short : record.event = .shortRegion
      · rw [List.countP_cons_of_pos (by simpa using short)] at enough
        cases remain with
        | zero => omega
        | succ remain =>
            rw [reindex, if_pos short, ih (by omega), List.map_cons, Record.shift, if_pos short]
      · rw [List.countP_cons_of_neg (by simpa using short)] at enough
        have unmoved : record.shift offset = record := if_neg short
        cases remain with
        | zero =>
            have rest_unmoved : reindex offset 0 rest = rest := by cases rest <;> rfl
            rw [List.map_cons, unmoved, ← ih enough, rest_unmoved]
            rfl
        | succ remain => rw [reindex, if_neg short, ih enough, List.map_cons, unmoved]

namespace Account

/-- The events of one process are posted from the common buffers as they would
be from its own. -/
theorem postAll_shift {account : Account} {records : List Record} {offset : Nat}
    {shortRegions buffer : List ShortRegion}
    (placed : ∀ record ∈ records, record.event = .shortRegion →
      buffer[record.signal + offset]? = shortRegions[record.signal]?) :
    account.postAll buffer (records.map (Record.shift offset)) =
      account.postAll shortRegions records := by
  induction records generalizing account with
  | nil => rfl
  | cons record rest ih =>
      have first : account.post buffer (record.shift offset) = account.post shortRegions record := by
        by_cases short : record.event = .shortRegion
        · have moved : record.shift offset = { record with signal := record.signal + offset } :=
            if_pos short
          simp only [moved, post, short, placed record (by simp) short]
        · rw [Record.shift, if_neg short, post, post]
          cases named : record.event with
          | shortRegion => exact absurd named short
          | _ => rfl
      rw [List.map_cons, postAll_cons, postAll_cons, first]
      cases account.post shortRegions record with
      | error reason => rfl
      | ok next => exact ih fun other member => placed other (by simp [member])

end Account

namespace RegionMap

variable {regions : RegionMap} {shortRegions : List ShortRegion} {records left right : List Record}

theorem update_append : regions.update (left ++ right) shortRegions =
    (regions.update left shortRegions).bind (·.update right shortRegions) :=
  List.foldlM_append

theorem update_cons (record : Record) : regions.update (record :: records) shortRegions =
    (regions.post shortRegions record).bind (·.update records shortRegions) := by
  simp only [update, List.foldlM_cons]
  rfl

/-- The records of one process change its regions only. -/
theorem update_process {process : Int} (named : ∀ record ∈ records, record.process = process) :
    regions.update records shortRegions =
      ((regions process).postAll shortRegions records).map (Function.update regions process) := by
  induction records generalizing regions with
  | nil => simp [update, Account.postAll, pure, Except.pure, Except.map]
  | cons record rest ih =>
      have same := named record (by simp)
      have others := fun other member => named other (List.mem_cons_of_mem record member)
      rw [update_cons, Account.postAll_cons, post, same]
      cases posted : (regions process).post shortRegions record with
      | error reason => rfl
      | ok account =>
          have idem : Function.update (Function.update regions process account) process =
              Function.update regions process := by
            funext last
            exact Function.update_idem account last regions
          have next := @ih (Function.update regions process account) others
          rw [Function.update_self, idem] at next
          exact next

end RegionMap

namespace Process

/-- Without a filter the dumped records are checked and kept. -/
theorem collect_unfiltered (valid : ValidateRecord) (log : RecordLog) (records : List Record) :
    (⟨none, valid, log⟩ : Process State).collect records =
      (valid.checkAll records).map fun valid => (⟨none, valid, log⟩, records) := by
  induction records generalizing valid with
  | nil => rfl
  | cons record rest ih =>
      rw [collect, ValidateRecord.checkAll_cons]
      simp only [bind, Except.bind]
      cases checked : valid.check record with
      | error reason => rfl
      | ok next =>
          simp only [pure, Except.pure, ih next]
          cases next.checkAll rest <;> rfl

/-- What the sampler relies on in the log of a process. -/
structure Dumpable (process : Process State) (key : Int) : Prop where
  unfiltered : process.filter = none
  wellFormed : process.recordLog.view.WellFormed
  named : ∀ record ∈ process.recordLog.view.records, record.process = key

/-- A process after its log was dumped. -/
def dumped (process : Process State) (valid : ValidateRecord) : Process State :=
  { process with valid, recordLog := process.recordLog.cleared }

end Process

namespace ApplicationSampler

variable {sampler final : ApplicationSampler State} {key : Int} {keys : List Int}

theorem updateProcess_eq (dumpable : (sampler.processMap key).Dumpable key) :
    sampler.updateProcess key =
      ((sampler.processMap key).valid.checkAll
        (sampler.processMap key).recordLog.view.records).map fun valid =>
          { sampler with
            processMap := Function.update sampler.processMap key
              ((sampler.processMap key).dumped valid)
            recordBuffer := sampler.recordBuffer ++
              (sampler.processMap key).recordLog.view.records.map
                (Record.shift sampler.shortRegionBuffer.length)
            shortRegionBuffer := sampler.shortRegionBuffer ++
              (sampler.processMap key).recordLog.view.regions } := by
  have moved := reindex_eq sampler.shortRegionBuffer.length
    (dumpable.wellFormed.count_regions.symm.le)
  have unfiltered := dumpable.unfiltered
  simp only [updateProcess, RecordLog.dump, unfiltered, bind, Except.bind,
    Process.collect_unfiltered]
  change _ = Except.map _ ((sampler.processMap key).valid.checkAll
    (sampler.processMap key).recordLog.layout.records)
  cases (sampler.processMap key).valid.checkAll (sampler.processMap key).recordLog.layout.records with
  | error reason => rfl
  | ok valid =>
      simp only [Except.map, pure, Except.pure, Process.dumped, unfiltered]
      rw [← moved]
      rfl

theorem updateProcess_ok (dumpable : (sampler.processMap key).Dumpable key)
    (updated : sampler.updateProcess key = .ok final) :
    ∃ valid, (sampler.processMap key).valid.checkAll
        (sampler.processMap key).recordLog.view.records = .ok valid ∧
      final = { sampler with
        processMap := Function.update sampler.processMap key
          ((sampler.processMap key).dumped valid)
        recordBuffer := sampler.recordBuffer ++
          (sampler.processMap key).recordLog.view.records.map
            (Record.shift sampler.shortRegionBuffer.length)
        shortRegionBuffer := sampler.shortRegionBuffer ++
          (sampler.processMap key).recordLog.view.regions } := by
  rw [updateProcess_eq dumpable] at updated
  cases checked : (sampler.processMap key).valid.checkAll
      (sampler.processMap key).recordLog.view.records with
  | error reason => simp [checked, Except.map] at updated
  | ok valid =>
      simp only [checked, Except.map, Except.ok.injEq] at updated
      exact ⟨valid, rfl, updated.symm⟩

theorem updateProcess_other (dumpable : (sampler.processMap key).Dumpable key)
    (updated : sampler.updateProcess key = .ok final) {other : Int} (different : other ≠ key) :
    final.processMap other = sampler.processMap other := by
  obtain ⟨_, _, rfl⟩ := updateProcess_ok dumpable updated
  exact Function.update_of_ne different _ _

/-- The events of each process in turn, posted from its own log. -/
def settle (processMap : Int → Process State) (keys : List Int) (regions : RegionMap) :
    Except AggregatorError RegionMap :=
  keys.foldlM (fun regions key =>
    ((regions key).postAll (processMap key).recordLog.view.regions
      (processMap key).recordLog.view.records).map (Function.update regions key)) regions

theorem settle_cons (processMap : Int → Process State) (regions : RegionMap) :
    settle processMap (key :: keys) regions =
      ((regions key).postAll (processMap key).recordLog.view.regions
        (processMap key).recordLog.view.records).bind fun account =>
          settle processMap keys (Function.update regions key account) := by
  simp only [settle, List.foldlM_cons]
  cases (regions key).postAll (processMap key).recordLog.view.regions
    (processMap key).recordLog.view.records <;> rfl

theorem settle_congr {processMap other : Int → Process State}
    (same : ∀ key ∈ keys, processMap key = other key) (regions : RegionMap) :
    settle processMap keys regions = settle other keys regions := by
  induction keys generalizing regions with
  | nil => rfl
  | cons key rest ih =>
      rw [settle_cons, settle_cons, same key (by simp)]
      congr 1
      funext account
      exact ih (fun other member => same other (by simp [member])) _

theorem named_shift {records : List Record} {offset : Nat}
    (named : ∀ record ∈ records, record.process = key) :
    ∀ record ∈ records.map (Record.shift offset), record.process = key := by
  intro record member
  obtain ⟨old, before, rfl⟩ := List.mem_map.mp member
  rw [← named old before, Record.shift]
  split <;> rfl

/-- What the loop of `update` does for the processes of the given keys. -/
structure Collected (before after : ApplicationSampler State) (keys : List Int) : Prop where
  keys_eq : after.keys = before.keys
  others : ∀ key, key ∉ keys → after.processMap key = before.processMap key
  dumped : ∀ key ∈ keys, ∃ valid,
    (before.processMap key).valid.checkAll (before.processMap key).recordLog.view.records =
      .ok valid ∧ after.processMap key = (before.processMap key).dumped valid
  posted : ∃ records shortRegions, after.recordBuffer = before.recordBuffer ++ records ∧
    after.shortRegionBuffer = before.shortRegionBuffer ++ shortRegions ∧
    ∀ buffer, after.shortRegionBuffer <+: buffer → ∀ regions : RegionMap,
      regions.update records buffer = settle before.processMap keys regions

theorem Collected.cons {before middle after : ApplicationSampler State}
    (distinct : (key :: keys).Nodup) (dumpable : (before.processMap key).Dumpable key)
    (first : before.updateProcess key = .ok middle) (rest : Collected middle after keys) :
    Collected before after (key :: keys) := by
  have fresh := (List.nodup_cons.mp distinct).1
  have unchanged : ∀ other ∈ keys, middle.processMap other = before.processMap other :=
    fun other member => updateProcess_other dumpable first fun same => fresh (same ▸ member)
  obtain ⟨valid, checked, rfl⟩ := updateProcess_ok dumpable first
  obtain ⟨records, shortRegions, recordBuffer, shortRegionBuffer, posted⟩ := rest.posted
  refine ⟨rest.keys_eq, ?_, ?_, ?_⟩
  · intro other outside
    rw [List.mem_cons, not_or] at outside
    rw [rest.others other outside.2]
    exact Function.update_of_ne outside.1 _ _
  · intro other member
    rcases List.mem_cons.mp member with rfl | member
    · refine ⟨valid, checked, ?_⟩
      rw [rest.others other fresh]
      exact Function.update_self _ _ _
    · rw [← unchanged other member]
      exact rest.dumped other member
  · refine ⟨(before.processMap key).recordLog.view.records.map
      (Record.shift before.shortRegionBuffer.length) ++ records,
      (before.processMap key).recordLog.view.regions ++ shortRegions, ?_, ?_, ?_⟩
    · rw [recordBuffer, List.append_assoc]
    · rw [shortRegionBuffer, List.append_assoc]
    · intro buffer grown regions
      rw [RegionMap.update_append, settle_cons,
        RegionMap.update_process (named_shift dumpable.named), Account.postAll_shift]
      · cases (regions key).postAll (before.processMap key).recordLog.view.regions
          (before.processMap key).recordLog.view.records with
        | error reason => rfl
        | ok account => exact (posted buffer grown _).trans (settle_congr unchanged _)
      · intro record member short
        have bound := dumpable.wellFormed.signal_lt member short
        obtain ⟨extra, same⟩ := grown
        rw [← same, shortRegionBuffer, List.append_assoc, List.append_assoc, Nat.add_comm,
          List.getElem?_append_right (by omega), Nat.add_sub_cancel_left,
          List.getElem?_append_left bound]

theorem collected_of_loop {before after : ApplicationSampler State} (distinct : keys.Nodup)
    (dumpable : ∀ key ∈ keys, (before.processMap key).Dumpable key)
    (updated : keys.foldlM updateProcess before = .ok after) : Collected before after keys := by
  induction keys generalizing before with
  | nil =>
      obtain rfl := Except.ok.inj updated
      exact ⟨rfl, fun _ _ => rfl, by simp, [], [], by simp, by simp, fun _ _ _ => rfl⟩
  | cons key rest ih =>
      rw [List.foldlM_cons] at updated
      cases first : before.updateProcess key with
      | error reason => simp [first, bind, Except.bind] at updated
      | ok middle =>
          simp only [first, bind, Except.bind] at updated
          have fresh := (List.nodup_cons.mp distinct).1
          refine .cons distinct (dumpable key (by simp)) first
            (ih (List.nodup_cons.mp distinct).2 (fun other member => ?_) updated)
          rw [updateProcess_other (dumpable key (by simp)) first fun same => fresh (same ▸ member)]
          exact dumpable other (by simp [member])

/-- The loop does not fail where every process passes its checks. -/
theorem loop_of_valid {before : ApplicationSampler State} (distinct : keys.Nodup)
    (dumpable : ∀ key ∈ keys, (before.processMap key).Dumpable key)
    (accepted : ∀ key ∈ keys, ∃ valid, (before.processMap key).valid.checkAll
      (before.processMap key).recordLog.view.records = .ok valid) :
    ∃ after, keys.foldlM updateProcess before = .ok after := by
  induction keys generalizing before with
  | nil => exact ⟨before, rfl⟩
  | cons key rest ih =>
      have fresh := (List.nodup_cons.mp distinct).1
      obtain ⟨valid, checked⟩ := accepted key (by simp)
      have first := updateProcess_eq (dumpable key (by simp))
      rw [checked, Except.map] at first
      rw [List.foldlM_cons, first]
      have unchanged := fun other (member : other ∈ rest) =>
        updateProcess_other (dumpable key (by simp)) first fun same => fresh (same ▸ member)
      refine ih (List.nodup_cons.mp distinct).2 (fun other member => ?_) fun other member => ?_
      · rw [unchanged other member]
        exact dumpable other (by simp [member])
      · rw [unchanged other member]
        exact accepted other (by simp [member])

/-- `settle` posts the events of each process to its own regions. -/
theorem settle_posted {processMap : Int → Process State} {regions settled : RegionMap}
    (distinct : keys.Nodup) (posted : settle processMap keys regions = .ok settled) :
    (∀ key ∈ keys, (regions key).postAll (processMap key).recordLog.view.regions
      (processMap key).recordLog.view.records = .ok (settled key)) ∧
    ∀ key, key ∉ keys → settled key = regions key := by
  induction keys generalizing regions with
  | nil =>
      obtain rfl := Except.ok.inj posted
      exact ⟨by simp, fun _ _ => rfl⟩
  | cons key rest ih =>
      have fresh := (List.nodup_cons.mp distinct).1
      rw [settle_cons] at posted
      cases first : (regions key).postAll (processMap key).recordLog.view.regions
          (processMap key).recordLog.view.records with
      | error reason => simp [first, Except.bind] at posted
      | ok account =>
          simp only [first, Except.bind] at posted
          obtain ⟨inside, outside⟩ := ih (List.nodup_cons.mp distinct).2 posted
          constructor
          · intro other member
            rcases List.mem_cons.mp member with rfl | member
            · rw [outside other fresh, Function.update_self]
              exact first
            · have different : other ≠ key := fun same => fresh (same ▸ member)
              rw [← inside other member, Function.update_of_ne different]
          · intro other absent
            rw [List.mem_cons, not_or] at absent
            rw [outside other absent.2, Function.update_of_ne absent.1]

theorem settle_exists {processMap : Int → Process State} {regions : RegionMap}
    (distinct : keys.Nodup)
    (postable : ∀ key ∈ keys, ∃ account, (regions key).postAll
      (processMap key).recordLog.view.regions (processMap key).recordLog.view.records =
        .ok account) :
    ∃ settled, settle processMap keys regions = .ok settled := by
  induction keys generalizing regions with
  | nil => exact ⟨regions, rfl⟩
  | cons key rest ih =>
      have fresh := (List.nodup_cons.mp distinct).1
      obtain ⟨account, first⟩ := postable key (by simp)
      rw [settle_cons, first]
      apply ih (List.nodup_cons.mp distinct).2
      intro other member
      have different : other ≠ key := fun same => fresh (same ▸ member)
      rw [Function.update_of_ne different]
      exact postable other (by simp [member])

end ApplicationSampler

end Geopm
