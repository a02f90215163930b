import Geopm.RecordLog.History

namespace Geopm

/-! `ProcessRegionAggregator`: counts and runtimes of regions, by process. -/

/-- `region_info_s`. -/
structure RegionInfo where
  totalRuntime : Rat
  totalCount : Nat
  lastEntryTime : Rat
deriving Repr, DecidableEq

/-- The value that `emplace` makes. -/
def RegionInfo.zero : RegionInfo := ⟨0, 0, 0⟩

def RegionInfo.enter (time : Rat) (region : RegionInfo) : RegionInfo :=
  { region with lastEntryTime := time }

/-- Count visits and their time. -/
def RegionInfo.add (runtime : Rat) (count : Nat) (region : RegionInfo) : RegionInfo :=
  { region with
    totalRuntime := region.totalRuntime + runtime
    totalCount := region.totalCount + count }

inductive AggregatorError where
  /-- "ProcessRegionAggregator: region exit without entry", which is asserted in
  debug builds; in others the end of a map is dereferenced. -/
  | exitWithoutEntry
  /-- "ApplicationSampler::get_short_region(), event_signal does not match any short region handle". -/
  | noShortRegion
deriving Repr, DecidableEq

/-- The regions of one process. -/
abbrev Account := Nat → Option RegionInfo

/-- `m_region_info`. -/
abbrev RegionMap := Int → Account

namespace Account

/-- What is recorded of a region. -/
def info (account : Account) (hash : Nat) : RegionInfo := (account hash).getD RegionInfo.zero

/-- Rewrite the entry of a region, which `emplace` makes where it is missing. -/
def emplace (account : Account) (hash : Nat) (change : RegionInfo → RegionInfo) : Account :=
  Function.update account hash (some (change (account.info hash)))

/-- `update` on one record of the process. -/
def post (shortRegions : List ShortRegion) (account : Account) (record : Record) :
    Except AggregatorError Account :=
  match record.event with
  | .regionEntry =>
      .ok (account.emplace record.signal (RegionInfo.enter record.time))
  | .regionExit =>
      match account record.signal with
      | none => .error .exitWithoutEntry
      | some region =>
          .ok (account.emplace record.signal
            (RegionInfo.add (record.time - region.lastEntryTime) 1))
  | .shortRegion =>
      match shortRegions[record.signal]? with
      | none => .error .noShortRegion
      | some shortRegion =>
          .ok (account.emplace shortRegion.hash
            (RegionInfo.add shortRegion.totalTime shortRegion.numComplete))
  | _ => .ok account

/-- One record of the process after the other. -/
def postAll (shortRegions : List ShortRegion) (account : Account) (records : List Record) :
    Except AggregatorError Account :=
  records.foldlM (post shortRegions) account

end Account

namespace RegionMap

/-- `update` on one record. -/
def post (shortRegions : List ShortRegion) (regions : RegionMap) (record : Record) :
    Except AggregatorError RegionMap :=
  ((regions record.process).post shortRegions record).map fun account =>
    Function.update regions record.process account

/-- `update`, with the records and the short regions that the sampler holds. -/
def update (regions : RegionMap) (records : List Record) (shortRegions : List ShortRegion) :
    Except AggregatorError RegionMap :=
  records.foldlM (post shortRegions) regions

end RegionMap

namespace Account

variable {shortRegions others : List ShortRegion} {account final : Account} {record : Record}
  {records left right : List Record} {hash other : Nat}

@[simp] theorem postAll_nil : account.postAll shortRegions [] = .ok account := rfl

theorem postAll_cons : account.postAll shortRegions (record :: records) =
    (account.post shortRegions record).bind (·.postAll shortRegions records) := by
  simp only [postAll, List.foldlM_cons]
  rfl

theorem postAll_append : account.postAll shortRegions (left ++ right) =
    (account.postAll shortRegions left).bind (·.postAll shortRegions right) :=
  List.foldlM_append

theorem postAll_concat (posted : account.postAll shortRegions records = .ok final)
    (record : Record) :
    account.postAll shortRegions (records ++ [record]) = final.post shortRegions record := by
  rw [postAll_append, posted]
  simp only [Except.bind, postAll_cons]
  cases final.post shortRegions record <;> rfl

@[simp] theorem info_emplace_self (change : RegionInfo → RegionInfo) :
    (account.emplace hash change).info hash = change (account.info hash) := by
  simp [emplace, info]

theorem info_emplace_of_ne (different : other ≠ hash) (change : RegionInfo → RegionInfo) :
    (account.emplace hash change).info other = account.info other := by
  simp [emplace, info, different]

theorem emplace_apply_of_ne (different : other ≠ hash) (change : RegionInfo → RegionInfo) :
    (account.emplace hash change) other = account other := by
  simp [emplace, different]

theorem emplace_comm (account : Account) (first second : RegionInfo → RegionInfo)
    (commute : other = hash → ∀ region, first (second region) = second (first region)) :
    (account.emplace hash second).emplace other first =
      (account.emplace other first).emplace hash second := by
  funext key
  by_cases same : other = hash
  · subst same
    by_cases here : key = other <;> simp [emplace, info, here, commute rfl]
  · by_cases atOther : key = other <;> by_cases atHash : key = hash <;>
      simp_all [emplace, info, Ne.symm same]

theorem add_comm (runtime first : Rat) (count second : Nat) (region : RegionInfo) :
    (region.add runtime count).add first second = (region.add first second).add runtime count := by
  simp only [RegionInfo.add, RegionInfo.mk.injEq, and_true]
  exact ⟨by ring, by omega⟩

/-- Visits may be counted before or after any record that does not depend on
them; an exit depends on whether its region is known. -/
theorem post_add (known : account hash ≠ none) (runtime : Rat) (count : Nat) (record : Record) :
    (account.emplace hash (RegionInfo.add runtime count)).post shortRegions record =
      (account.post shortRegions record).map
        (emplace · hash (RegionInfo.add runtime count)) := by
  unfold post
  cases record.event with
  | regionEntry => exact congrArg Except.ok (emplace_comm _ _ _ fun _ _ => rfl)
  | regionExit =>
      simp only
      by_cases same : record.signal = hash
      · cases exited : account hash with
        | none => exact absurd exited known
        | some region =>
            have counted : (account.emplace hash (RegionInfo.add runtime count)) hash =
                some (region.add runtime count) := by simp [emplace, info, exited]
            rw [same, counted, exited]
            exact congrArg Except.ok (emplace_comm _ _ _ fun _ region => add_comm _ _ _ _ region)
      · rw [emplace_apply_of_ne same]
        cases account record.signal with
        | none => rfl
        | some region =>
            exact congrArg Except.ok (emplace_comm _ _ _ fun here _ => absurd here same)
  | shortRegion =>
      cases found : shortRegions[record.signal]? with
      | none => rfl
      | some shortRegion =>
          exact congrArg Except.ok (emplace_comm _ _ _ fun _ region => add_comm _ _ _ _ region)
  | _ => rfl

theorem post_known (posted : account.post shortRegions record = .ok final)
    (known : account hash ≠ none) : final hash ≠ none := by
  have kept : ∀ (key : Nat) (change : RegionInfo → RegionInfo),
      (account.emplace key change) hash ≠ none := by
    intro key change
    by_cases same : hash = key
    · simp [emplace, same]
    · rwa [emplace_apply_of_ne same]
  unfold post at posted
  cases named : record.event <;> simp only [named] at posted
  case regionEntry => exact Except.ok.inj posted ▸ kept _ _
  case regionExit =>
    cases exited : account record.signal <;> simp only [exited] at posted
    · simp at posted
    · exact Except.ok.inj posted ▸ kept _ _
  case shortRegion =>
    cases found : shortRegions[record.signal]? <;> simp only [found] at posted
    · simp at posted
    · exact Except.ok.inj posted ▸ kept _ _
  all_goals exact Except.ok.inj posted ▸ known

theorem postAll_add (shortRegions : List ShortRegion) (known : account hash ≠ none) (runtime : Rat) (count : Nat)
    (records : List Record) :
    (account.emplace hash (RegionInfo.add runtime count)).postAll shortRegions records =
      (account.postAll shortRegions records).map
        (emplace · hash (RegionInfo.add runtime count)) := by
  induction records generalizing account with
  | nil => rfl
  | cons record rest ih =>
      rw [postAll_cons, postAll_cons, post_add known]
      cases posted : account.post shortRegions record with
      | error reason => rfl
      | ok next => exact ih (post_known posted known)

/-- Only entries and exits depend on the entry time. -/
theorem postAll_enter (time : Rat)
    (others : ∀ record ∈ records, record.event ≠ .regionEntry ∧ record.event ≠ .regionExit) :
    (account.emplace hash (RegionInfo.enter time)).postAll shortRegions records =
      (account.postAll shortRegions records).map (emplace · hash (RegionInfo.enter time)) := by
  induction records generalizing account with
  | nil => rfl
  | cons record rest ih =>
      obtain ⟨entry, exit⟩ := others record (by simp)
      have first : (account.emplace hash (RegionInfo.enter time)).post shortRegions record =
          (account.post shortRegions record).map (emplace · hash (RegionInfo.enter time)) := by
        unfold post
        cases named : record.event with
        | regionEntry => exact absurd named entry
        | regionExit => exact absurd named exit
        | shortRegion =>
            cases found : shortRegions[record.signal]? with
            | none => rfl
            | some shortRegion => exact congrArg Except.ok (emplace_comm _ _ _ fun _ _ => rfl)
        | _ => rfl
      rw [postAll_cons, postAll_cons, first]
      cases account.post shortRegions record with
      | error reason => rfl
      | ok next => exact ih fun other member => others other (by simp [member])

/-- The short regions that the records refer to decide what is posted. -/
theorem postAll_congr
    (same : ∀ record ∈ records, record.event = .shortRegion →
      others[record.signal]? = shortRegions[record.signal]?) :
    account.postAll others records = account.postAll shortRegions records := by
  induction records generalizing account with
  | nil => rfl
  | cons record rest ih =>
      have first : account.post others record = account.post shortRegions record := by
        unfold post
        cases named : record.event with
        | shortRegion => simp only [same record (by simp) named]
        | _ => rfl
      rw [postAll_cons, postAll_cons, first]
      cases account.post shortRegions record with
      | error reason => rfl
      | ok next => exact ih fun other member => same other (by simp [member])

/-- The totals that the report is made of. -/
def total (account : Account) (hash : Nat) : Nat × Rat :=
  ((account.info hash).totalCount, (account.info hash).totalRuntime)

@[simp] theorem total_enter (time : Rat) :
    (account.emplace hash (RegionInfo.enter time)).total other = account.total other := by
  by_cases same : other = hash
  · subst same
    simp [total, RegionInfo.enter]
  · simp [total, info_emplace_of_ne same]

theorem total_add (runtime : Rat) (count : Nat) :
    (account.emplace hash (RegionInfo.add runtime count)).total other =
      if other = hash then account.total hash + (count, runtime) else account.total other := by
  by_cases same : other = hash
  · subst same
    simp [total, RegionInfo.add]
  · simp [total, info_emplace_of_ne same, same]

/-- Converting the last entry record into a short region counts the visits of
the short region. -/
theorem postAll_toShort {index handle : Nat} {time : Rat} {process : Int} {region : ShortRegion}
    (posted : account.postAll shortRegions records = .ok final)
    (recorded : records[index]? = some ⟨time, process, .regionEntry, hash⟩)
    (others : ∀ (position : Nat) (record : Record), index < position →
      records[position]? = some record →
      record.event ≠ .regionEntry ∧ record.event ≠ .regionExit)
    (counted : shortRegions[handle]? = some region) (named : region.hash = hash) :
    ∃ after, account.postAll shortRegions (records.modify index (Record.toShort handle)) =
      .ok after ∧ ∀ other, after.total other =
        (final.emplace hash (RegionInfo.add region.totalTime region.numComplete)).total other := by
  have later : ∀ other ∈ records.drop (index + 1),
      other.event ≠ .regionEntry ∧ other.event ≠ .regionExit := by
    intro other member
    obtain ⟨position, behind, there⟩ := Table.getElem?_of_mem_drop member
    exact others position other behind there
  rw [Table.split_of_getElem? recorded, postAll_append] at posted
  rw [Table.modify_of_getElem? recorded, postAll_append]
  cases before : account.postAll shortRegions (records.take index) with
  | error reason => simp [before, Except.bind] at posted
  | ok middle =>
      simp only [before, Except.bind, postAll_cons, post, Record.toShort, counted, named] at posted ⊢
      have known : middle.emplace hash (RegionInfo.enter time) hash ≠ none := by simp [emplace]
      have added := postAll_add shortRegions known region.totalTime
        region.numComplete (records.drop (index + 1))
      have swap := emplace_comm middle (RegionInfo.add region.totalTime region.numComplete)
        (RegionInfo.enter time) fun (_ : hash = hash) _ => rfl
      rw [posted, swap, postAll_enter time later] at added
      cases result : (middle.emplace hash (RegionInfo.add region.totalTime
          region.numComplete)).postAll shortRegions (records.drop (index + 1)) with
      | error reason => simp [result, Except.map] at added
      | ok after =>
          simp only [result, Except.map, Except.ok.injEq] at added
          exact ⟨after, rfl, fun other => by rw [← added, total_enter]⟩

/-- Counting one more visit of a short region that one record refers to. -/
theorem postAll_complete {index handle : Nat} {time : Rat} {process : Int} {region : ShortRegion}
    (posted : account.postAll shortRegions records = .ok final)
    (recorded : records[index]? = some ⟨time, process, .shortRegion, handle⟩)
    (alone : ∀ (position : Nat) (record : Record), position ≠ index →
      records[position]? = some record → record.event = .shortRegion → record.signal ≠ handle)
    (counted : shortRegions[handle]? = some region) (elapsed : Rat) :
    account.postAll (shortRegions.modify handle (ShortRegion.complete elapsed)) records =
      .ok (final.emplace region.hash (RegionInfo.add elapsed 1)) := by
  have elsewhere : ∀ records' : List Record,
      (∀ record ∈ records', record.event = .shortRegion → record.signal ≠ handle) →
      ∀ account : Account,
        account.postAll (shortRegions.modify handle (ShortRegion.complete elapsed)) records' =
          account.postAll shortRegions records' := by
    intro records' apart account
    refine postAll_congr fun record member short => ?_
    have different := apart record member short
    simp [Ne.symm different]
  have before : ∀ record ∈ records.take index, record.event = .shortRegion →
      record.signal ≠ handle := by
    intro record member
    obtain ⟨position, found⟩ := List.mem_iff_getElem?.mp member
    rw [List.getElem?_take] at found
    split at found
    · exact alone position record (by omega) found
    · simp at found
  have behind : ∀ record ∈ records.drop (index + 1), record.event = .shortRegion →
      record.signal ≠ handle := by
    intro record member
    obtain ⟨position, later, found⟩ := Table.getElem?_of_mem_drop member
    exact alone position record (by omega) found
  rw [Table.split_of_getElem? recorded, postAll_append] at posted ⊢
  rw [elsewhere _ before]
  cases middle : account.postAll shortRegions (records.take index) with
  | error reason => simp [middle, Except.bind] at posted
  | ok reached =>
      simp only [middle, Except.bind, postAll_cons, post, counted] at posted ⊢
      have again : (shortRegions.modify handle (ShortRegion.complete elapsed))[handle]? =
          some (region.complete elapsed) := by simp [counted]
      have twice : reached.emplace region.hash (RegionInfo.add (region.totalTime + elapsed)
            (region.numComplete + 1)) =
          (reached.emplace region.hash (RegionInfo.add region.totalTime region.numComplete)).emplace
            region.hash (RegionInfo.add elapsed 1) := by
        simp [emplace, info, RegionInfo.add, add_assoc]
      have known : reached.emplace region.hash
          (RegionInfo.add region.totalTime region.numComplete) region.hash ≠ none := by
        simp [emplace]
      simp only [again, ShortRegion.complete]
      rw [elsewhere _ behind, twice, postAll_add _ known, posted]
      rfl

end Account

end Geopm
