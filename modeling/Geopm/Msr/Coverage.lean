import Geopm.Library.MaskedWrite
import Geopm.Msr.Allowlist

namespace Geopm

/-! The list of the writable bits covers the controls that are made from the same descriptions. -/

namespace MsrDescription

open MaskedWrite (combine getLsbD_combine combine_eq_iff)
open Transition (ok_of_bind)

/-- The bits of a register that a control writes. -/
structure ControlBits where
  offset : Nat
  mask : Word
deriving Repr, DecidableEq

def ControlEntry.bits (entry : ControlEntry) : ControlBits :=
  ⟨entry.offset, maskOf entry.field.beginBit entry.field.endBit⟩

/-- The controls by name. -/
def Registered.controls (group : Registered) : List (String × ControlBits) :=
  group.controlAvailable.map fun entry => (entry.1, entry.2.bits)

/-- A description of an MSR, with its writable fields by the names of their controls. -/
structure Listing where
  offset : Nat
  msrName : String
  writable : List (String × Word)
deriving Repr, DecidableEq

def Listing.controls (listing : Listing) : List (String × ControlBits) :=
  listing.writable.map fun field => (field.1, ⟨listing.offset, field.2⟩)

/-- The entry of the list for the kernel. -/
def Listing.entry (listing : Listing) : Nat × Word × String :=
  (listing.offset, combine (listing.writable.map Prod.snd), listing.msrName)

def fieldMaskOf (field : String × Json) : Word :=
  maskOf (truncate (field.2.get "begin_bit").numberValue) (truncate (field.2.get "end_bit").numberValue)

def writableOf (msrName : String) (fields : List (String × Json)) : List (String × Word) :=
  (fields.filter fun field => (field.2.get "writeable").boolValue).map fun field =>
    (namePrefix ++ (msrName ++ ":" ++ field.1), fieldMaskOf field)

def listingOf (msr : String × Json) : Listing where
  offset := hexValue ((msr.2.get "offset").stringValue.toList.drop 2) 0
  msrName := msr.1
  writable := writableOf msr.1 (msr.2.get "fields").objectItems

section Passes

variable {parse : String → Option Json} {topo : PlatformTopo} {group after : Registered}
  {msrName str : String} {msrOffset : Nat} {domainType : Domain} {field msr : String × Json}

/-- What is registered in between: controls, and signals at some offsets. -/
structure Adds (offsets : List Nat) (added : List (String × ControlBits)) (group after : Registered) :
    Prop where
  controls : after.controls = Assoc.assignAll added group.controls
  signals : ∀ signal ∈ after.signalAvailable, signal.2.offset ∈ offsets ∨
    ∃ known ∈ group.signalAvailable, known.2.offset = signal.2.offset

theorem Adds.refl : Adds [] [] group group :=
  ⟨rfl, fun signal member => .inr ⟨signal, member, rfl⟩⟩

theorem Adds.trans {middle : Registered} {offsets others : List Nat}
    {added more : List (String × ControlBits)} (first : Adds offsets added group middle)
    (second : Adds others more middle after) : Adds (offsets ++ others) (added ++ more) group after := by
  constructor
  · rw [second.controls, first.controls, Assoc.assignAll_append]
  · intro signal member
    rcases second.signals signal member with other | ⟨known, earlier, same⟩
    · exact .inl (List.mem_append_right offsets other)
    · rcases first.signals known earlier with offset | ⟨origin, registered, equal⟩
      · exact .inl (List.mem_append_left others (same ▸ offset))
      · exact .inr ⟨origin, registered, equal.trans same⟩

theorem addRawMsrSignal_adds (done : addRawMsrSignal topo msrName domainType msrOffset group = .ok after) :
    Adds [msrOffset] [] group after := by
  obtain ⟨cpus, _, added⟩ := ok_of_bind done
  cases added
  constructor
  · rfl
  · intro signal member
    rcases Assoc.mem_assign.mp member with rfl | ⟨known, _⟩
    · exact .inl (List.mem_singleton.mpr rfl)
    · exact .inr ⟨signal, known, rfl⟩

theorem addMsrFieldSignal_adds {msrFieldName aggFunction description : String} {msrField : MsrField}
    {units : Units} {behavior : Behavior}
    (done : addMsrFieldSignal msrName msrFieldName domainType msrField units aggFunction description
      behavior group = .ok after) : Adds [] [] group after := by
  unfold addMsrFieldSignal at done
  cases raw : Assoc.lookup (namePrefix ++ msrName ++ "#") group.signalAvailable with
  | none =>
      rw [raw] at done
      cases done
  | some rawMsr =>
      rw [raw] at done
      obtain ⟨function, _, added⟩ := ok_of_bind done
      cases added
      constructor
      · rfl
      · intro signal member
        rcases Assoc.mem_assign.mp member with rfl | ⟨known, _⟩
        · exact .inr ⟨_, Assoc.mem_of_lookup raw, rfl⟩
        · exact .inr ⟨signal, known, rfl⟩

theorem addMsrFieldControl_adds {msrFieldName description : String} {msrField : MsrField} {units : Units}
    (done : addMsrFieldControl topo msrFieldName domainType msrOffset msrField units description group =
      .ok after) :
    Adds [] [(msrFieldName, ⟨msrOffset, maskOf msrField.beginBit msrField.endBit⟩)] group after := by
  obtain ⟨cpus, _, made⟩ := ok_of_bind done
  let entry : ControlEntry := ⟨msrOffset, msrField, domainType, units, description⟩
  have added : after = ⟨group.signalAvailable, Assoc.assign msrFieldName entry group.controlAvailable⟩ := by
    split at made
    · obtain ⟨_, _, rest⟩ := ok_of_bind made
      exact (Except.ok.inj rest).symm
    · exact (Except.ok.inj made).symm
  rw [added]
  exact ⟨Assoc.map_assign ControlEntry.bits, fun signal member => .inr ⟨signal, member, rfl⟩⟩

theorem writableOf_cons (rest : List (String × Json)) :
    writableOf msrName (field :: rest) = writableOf msrName [field] ++ writableOf msrName rest := by
  unfold writableOf
  rw [← List.singleton_append, List.filter_append, List.map_append]

/-- A field that has been registered adds its mask when the list is made. -/
theorem parseField_adds (mask : Word)
    (done : parseField topo msrName msrOffset domainType group field = .ok after) :
    Adds [] (Listing.controls ⟨msrOffset, msrName, writableOf msrName [field]⟩) group after ∧
      allowField msrName mask field =
        .ok ((writableOf msrName [field]).map Prod.snd |>.foldl (· ||| ·) mask) := by
  obtain ⟨_, checked, done⟩ := ok_of_bind done
  obtain ⟨function, _, done⟩ := ok_of_bind done
  obtain ⟨units, _, done⟩ := ok_of_bind done
  obtain ⟨behavior, _, done⟩ := ok_of_bind done
  obtain ⟨middle, signal, done⟩ := ok_of_bind done
  have first := addMsrFieldSignal_adds signal
  unfold allowField
  rw [checked]
  cases writeable : (field.2.get "writeable").boolValue with
  | false =>
      rw [writeable] at done
      cases done
      constructor
      · simpa [writableOf, Listing.controls, writeable] using first
      · simp [writableOf, writeable]
  | true =>
      rw [writeable] at done
      have second := addMsrFieldControl_adds done
      constructor
      · simpa [writableOf, Listing.controls, writeable, fieldMaskOf] using first.trans second
      · simp [writableOf, writeable, fieldMaskOf]

theorem parseFields_adds (mask : Word) {fields : List (String × Json)}
    (done : fields.foldlM (parseField topo msrName msrOffset domainType) group = .ok after) :
    Adds [] (Listing.controls ⟨msrOffset, msrName, writableOf msrName fields⟩) group after ∧
      fields.foldlM (allowField msrName) mask =
        .ok ((writableOf msrName fields).map Prod.snd |>.foldl (· ||| ·) mask) := by
  induction fields generalizing group mask with
  | nil =>
      cases done
      exact ⟨Adds.refl, rfl⟩
  | cons field rest ih =>
      rw [List.foldlM_cons] at done
      obtain ⟨middle, parsed, others⟩ := ok_of_bind done
      obtain ⟨first, allowed⟩ := parseField_adds mask parsed
      obtain ⟨second, remaining⟩ := ih _ others
      rw [writableOf_cons]
      constructor
      · have both := first.trans second
        simpa only [Listing.controls, List.map_append, List.append_nil] using both
      · rw [List.foldlM_cons, allowed, List.map_append, List.foldl_append]
        exact remaining

/-- An MSR that has been registered is listed for the kernel. -/
theorem parseMsr_adds (allowlistData : List (Nat × Word × String))
    (done : parseMsr topo group msr = .ok after) :
    Adds [(listingOf msr).offset] (listingOf msr).controls group after ∧
      allowMsr allowlistData msr =
        .ok (Assoc.assign (listingOf msr).entry.1 (listingOf msr).entry.2 allowlistData) := by
  obtain ⟨_, checked, done⟩ := ok_of_bind done
  obtain ⟨msrOffset, read, done⟩ := ok_of_bind done
  obtain ⟨domainType, _, done⟩ := ok_of_bind done
  obtain ⟨middle, raw, done⟩ := ok_of_bind done
  have offset_eq : (listingOf msr).offset = msrOffset := by
    unfold stoull at read
    dsimp only at read
    split at read
    · exact Except.ok.inj read
    · cases read
  have first := addRawMsrSignal_adds raw
  obtain ⟨second, allowed⟩ := parseFields_adds 0 done
  constructor
  · have both := first.trans second
    rw [← offset_eq] at both
    exact both
  · unfold allowMsr
    rw [checked, Listing.entry, offset_eq]
    change (stoull _).bind _ = _
    rw [read]
    change Except.bind (List.foldlM _ _ _) _ = _
    rw [allowed]
    rfl

/-- The MSRs that a text describes. -/
def listings (parse : String → Option Json) (text : String) : List Listing :=
  match parse text with
  | none => []
  | some root => (root.get "msrs").objectItems.map listingOf

/-- What both passes over some MSRs have done. -/
structure Passes (described : List Listing) (group after : Registered)
    (allowlistData : List (Nat × Word × String)) (allowed : Except DescriptionError (List (Nat × Word × String))) :
    Prop where
  adds : Adds (described.map Listing.offset) (described.flatMap Listing.controls) group after
  lists : allowed = .ok (Assoc.assignAll (described.map Listing.entry) allowlistData)

theorem parseMsrs_passes (allowlistData : List (Nat × Word × String)) {msrs : List (String × Json)}
    (done : msrs.foldlM (parseMsr topo) group = .ok after) :
    Passes (msrs.map listingOf) group after allowlistData (msrs.foldlM allowMsr allowlistData) := by
  induction msrs generalizing group allowlistData with
  | nil =>
      cases done
      exact ⟨Adds.refl, rfl⟩
  | cons msr rest ih =>
      rw [List.foldlM_cons] at done
      obtain ⟨middle, parsed, others⟩ := ok_of_bind done
      obtain ⟨first, allowed⟩ := parseMsr_adds allowlistData parsed
      have second := ih (Assoc.assign (listingOf msr).entry.1 (listingOf msr).entry.2 allowlistData) others
      constructor
      · exact first.trans second.adds
      · rw [List.foldlM_cons, allowed]
        exact second.lists

theorem parseRoot_ok {root : Json} (done : parseRoot parse str = .ok root) : parse str = some root := by
  unfold parseRoot at done
  cases parsed : parse str with
  | none =>
      rw [parsed] at done
      cases done
  | some json =>
      rw [parsed] at done
      cases json with
      | object items =>
          cases done
          rfl
      | _ => cases done

/-- A text that has been registered is listed for the kernel. -/
theorem parseJsonMsrs_passes (allowlistData : List (Nat × Word × String))
    (done : parseJsonMsrs parse topo group str = .ok after) :
    Passes (listings parse str) group after allowlistData (parseJsonMsrsAllowlist parse allowlistData str) := by
  obtain ⟨root, found, done⟩ := ok_of_bind done
  obtain ⟨_, checked, done⟩ := ok_of_bind done
  have passes := parseMsrs_passes allowlistData done
  unfold parseJsonMsrsAllowlist
  rw [listings, parseRoot_ok found, found]
  change Passes _ _ _ _ (Except.bind (checkTopLevel root) _)
  rw [checked]
  exact passes

end Passes

section Coverage

variable {parse : String → Option Json} {topo : PlatformTopo} {files : MsrFiles} {group : Registered}
  {allowlistData : List (Nat × Word × String)}

/-- The MSRs that the descriptions which are built in have, in the order in which they are read. -/
def MsrFiles.described (parse : String → Option Json) (files : MsrFiles) : List Listing :=
  listings parse files.archMsrJson ++ listings parse files.platformData

/-- The offsets of the signals and controls are listed once, each with the masks of its controls. -/
structure Lists (group : Registered) (allowlistData : List (Nat × Word × String)) : Prop where
  once : (allowlistData.map Prod.fst).Nodup
  signals : ∀ signal ∈ group.signalAvailable, signal.2.offset ∈ allowlistData.map Prod.fst
  controls : ∀ control ∈ group.controlAvailable, control.2.offset ∈ allowlistData.map Prod.fst
  masks : ∀ entry ∈ allowlistData, entry.2.1 = combine
    ((group.controlAvailable.filter (·.2.offset = entry.1)).map (·.2.bits.mask))

/-- The list for the kernel is made, and covers what has been registered. -/
def Covers (parse : String → Option Json) (files : MsrFiles) (group : Registered) : Prop :=
  ∃ allowlistData, msrAllowlistData parse files = .ok allowlistData ∧
    msrAllowlist parse files = .ok (formatAllowlist allowlistData) ∧ Lists group allowlistData

/-- A register that is described again has all the bits that controls of it still write, and a control
whose name is taken again leaves its bits to other controls of the register. -/
structure Consistent (described : List Listing) : Prop where
  relisted : ∀ before last after, described = before ++ last :: after →
    (∀ later ∈ after, later.offset ≠ last.offset) →
    ∀ earlier ∈ before, earlier.offset = last.offset →
    ∀ control ∈ earlier.controls, Assoc.Kept (described.flatMap Listing.controls) control →
    ∀ bit, control.2.mask.getLsbD bit = true → ∃ field ∈ last.writable, field.2.getLsbD bit = true
  replaced : ∀ before last after, described = before ++ last :: after →
    (∀ later ∈ after, later.offset ≠ last.offset) →
    ∀ control ∈ last.controls, ¬ Assoc.Kept (described.flatMap Listing.controls) control →
    ∀ bit, control.2.mask.getLsbD bit = true →
      ∃ other, Assoc.Kept (described.flatMap Listing.controls) other ∧
        other.2.offset = last.offset ∧ other.2.mask.getLsbD bit = true

theorem register_passes (registered : register parse topo files = .ok group) (builtIn : files.custom = []) :
    Passes (files.described parse) ⟨[], []⟩ group [] (msrAllowlistData parse files) := by
  obtain ⟨middle, arch, registered⟩ := ok_of_bind registered
  obtain ⟨last, platform, registered⟩ := ok_of_bind registered
  rw [builtIn] at registered
  cases registered
  have first := parseJsonMsrs_passes [] arch
  have second := parseJsonMsrs_passes
    (Assoc.assignAll ((listings parse files.archMsrJson).map Listing.entry) []) platform
  constructor
  · have both := first.adds.trans second.adds
    simpa only [MsrFiles.described, List.map_append, List.flatMap_append] using both
  · unfold msrAllowlistData
    rw [first.lists]
    change Except.bind (parseJsonMsrsAllowlist parse _ _) _ = _
    rw [second.lists, builtIn, MsrFiles.described, List.map_append, Assoc.assignAll_append]
    rfl

/-- The names of the files that have been found are not descriptions. -/
theorem msrAllowlistData_custom {file : String × String} {rest : List (String × String)}
    (custom : files.custom = file :: rest) (unparsed : ∀ items, parse file.1 ≠ some (.object items)) :
    ∀ allowlistData, msrAllowlistData parse files ≠ .ok allowlistData := by
  intro allowlistData made
  obtain ⟨first, _, made⟩ := ok_of_bind made
  obtain ⟨second, _, made⟩ := ok_of_bind made
  rw [custom, List.foldlM_cons] at made
  obtain ⟨third, parsed, _⟩ := ok_of_bind made
  obtain ⟨root, found, _⟩ := ok_of_bind parsed
  unfold parseRoot at found
  split at found
  · exact unparsed _ ‹_›
  · cases found

variable {described : List Listing} {allowed : Except DescriptionError (List (Nat × Word × String))}

/-- The last description of a register. -/
theorem listed_iff {entry : Nat × Word × String} :
    entry ∈ Assoc.assignAll (described.map Listing.entry) [] ↔
      ∃ before last after, described = before ++ last :: after ∧ last.entry = entry ∧
        ∀ later ∈ after, later.offset ≠ last.offset := by
  rw [Assoc.mem_assignAll, Assoc.kept_map]
  constructor
  · rintro ⟨before, last, after, parts, rfl, unlisted⟩
    exact ⟨before, last, after, parts, rfl, unlisted⟩
  · rintro ⟨before, last, after, parts, rfl, unlisted⟩
    exact ⟨before, last, after, parts, rfl, unlisted⟩

theorem written_iff {offset bit : Nat} :
    (∃ mask ∈ (group.controlAvailable.filter (·.2.offset = offset)).map (·.2.bits.mask),
      mask.getLsbD bit = true) ↔
    ∃ control ∈ group.controls, control.2.offset = offset ∧ control.2.mask.getLsbD bit = true := by
  constructor
  · rintro ⟨mask, member, written⟩
    obtain ⟨control, known, rfl⟩ := List.mem_map.mp member
    obtain ⟨available, same⟩ := List.mem_filter.mp known
    exact ⟨(control.1, control.2.bits), List.mem_map_of_mem available, of_decide_eq_true same, written⟩
  · rintro ⟨control, member, same, written⟩
    obtain ⟨known, available, rfl⟩ := List.mem_map.mp member
    refine ⟨known.2.bits.mask, List.mem_map.mpr ⟨known, ?_, rfl⟩, written⟩
    exact List.mem_filter.mpr ⟨available, decide_eq_true same⟩

theorem writable_iff {listing : Listing} {bit : Nat} :
    (∃ mask ∈ listing.writable.map Prod.snd, mask.getLsbD bit = true) ↔
      ∃ control ∈ listing.controls, control.2.mask.getLsbD bit = true := by
  constructor
  · rintro ⟨mask, member, written⟩
    obtain ⟨field, known, rfl⟩ := List.mem_map.mp member
    exact ⟨_, List.mem_map_of_mem known, written⟩
  · rintro ⟨control, member, written⟩
    obtain ⟨field, known, rfl⟩ := List.mem_map.mp member
    exact ⟨_, List.mem_map_of_mem known, written⟩

theorem Passes.mem_controls (passes : Passes described ⟨[], []⟩ group [] allowed)
    {control : String × ControlBits} :
    control ∈ group.controls ↔ Assoc.Kept (described.flatMap Listing.controls) control := by
  rw [passes.adds.controls]
  exact Assoc.mem_assignAll

theorem key_listed {offset : Nat} :
    offset ∈ (Assoc.assignAll (described.map Listing.entry) []).map Prod.fst ↔
      offset ∈ described.map Listing.offset := by
  rw [Assoc.key_mem_assignAll, List.map_map, List.map_nil, or_iff_left List.not_mem_nil]
  rfl

theorem offset_of_controls {control : String × ControlBits}
    (member : control ∈ described.flatMap Listing.controls) :
    ∃ listing ∈ described, control ∈ listing.controls ∧ listing.offset = control.2.offset := by
  obtain ⟨listing, known, made⟩ := List.mem_flatMap.mp member
  obtain ⟨field, _, rfl⟩ := List.mem_map.mp made
  exact ⟨listing, known, made, rfl⟩

/-- The masks of the list are those of the controls exactly where nothing is lost by describing a
register or a control again. -/
theorem Passes.masks_iff (passes : Passes described ⟨[], []⟩ group [] allowed) :
    (∀ entry ∈ Assoc.assignAll (described.map Listing.entry) [], entry.2.1 = combine
      ((group.controlAvailable.filter (·.2.offset = entry.1)).map (·.2.bits.mask))) ↔
      Consistent described := by
  constructor
  · intro masks
    have bits : ∀ before last after, described = before ++ last :: after →
        (∀ later ∈ after, later.offset ≠ last.offset) → ∀ bit,
        (∃ control ∈ last.controls, control.2.mask.getLsbD bit = true) ↔
          ∃ control ∈ group.controls, control.2.offset = last.offset ∧
            control.2.mask.getLsbD bit = true := by
      intro before last after parts unlisted bit
      have same := masks last.entry (listed_iff.mpr ⟨before, last, after, parts, rfl, unlisted⟩)
      rw [← writable_iff, ← written_iff]
      exact combine_eq_iff.mp same bit
    constructor
    · intro before last after parts unlisted earlier _ same control member kept bit written
      have offset_eq : control.2.offset = last.offset := by
        obtain ⟨field, _, rfl⟩ := List.mem_map.mp member
        exact same
      obtain ⟨mask, known, covers⟩ := writable_iff.mpr ((bits before last after parts unlisted bit).mpr
        ⟨control, passes.mem_controls.mpr kept, offset_eq, written⟩)
      obtain ⟨field, writable, rfl⟩ := List.mem_map.mp known
      exact ⟨field, writable, covers⟩
    · intro before last after parts unlisted control member _ bit written
      obtain ⟨other, known, holds⟩ := (bits before last after parts unlisted bit).mp
        ⟨control, member, written⟩
      exact ⟨other, passes.mem_controls.mp known, holds⟩
  · rintro consistent entry member
    obtain ⟨before, last, after, parts, rfl, unlisted⟩ := listed_iff.mp member
    apply combine_eq_iff.mpr
    intro bit
    rw [written_iff, writable_iff]
    constructor
    · rintro ⟨control, made, written⟩
      by_cases kept : Assoc.Kept (described.flatMap Listing.controls) control
      · have offset_eq : control.2.offset = last.offset := by
          obtain ⟨field, _, rfl⟩ := List.mem_map.mp made
          rfl
        exact ⟨control, passes.mem_controls.mpr kept, offset_eq, written⟩
      · obtain ⟨other, still, holds⟩ :=
          consistent.replaced before last after parts unlisted control made kept bit written
        exact ⟨other, passes.mem_controls.mpr still, holds⟩
    · rintro ⟨control, known, same, written⟩
      have kept := passes.mem_controls.mp known
      obtain ⟨listing, member, made, offset_eq⟩ := offset_of_controls kept.mem
      have equal : listing.offset = last.offset := offset_eq.trans same
      rw [parts, List.mem_append, List.mem_cons] at member
      rcases member with earlier | rfl | later
      · obtain ⟨field, writable, covers⟩ := consistent.relisted before last after parts unlisted listing
          earlier equal control made kept bit written
        exact ⟨(field.1, ⟨last.offset, field.2⟩), List.mem_map_of_mem writable, covers⟩
      · exact ⟨control, made, written⟩
      · exact absurd equal (unlisted listing later)

theorem Passes.lists_iff (passes : Passes described ⟨[], []⟩ group [] allowed) :
    Lists group (Assoc.assignAll (described.map Listing.entry) []) ↔ Consistent described := by
  constructor
  · exact fun lists => passes.masks_iff.mp lists.masks
  · intro consistent
    refine ⟨Assoc.nodup_assignAll List.nodup_nil, ?_, ?_, passes.masks_iff.mpr consistent⟩
    · intro signal member
      rw [key_listed]
      rcases passes.adds.signals signal member with offset | ⟨known, absent, _⟩
      · exact offset
      · exact absurd absent List.not_mem_nil
    · intro control member
      rw [key_listed]
      have made : (control.1, control.2.bits) ∈ group.controls := List.mem_map_of_mem member
      obtain ⟨listing, known, _, same⟩ := offset_of_controls (passes.mem_controls.mp made).mem
      exact List.mem_map.mpr ⟨listing, known, same⟩

/-- What the text of an object ends with: a brace, with white space after it. -/
def EndsObject (text : String) : Prop := ∃ last ∈ text.toList.getLast?, last ∈ ['\x7d', ' ', '\t', '\r', '\n']

/-- The list for the kernel covers the controls exactly when no other descriptions have been found and
nothing is lost by describing a register or a control again. -/
theorem covers_iff (objects : ∀ text items, parse text = some (.object items) → EndsObject text)
    (registered : register parse topo files = .ok group) :
    Covers parse files group ↔ files.custom = [] ∧ Consistent (files.described parse) := by
  cases found : files.custom with
  | cons file rest =>
      have named := files.named file (by rw [found]; exact List.mem_cons_self)
      have unparsed : ∀ items, parse file.1 ≠ some (.object items) := by
        intro items parsed
        obtain ⟨last, ends, brace⟩ := objects file.1 items parsed
        obtain ⟨dir, parts⟩ := named
        rw [← parts] at ends
        simp at ends
        subst ends
        revert brace
        decide
      constructor
      · rintro ⟨allowlistData, made, _⟩
        exact absurd made (msrAllowlistData_custom found unparsed allowlistData)
      · rintro ⟨absent, _⟩
        cases absent
  | nil =>
      have passes := register_passes registered found
      rw [← passes.lists_iff]
      constructor
      · rintro ⟨allowlistData, made, _, lists⟩
        rw [passes.lists] at made
        cases made
        exact ⟨rfl, lists⟩
      · rintro ⟨_, lists⟩
        refine ⟨_, passes.lists, ?_, lists⟩
        rw [msrAllowlist, passes.lists]
        rfl

/-- A compute node with one CPU. -/
def oneCpu : PlatformTopo where
  numPackage := 1
  corePerPackage := 1
  threadPerCore := 1
  numaMap := [{0}]
  numAccelerator := 0
  cpuAffinityIdeal _ := ∅

/-- A description without MSRs. -/
def noMsrs : String := "\x7b\"msrs\": \x7b\x7d" ++ "\x7d"

/-- A description of one MSR with one writable field. -/
def turboMsrs : String :=
  "\x7b\"msrs\": \x7b\"MISC_ENABLE\": \x7b\"domain\": \"cpu\", \"fields\": \x7b\"TURBO\": \x7b\"begin_bit\": 38, " ++
    "\"behavior\": \"variable\", \"end_bit\": 38, \"function\": \"scale\", \"scalar\": 1, " ++
    "\"units\": \"none\", \"writeable\": true\x7d\x7d, \"offset\": \"0x1A0\"\x7d\x7d" ++ "\x7d"

/-- The parser on these descriptions. -/
def parseMsrs (text : String) : Option Json :=
  if text = noMsrs then some (.object [("msrs", .object [])])
  else if text = turboMsrs then
    some (.object [("msrs", .object [("MISC_ENABLE", .object [("domain", .string "cpu"),
      ("fields", .object [("TURBO", .object [("begin_bit", .number 38), ("behavior", .string "variable"),
        ("end_bit", .number 38), ("function", .string "scale"), ("scalar", .number 1),
        ("units", .string "none"), ("writeable", .bool true)])]), ("offset", .string "0x1A0")])])])
  else none

theorem endsObject_brace (start : String) : EndsObject (start ++ "\x7d") :=
  ⟨'\x7d', by simp, by decide⟩

theorem parseMsrs_ends (text : String) (items : List (String × Json))
    (parsed : parseMsrs text = some (.object items)) : EndsObject text := by
  unfold parseMsrs at parsed
  split at parsed
  · rename_i same
    rw [same]
    exact endsObject_brace _
  · split at parsed
    · rename_i same
      rw [same]
      exact endsObject_brace _
    · cases parsed

def turboFiles : MsrFiles where
  archMsrJson := turboMsrs
  platformData := noMsrs
  custom := []
  named := by simp

def customFiles : MsrFiles where
  archMsrJson := noMsrs
  platformData := noMsrs
  custom := [("/etc/geopm/msr_turbo.json", turboMsrs)]
  named := by
    intro file member
    rw [List.mem_singleton.mp member]
    exact ⟨"/etc/geopm/msr_turbo".toList, by decide⟩

theorem covers_turbo :
    (∀ text items, parseMsrs text = some (.object items) → EndsObject text) ∧
    ∃ group, register parseMsrs oneCpu turboFiles = .ok group ∧
      (Covers parseMsrs turboFiles group ↔
        turboFiles.custom = [] ∧ Consistent (turboFiles.described parseMsrs)) := by
  have succeeds : (register parseMsrs oneCpu turboFiles).isOk = true := by decide +kernel
  cases registered : register parseMsrs oneCpu turboFiles with
  | error reason =>
      rw [registered] at succeeds
      cases succeeds
  | ok group => exact ⟨parseMsrs_ends, group, rfl, covers_iff parseMsrs_ends registered⟩

/-- A control that a file describes is registered, but the list for the kernel is not made. -/
theorem not_covers_custom :
    ∃ group, register parseMsrs oneCpu customFiles = .ok group ∧ group.controlAvailable ≠ [] ∧
      ¬ Covers parseMsrs customFiles group := by
  have succeeds : ((register parseMsrs oneCpu customFiles).map (·.controlAvailable.length)).toOption =
      some 1 := by decide +kernel
  have throws : msrAllowlistData parseMsrs customFiles = .error .malformed := by decide +kernel
  cases registered : register parseMsrs oneCpu customFiles with
  | error reason =>
      rw [registered] at succeeds
      cases succeeds
  | ok group =>
      refine ⟨group, rfl, ?_, ?_⟩
      · intro empty
        rw [registered, Except.map, empty] at succeeds
        cases succeeds
      · rintro ⟨allowlistData, made, _⟩
        rw [throws] at made
        cases made

end Coverage

end MsrDescription

end Geopm
