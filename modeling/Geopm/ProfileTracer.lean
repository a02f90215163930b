import Geopm.ApplicationSampler
import Geopm.Library.Objects

namespace Geopm

/-! `ProfileTracer`: one row of the trace for each record of the sampler. -/

inductive TraceError where
  /-- "CSVImp::activate() must be called prior to update" -/
  | notActive
  /-- "CSVImp::update(): Input vector incorrectly sized" -/
  | incorrectlySized
  /-- "unsupported event type: " -/
  | unsupportedEvent (type : Int)
  /-- "hint_hame(): Invalid hint" -/
  | invalidHint (hint : Int)
deriving Repr, DecidableEq

/-- The texts of numbers, and the value of a `uint64_t` as a `double`. -/
structure Formats where
  /-- `string_format_double` -/
  double : Rat → String
  /-- `string_format_integer` -/
  integer : Rat → String
  /-- `string_format_hex` -/
  hex : Rat → String
  ofSignal : Nat → Rat

/-- The value of the enumerator. -/
def Event.code : Event → Int
  | .regionEntry => 0
  | .regionExit => 1
  | .epochCount => 2
  | .hint => 3
  | .profile => 4
  | .report => 5
  | .claimCpu => 6
  | .releaseCpu => 7
  | .nameMap => 8
  | .shortRegion => 9

/-- `event_name`. -/
def eventName (type : Int) : Except TraceError String :=
  match [((0 : Int), "REGION_ENTRY"), (1, "REGION_EXIT"), (2, "EPOCH_COUNT"), (3, "HINT")].lookup
    type with
  | some name => .ok name
  | none => .error (.unsupportedEvent type)

/-- `hint_name`. -/
def hintName (hint : Int) : Except TraceError String :=
  match [((2 ^ 32 : Int), "UNKNOWN"), (2 ^ 33, "COMPUTE"), (2 ^ 34, "MEMORY"), (2 ^ 35, "NETWORK"),
    (2 ^ 36, "IO"), (2 ^ 37, "SERIAL"), (2 ^ 38, "PARALLEL"), (2 ^ 39, "IGNORE")].lookup hint with
  | some name => .ok name
  | none => .error (.invalidHint hint)

inductive ColumnFormat where
  | double
  | integer
  /-- `event_format`, for the column of the event and then for that of the signal -/
  | event
deriving DecidableEq

/-- `ProfileTracerImp` with its `CSVImp`, and the static variables of `event_format`. -/
structure ProfileTracer where
  isTraceEnabled : Bool
  columns : List (String × ColumnFormat)
  isActive : Bool
  bufferLimit : Nat
  buffer : String
  /-- what has been written to the file -/
  stream : String
  isSignal : Bool
  eventType : Int

abbrev TracerM := EStateM TraceError ProfileTracer

namespace ProfileTracer

variable (formats : Formats)

def write (text : String) : TracerM Unit :=
  modify fun tracer => { tracer with buffer := tracer.buffer ++ text }

/-- The text of a signal, by the type of the event before it. -/
def signalText (type : Int) (value : Rat) : Except TraceError String :=
  if type = Event.regionEntry.code ∨ type = Event.regionExit.code then .ok (formats.hex value)
  else if type = Event.epochCount.code then .ok (formats.integer value)
  else if type = Event.hint.code then hintName (truncate value)
  else .ok "INVALID"

/-- `event_format`. -/
def eventFormat (value : Rat) : TracerM String := do
  let tracer ← get
  if !tracer.isSignal then
    set { tracer with eventType := truncate value }
    match eventName (truncate value) with
    | .error reason => throw reason
    | .ok result =>
        -- the next call will format the signal column
        modify fun tracer => { tracer with isSignal := true }
        pure result
  else
    match signalText formats tracer.eventType value with
    | .error reason => throw reason
    | .ok result =>
        modify fun tracer => { tracer with isSignal := false }
        pure result

def format (value : Rat) : ColumnFormat → TracerM String
  | .double => pure (formats.double value)
  | .integer => pure (formats.integer value)
  | .event => eventFormat formats value

/-- The columns of a row, with a separator before all but the first. -/
def writeColumns : List (ColumnFormat × Rat) → Bool → TracerM Unit
  | [], _ => pure ()
  | (column, value) :: rest, isFirst => do
      if !isFirst then
        write "|"
      write (← format formats value column)
      writeColumns rest false

/-- Write a full buffer to the file. -/
def flushFull (tracer : ProfileTracer) : ProfileTracer :=
  if tracer.bufferLimit < tracer.buffer.utf8ByteSize then
    { tracer with stream := tracer.stream ++ tracer.buffer, buffer := "" }
  else tracer

/-- `CSVImp::update`. -/
def updateCsv (sample : List Rat) : TracerM Unit := do
  let tracer ← get
  if !tracer.isActive then
    throw .notActive
  if sample.length ≠ tracer.columns.length then
    throw .incorrectlySized
  writeColumns formats ((tracer.columns.map Prod.snd).zip sample) true
  write "\n"
  modify flushFull

def sampleOf (record : Record) : List Rat :=
  [record.time, record.process, record.event.code, formats.ofSignal record.signal]

/-- `update`. -/
def update (records : List Record) : TracerM Unit := do
  if (← get).isTraceEnabled then
    records.forM fun record => updateCsv formats (sampleOf formats record)

/-- The columns that the constructor adds. -/
def traceColumns : List (String × ColumnFormat) :=
  [("TIME", .double), ("PROCESS", .integer), ("EVENT", .event), ("SIGNAL", .event)]

/-- The constructor, after `activate` has written the names of the columns below
the given header. No tracer has been used before. -/
def new (header : String) (bufferLimit : Nat) : ProfileTracer where
  isTraceEnabled := true
  columns := traceColumns
  isActive := true
  bufferLimit
  buffer := header ++ "|".intercalate (traceColumns.map Prod.fst) ++ "\n"
  stream := ""
  isSignal := false
  eventType := 0

/-- All that was written. -/
def text (tracer : ProfileTracer) : String := tracer.stream ++ tracer.buffer

/-- The complete row of a record of an event with a name and the text of its signal. -/
def row (record : Record) (name signal : String) : String :=
  formats.double record.time ++ "|" ++ formats.integer record.process ++ "|" ++ name ++ "|" ++
    signal ++ "\n"

end ProfileTracer

/-- The events of the records that the logs emit. -/
def Event.Logged (event : Event) : Prop :=
  event = .regionEntry ∨ event = .regionExit ∨ event = .epochCount ∨ event = .shortRegion

instance (event : Event) : Decidable event.Logged := inferInstanceAs (Decidable (_ ∨ _))

namespace ProfileTracer

/-- The row of a record of a logged event. -/
def traceRow (formats : Formats) (record : Record) : String :=
  match record.event with
  | .regionEntry => row formats record "REGION_ENTRY" (formats.hex (formats.ofSignal record.signal))
  | .regionExit => row formats record "REGION_EXIT" (formats.hex (formats.ofSignal record.signal))
  | .epochCount => row formats record "EPOCH_COUNT" (formats.integer (formats.ofSignal record.signal))
  | _ => row formats record "SHORT_REGION" (formats.hex (formats.ofSignal record.signal))

/-- A tracer as it is between two rows. -/
structure Ready (tracer : ProfileTracer) : Prop where
  isTraceEnabled : tracer.isTraceEnabled = true
  columns : tracer.columns = traceColumns
  isActive : tracer.isActive = true
  isSignal : tracer.isSignal = false

variable {formats : Formats} {tracer : ProfileTracer} {record : Record} {records : List Record}

theorem new_ready (header : String) (bufferLimit : Nat) : (new header bufferLimit).Ready :=
  ⟨rfl, rfl, rfl, rfl⟩

theorem Ready.flushFull (ready : tracer.Ready) : tracer.flushFull.Ready := by
  unfold ProfileTracer.flushFull
  split
  · exact ⟨ready.isTraceEnabled, ready.columns, ready.isActive, ready.isSignal⟩
  · exact ready

theorem text_flushFull (tracer : ProfileTracer) : tracer.flushFull.text = tracer.text := by
  unfold flushFull
  split
  · simp [text]
  · rfl

/-- A record of an event with a name makes a complete row. -/
theorem updateCsv_named {name signal : String} (ready : tracer.Ready)
    (named : eventName record.event.code = .ok name)
    (valued : signalText formats record.event.code (formats.ofSignal record.signal) = .ok signal) :
    ∃ after, (updateCsv formats (sampleOf formats record)).run tracer = .ok () after ∧
      after.Ready ∧ after.text = tracer.text ++ row formats record name signal := by
  obtain ⟨enabled, columns, active, between⟩ := ready
  obtain ⟨isTraceEnabled, _, isActive, bufferLimit, buffer, stream, isSignal, eventType⟩ := tracer
  simp only at enabled columns active between
  subst enabled columns active between
  have done : (updateCsv formats (sampleOf formats record)).run
      ⟨true, traceColumns, true, bufferLimit, buffer, stream, false, eventType⟩ = .ok ()
        (flushFull ⟨true, traceColumns, true, bufferLimit,
          buffer ++ row formats record name signal, stream, false, record.event.code⟩) := by
    simp [updateCsv, writeColumns, sampleOf, traceColumns, format, eventFormat, write, named,
      valued, row, String.append_assoc]
  refine ⟨_, done, Ready.flushFull ⟨rfl, rfl, rfl, rfl⟩, ?_⟩
  rw [text_flushFull]
  simp only [text, String.append_assoc]

/-- An event without a name stops the row at its column. -/
theorem updateCsv_unnamed {reason : TraceError} (ready : tracer.Ready)
    (unnamed : eventName record.event.code = .error reason) :
    ∃ after, (updateCsv formats (sampleOf formats record)).run tracer = .error reason after ∧
      after.Ready ∧ after.text = tracer.text ++ formats.double record.time ++ "|" ++
        formats.integer record.process ++ "|" := by
  obtain ⟨enabled, columns, active, between⟩ := ready
  obtain ⟨isTraceEnabled, _, isActive, bufferLimit, buffer, stream, isSignal, eventType⟩ := tracer
  simp only at enabled columns active between
  subst enabled columns active between
  have thrown : (updateCsv formats (sampleOf formats record)).run
      ⟨true, traceColumns, true, bufferLimit, buffer, stream, false, eventType⟩ = .error reason
        ⟨true, traceColumns, true, bufferLimit,
          buffer ++ formats.double record.time ++ "|" ++ formats.integer record.process ++ "|",
          stream, false, record.event.code⟩ := by
    simp [updateCsv, writeColumns, sampleOf, traceColumns, format, eventFormat, write, unnamed]
  refine ⟨_, thrown, ⟨rfl, rfl, rfl, rfl⟩, ?_⟩
  simp only [text, String.append_assoc]

/-- A record of the log other than a short region makes its row. -/
theorem updateCsv_logged (ready : tracer.Ready) (logged : record.event.Logged)
    (long : record.event ≠ .shortRegion) :
    ∃ after, (updateCsv formats (sampleOf formats record)).run tracer = .ok () after ∧
      after.Ready ∧ after.text = tracer.text ++ traceRow formats record := by
  rcases logged with entry | exit | epoch | short
  · have done := @updateCsv_named formats tracer record _ _ ready (by rw [entry]; rfl) (by rw [entry]; rfl)
    simpa only [traceRow, entry] using done
  · have done := @updateCsv_named formats tracer record _ _ ready (by rw [exit]; rfl) (by rw [exit]; rfl)
    simpa only [traceRow, exit] using done
  · have done := @updateCsv_named formats tracer record _ _ ready (by rw [epoch]; rfl) (by rw [epoch]; rfl)
    simpa only [traceRow, epoch] using done
  · exact absurd short long

theorem updateCsv_short (ready : tracer.Ready) (short : record.event = .shortRegion) :
    ∃ after, (updateCsv formats (sampleOf formats record)).run tracer =
      .error (.unsupportedEvent 9) after ∧ after.Ready := by
  obtain ⟨after, thrown, ready, _⟩ := @updateCsv_unnamed formats tracer record
    (.unsupportedEvent 9) ready (by rw [short]; rfl)
  exact ⟨after, thrown, ready⟩

theorem update_eq (ready : tracer.Ready) : (update formats records).run tracer =
    (records.forM fun record => updateCsv formats (sampleOf formats record)).run tracer := by
  simp [update, ready.isTraceEnabled]

theorem rows_cons (first : Record) (rest : List Record) :
    ((first :: rest).forM fun record => updateCsv formats (sampleOf formats record)).run tracer =
      (updateCsv formats (sampleOf formats first) >>= fun _ =>
        rest.forM fun record => updateCsv formats (sampleOf formats record)).run tracer :=
  rfl

/-- The rows of a vector without short regions are complete and in order. -/
theorem rows_written (ready : tracer.Ready) (logged : ∀ record ∈ records, record.event.Logged)
    (long : ∀ record ∈ records, record.event ≠ .shortRegion) :
    ∃ after, (records.forM fun record => updateCsv formats (sampleOf formats record)).run tracer =
      .ok () after ∧ after.Ready ∧
        after.text = tracer.text ++ String.join (records.map (traceRow formats)) := by
  induction records generalizing tracer with
  | nil => exact ⟨tracer, rfl, ready, by simp⟩
  | cons record rest ih =>
      obtain ⟨middle, first, between, text⟩ :=
        @updateCsv_logged formats _ _ ready (logged record (by simp)) (long record (by simp))
      obtain ⟨after, others, last, texts⟩ := ih between
        (fun other member => logged other (by simp [member]))
        fun other member => long other (by simp [member])
      refine ⟨after, ?_, last, ?_⟩
      · rw [rows_cons, EStateM.run_bind, first]
        exact others
      · rw [texts, text, List.map_cons, String.join_cons, String.append_assoc]

/-- A short region stops the trace. -/
theorem rows_stopped (ready : tracer.Ready) (logged : ∀ record ∈ records, record.event.Logged)
    (member : record ∈ records) (short : record.event = .shortRegion) :
    ∃ after, (records.forM fun record => updateCsv formats (sampleOf formats record)).run tracer =
      .error (.unsupportedEvent 9) after ∧ after.Ready := by
  induction records generalizing tracer with
  | nil => simp at member
  | cons first rest ih =>
      by_cases here : first.event = .shortRegion
      · obtain ⟨after, thrown, between⟩ := @updateCsv_short formats _ _ ready here
        refine ⟨after, ?_, between⟩
        rw [rows_cons, EStateM.run_bind, thrown]
      · obtain ⟨middle, done, between, _⟩ :=
          @updateCsv_logged formats _ _ ready (logged first (by simp)) here
        have later : record ∈ rest := by
          rcases List.mem_cons.mp member with rfl | later
          · exact absurd short here
          · exact later
        obtain ⟨after, thrown, last⟩ := ih between
          (fun other member => logged other (by simp [member])) later
        refine ⟨after, ?_, last⟩
        rw [rows_cons, EStateM.run_bind, done]
        exact thrown

/-- However an update ends, the next one starts with a column of events. -/
theorem Ready.update (ready : tracer.Ready) (logged : ∀ record ∈ records, record.event.Logged) :
    (Stateful.leaves (ProfileTracer.update formats records) tracer).Ready := by
  by_cases long : ∀ record ∈ records, record.event ≠ .shortRegion
  · obtain ⟨after, done, between, _⟩ := @rows_written formats _ _ ready logged long
    rw [Stateful.leaves_of_ok ((update_eq ready).trans done)]
    exact between
  · push Not at long
    obtain ⟨record, member, short⟩ := long
    obtain ⟨after, thrown, between⟩ := @rows_stopped formats _ _ _ ready logged member short
    rw [Stateful.leaves_of_error ((update_eq ready).trans thrown)]
    exact between

/-- The tracer after updates with the given vectors, some of which may have thrown. -/
def afterUpdates (formats : Formats) (tracer : ProfileTracer) (updates : List (List Record)) :
    ProfileTracer :=
  updates.foldl (fun tracer records => Stateful.leaves (update formats records) tracer) tracer

theorem Ready.afterUpdates {updates : List (List Record)} (ready : tracer.Ready)
    (logged : ∀ records ∈ updates, ∀ record ∈ records, record.event.Logged) :
    (ProfileTracer.afterUpdates formats tracer updates).Ready := by
  induction updates generalizing tracer with
  | nil => exact ready
  | cons records rest ih =>
      exact ih (ready.update (logged records (by simp)))
        fun other member => logged other (by simp [member])

/-- After any updates, a vector of logged records is traced without an exception
and with one complete row for each record, in order, if and only if it has no
short region. -/
theorem traced_iff (header : String) (bufferLimit : Nat) (updates : List (List Record))
    (records : List Record) (before : ∀ records ∈ updates, ∀ record ∈ records, record.event.Logged)
    (logged : ∀ record ∈ records, record.event.Logged) :
    let tracer := afterUpdates formats (new header bufferLimit) updates
    (∃ after, (update formats records).run tracer = .ok () after ∧
      after.text = tracer.text ++ String.join (records.map (traceRow formats))) ↔
      ∀ record ∈ records, record.event ≠ .shortRegion := by
  intro tracer
  have ready : tracer.Ready := (new_ready header bufferLimit).afterUpdates before
  constructor
  · rintro ⟨after, done, _⟩ record member short
    obtain ⟨other, thrown, _⟩ := @rows_stopped formats _ _ _ ready logged member short
    rw [update_eq ready, thrown] at done
    simp at done
  · intro long
    obtain ⟨after, done, _, text⟩ := @rows_written formats _ _ ready logged long
    exact ⟨after, (update_eq ready).trans done, text⟩

/-- Formats that write every number as the same digit. -/
def digits : Formats := ⟨fun _ => "0", fun _ => "0", fun _ => "0", fun signal => signal⟩

theorem traced_iff_long :
    let tracer := afterUpdates digits (new "" 100) [[⟨1, 1, .regionEntry, 7⟩]]
    (∃ after, (update digits [⟨2, 1, .epochCount, 1⟩, ⟨3, 1, .regionExit, 7⟩]).run tracer =
      .ok () after ∧ after.text = tracer.text ++ String.join
        ([⟨2, 1, .epochCount, 1⟩, ⟨3, 1, .regionExit, 7⟩].map (traceRow digits))) ↔
      ∀ record ∈ ([⟨2, 1, .epochCount, 1⟩, ⟨3, 1, .regionExit, 7⟩] : List Record),
        record.event ≠ .shortRegion :=
  traced_iff "" 100 _ _ (by decide) (by decide)

/-- A sampler of one process that has visited a region. -/
def visitedSampler : ApplicationSampler Unit where
  keys := [1]
  processMap := fun key =>
    ⟨none, .new, ((RecordLog.initial key ⟨1, 0⟩).step (.enter 7 ⟨2, 0⟩)).step (.exit 7 ⟨3, 0⟩)⟩
  recordBuffer := []
  shortRegionBuffer := []

/-- One short visit stops the trace in the middle of a row. -/
theorem untraced_visit :
    visitedSampler.update.map (·.recordBuffer) = .ok [⟨1, 1, .shortRegion, 0⟩] ∧
    ∃ after, (update digits [⟨1, 1, .shortRegion, 0⟩]).run (new "" 100) =
      .error (.unsupportedEvent 9) after ∧ after.text = (new "" 100).text ++ "0|0|" := by
  refine ⟨by decide +kernel, _, rfl, by decide +kernel⟩

end ProfileTracer

end Geopm
