import Geopm.Record
import Geopm.Library.Table
import Mathlib.Logic.Function.Basic

namespace Geopm

/-! `ApplicationRecordLog`: the shared table of records and short regions,
with the producer's private state next to it.

The producer calls `enter`, `exit` and `epoch`, the consumer calls `dump`.
Each call holds the lock of the shared memory, so a call is one step.
-/

/-- `ApplicationRecordLog::M_MAX_RECORD`. -/
def maxRecord : Nat := 1024

/-- `ApplicationRecordLog::M_MAX_REGION`. -/
def maxRegion : Nat := maxRecord + 1

inductive LogError where
  /-- "set_process() must be called prior to calling enter(), exit() or epoch()". -/
  | processNotSet
  /-- "set_time_zero() must be called prior to calling enter(), exit() or epoch()". -/
  | timeZeroNotSet
  /-- "maximum number of records reached." -/
  | maximumRecords
  /-- No exception of the source: a table is written outside its bounds. -/
  | outOfBounds
deriving Repr, DecidableEq

/-- `m_layout_s`, the content of the shared memory. -/
structure Layout where
  numRecord : Nat
  recordTable : Vector Record maxRecord
  numRegion : Nat
  regionTable : Vector ShortRegion maxRegion

/-- `m_region_enter_s`. An index is -1 while it points nowhere. -/
structure RegionEnter where
  recordIdx : Int
  regionIdx : Int
  enterTime : Time
  isShort : Bool
deriving Repr, DecidableEq

/-- `ApplicationRecordLogImp`, with the shared layout that it points to. -/
structure RecordLog where
  process : Int
  timeZero : Time
  isSetup : Bool
  epochCount : Nat
  enteredRegionHash : Nat
  hashRegionEnterMap : Nat → Option RegionEnter
  layout : Layout

/-- What a call leaves behind, and the exception it ended with, if any. -/
structure Outcome where
  log : RecordLog
  thrown : Option LogError

/-- The assignment to `m_entered_region_hash` that ends `enter` and `exit`. -/
def Outcome.setEntered (outcome : Outcome) (hash : Nat) : Outcome :=
  match outcome.thrown with
  | none => { outcome with log := { outcome.log with enteredRegionHash := hash } }
  | some _ => outcome

namespace Layout

/-- `append_record`. -/
def appendRecord (layout : Layout) (record : Record) : Except LogError Layout :=
  if bound : layout.numRecord < maxRecord then
    .ok { layout with
      recordTable := layout.recordTable.set layout.numRecord record
      numRecord := layout.numRecord + 1 }
  else .error .maximumRecords

/-- A write through `record_table[index]`. -/
def modifyRecord (layout : Layout) (index : Int) (change : Record → Record) :
    Except LogError Layout :=
  if bound : 0 ≤ index ∧ index.toNat < maxRecord then
    .ok { layout with recordTable := Table.modify layout.recordTable index.toNat bound.2 change }
  else .error .outOfBounds

/-- A write through `region_table[index]`. -/
def modifyRegion (layout : Layout) (index : Int) (change : ShortRegion → ShortRegion) :
    Except LogError Layout :=
  if bound : 0 ≤ index ∧ index.toNat < maxRegion then
    .ok { layout with regionTable := Table.modify layout.regionTable index.toNat bound.2 change }
  else .error .outOfBounds

/-- Add an empty short region at the end of `region_table`. -/
def addRegion (layout : Layout) (hash : Nat) : Except LogError Layout :=
  { layout with numRegion := layout.numRegion + 1 }.modifyRegion layout.numRegion
    fun _ => { hash, numComplete := 0, totalTime := 0 }

/-- The records that a dump would return. -/
def records (layout : Layout) : List Record := Table.used layout.recordTable layout.numRecord

/-- The short regions that a dump would return. -/
def regions (layout : Layout) : List ShortRegion := Table.used layout.regionTable layout.numRegion

end Layout

/-- Turn an entry record into the short region event with the given handle. -/
def Record.toShort (regionIdx : Nat) (record : Record) : Record :=
  { record with event := .shortRegion, signal := regionIdx }

/-- Count one more visit of a short region. -/
def ShortRegion.complete (elapsed : Rat) (region : ShortRegion) : ShortRegion :=
  { region with numComplete := region.numComplete + 1, totalTime := region.totalTime + elapsed }

namespace RecordLog

/-- The log as constructed over zeroed shared memory, after `set_process`
and `set_time_zero`. -/
def initial (process : Int) (timeZero : Time) : RecordLog where
  process
  timeZero
  isSetup := false
  epochCount := 0
  enteredRegionHash := regionHashInvalid
  hashRegionEnterMap := fun _ => none
  layout := {
    numRecord := 0
    recordTable := Vector.replicate maxRecord ⟨0, 0, .regionEntry, 0⟩
    numRegion := 0
    regionTable := Vector.replicate maxRegion ⟨0, 0, 0⟩ }

/-- `check_setup`. -/
def checkSetup (log : RecordLog) : Except LogError RecordLog :=
  if log.isSetup then .ok log
  else if log.process = -1 then .error .processNotSet
  else if timeDiff log.timeZero ⟨0, 0⟩ = 0 then .error .timeZeroNotSet
  else .ok { log with isSetup := true }

/-- The part of `m_hash_region_enter_map` that `check_reset` keeps. -/
def keptRegion (map : Nat → Option RegionEnter) (entered : Nat) : Nat → Option RegionEnter :=
  match map entered with
  | some entryInfo =>
      if entryInfo.isShort then
        -- marked as short before: kept so that a future exit is converted
        Function.update (fun _ => none) entered
          (some { entryInfo with recordIdx := -1, regionIdx := -1 })
      else fun _ => none
  | none => fun _ => none

/-- `check_reset`. An empty table means that the other side has cleared it. -/
def checkReset (log : RecordLog) : RecordLog :=
  if log.layout.numRecord = 0 then
    { log with hashRegionEnterMap := keptRegion log.hashRegionEnterMap log.enteredRegionHash }
  else log

def setRegion (log : RecordLog) (hash : Nat) (regionEnter : RegionEnter) : RecordLog :=
  { log with hashRegionEnterMap := Function.update log.hashRegionEnterMap hash (some regionEnter) }

/-- A record of the log's process at the given time. -/
def record (log : RecordLog) (time : Time) (event : Event) (signal : Nat) : Record where
  time := timeDiff log.timeZero time
  process := log.process
  event
  signal

/-- `append_record` on the shared layout. On a throw the layout is unchanged. -/
def append (log : RecordLog) (record : Record) : Outcome :=
  match log.layout.appendRecord record with
  | .ok layout => ⟨{ log with layout }, none⟩
  | .error reason => ⟨log, some reason⟩

/-- The checks that open `enter`, `exit` and `epoch`, followed by the rest of the call. -/
def checked (log : RecordLog) (rest : RecordLog → Outcome) : Outcome :=
  match log.checkSetup with
  | .error reason => ⟨log, some reason⟩
  | .ok log => rest log.checkReset

/-- `enter`, after its checks. The map entry of a region that is new in this
interval is made before its record is appended. -/
def enterChecked (hash : Nat) (time : Time) (log : RecordLog) : Outcome :=
  match log.hashRegionEnterMap hash with
  | some regionEnter =>
      Outcome.setEntered ⟨log.setRegion hash { regionEnter with enterTime := time }, none⟩ hash
  | none =>
      let regionEnter := {
        recordIdx := log.layout.numRecord
        regionIdx := -1 -- not a short region yet
        enterTime := time
        isShort := false }
      ((log.setRegion hash regionEnter).append (log.record time .regionEntry hash)).setEntered hash

/-- `enter`. -/
def enter (log : RecordLog) (hash : Nat) (time : Time) : Outcome :=
  log.checked (enterChecked hash time)

/-- The end of `exit`: update the count and total time of a short region. -/
def completeVisit (log : RecordLog) (regionIdx : Int) (elapsed : Rat) : Outcome :=
  match log.layout.modifyRegion regionIdx (ShortRegion.complete elapsed) with
  | .ok layout => ⟨{ log with layout }, none⟩
  | .error reason => ⟨log, some reason⟩

/-- `exit`, from where the region has a record: find or add the region in the
short regions array, convert the record if the region was added, count the visit. -/
def exitRecorded (log : RecordLog) (hash : Nat) (time : Time) (enterInfo : RegionEnter) :
    Outcome :=
  let elapsed := timeDiff enterInfo.enterTime time
  if enterInfo.regionIdx = -1 then
    let regionIdx := log.layout.numRegion
    let log := log.setRegion hash { enterInfo with regionIdx }
    match log.layout.addRegion hash with
    | .error reason => ⟨log, some reason⟩
    | .ok layout =>
        match layout.modifyRecord enterInfo.recordIdx (Record.toShort regionIdx) with
        | .error reason => ⟨{ log with layout }, some reason⟩
        | .ok layout => completeVisit { log with layout } regionIdx elapsed
  else log.completeVisit enterInfo.regionIdx elapsed

/-- `exit` of a region that was marked short before or was entered in this
interval. An entry of an earlier interval gets its record here. -/
def exitKnown (log : RecordLog) (hash : Nat) (time : Time) (enterInfo : RegionEnter) : Outcome :=
  let enterInfo := { enterInfo with isShort := true }
  if enterInfo.recordIdx = -1 then
    let enterInfo := { enterInfo with recordIdx := log.layout.numRecord }
    let outcome := (log.setRegion hash enterInfo).append (log.record time .regionEntry hash)
    match outcome.thrown with
    | some _ => outcome
    | none => outcome.log.exitRecorded hash time enterInfo
  else (log.setRegion hash enterInfo).exitRecorded hash time enterInfo

/-- `exit`, after its checks. -/
def exitChecked (hash : Nat) (time : Time) (log : RecordLog) : Outcome :=
  match log.hashRegionEnterMap hash with
  | none => (log.append (log.record time .regionExit hash)).setEntered regionHashInvalid
  | some enterInfo => (log.exitKnown hash time enterInfo).setEntered regionHashInvalid

/-- `exit`. -/
def exit (log : RecordLog) (hash : Nat) (time : Time) : Outcome :=
  log.checked (exitChecked hash time)

/-- `epoch`, after its checks. The count is increased before the record is appended. -/
def epochChecked (time : Time) (log : RecordLog) : Outcome :=
  let log := { log with epochCount := log.epochCount + 1 }
  log.append (log.record time .epochCount log.epochCount)

/-- `epoch`. -/
def epoch (log : RecordLog) (time : Time) : Outcome := log.checked (epochChecked time)

/-- The state that `dump` leaves. It does nothing with the map. -/
def cleared (log : RecordLog) : RecordLog :=
  { log with layout := { log.layout with numRecord := 0, numRegion := 0 } }

/-- `dump`, with the records and short regions that it returns. -/
def dump (log : RecordLog) : (List Record × List ShortRegion) × RecordLog :=
  ((log.layout.records, log.layout.regions), log.cleared)

/-- The calls on a log, of the producer and of the consumer. -/
inductive Call where
  | enter (hash : Nat) (time : Time)
  | exit (hash : Nat) (time : Time)
  | epoch (time : Time)
  | dump
deriving Repr, DecidableEq

def call (log : RecordLog) : Call → Outcome
  | .enter hash time => log.enter hash time
  | .exit hash time => log.exit hash time
  | .epoch time => log.epoch time
  | .dump => ⟨log.dump.2, none⟩

/-- The log after a call, whether the call threw or not. -/
def step (log : RecordLog) (call : Call) : RecordLog := (log.call call).log

end RecordLog

end Geopm
