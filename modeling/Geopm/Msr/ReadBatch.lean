import Geopm.Library.Objects
import Geopm.Library.Run
import Geopm.Msr.Batch

namespace Geopm

open Stateful (leaves)

/-! Batched reads.

`m_read_batch` points into the array of the vector `m_read_batch_op` as it was
when `read_batch` was last called. The vector may move to another array when an
operation is added to it; how much room the new one has is up to the library.
-/

/-- `m_msr_batch_array_s` of the reads. A null pointer points to no array. -/
structure BatchArray where
  numops : Nat
  ops : Option Nat
deriving DecidableEq

/-- `MSRIOImp` with what it needs for batched reads. -/
structure Reader where
  machine : Machine
  readBatchOp : List BatchOp
  /-- which array the vector has its operations in -/
  array : Nat
  /-- for how many operations the array has room -/
  capacity : Nat
  readBatchArray : BatchArray
  isBatchRead : Bool

abbrev ReaderM := EStateM MsrError Reader

/-- What comes of a call of `sample`. -/
inductive Sampled where
  | thrown
  | value (word : Word)
  /-- no operation of the vector is at the address that is read -/
  | undefined
deriving DecidableEq

namespace Reader

def new (registers : Registers) (numCpu : Nat) (isBatchEnabled : Bool) : Reader where
  machine := Machine.start registers numCpu isBatchEnabled
  readBatchOp := []
  array := 0
  capacity := 0
  readBatchArray := ⟨0, none⟩
  isBatchRead := false

def readOp (cpu : Int) (offset : Nat) : BatchOp :=
  ⟨(cpu % 2 ^ 16).toNat, true, 0, offset % 2 ^ 32, 0, 0⟩

def addRead (grow : Nat → Nat) (cpu : Int) (offset : Nat) : ReaderM Nat := do
  let reader ← get
  let idx := reader.readBatchOp.length
  let readBatchOp := reader.readBatchOp ++ [readOp cpu offset]
  if idx < reader.capacity then
    set { reader with readBatchOp }
  else
    set { reader with
      readBatchOp
      array := reader.array + 1
      capacity := max (idx + 1) (grow idx) }
  pure idx

def sample (reader : Reader) (batchIdx : Int) : Sampled :=
  if !reader.isBatchRead then .thrown
  else if reader.readBatchArray.ops = some reader.array ∧ 0 ≤ batchIdx then
    match reader.readBatchOp[batchIdx.toNat]? with
    | some op => .value op.msrdata
    | none => .undefined
  else .undefined

def onMachine {Value : Type} (computation : MsrM Value) : ReaderM Value :=
  Objects.within (·.machine) (fun reader machine => { reader with machine }) id computation

def store (index : Nat) (word : Word) (reader : Reader) : Reader :=
  { reader with
    readBatchOp := reader.readBatchOp.modify index fun op => { op with msrdata := word } }

section

variable (driver : Driver)

/-- `msr_ioctl` on the read batch. -/
def msrIoctlRead : ReaderM Unit := do
  let reader ← get
  match driver.ioctl reader.machine.registers reader.readBatchOp with
  | none => throw .ioctlFailed
  | some (registers, done) =>
      set { reader with machine := reader.machine.changed registers, readBatchOp := done }
      match done.find? (·.err ≠ 0) with
      | some op => throw (.operationFailed op.msr)
      | none => pure ()

/-- The operations from an index on one by one, where there is no batch file. -/
def readEach : Nat → List BatchOp → ReaderM Unit
  | _, [] => pure ()
  | index, op :: rest => do
      let word ← onMachine (Msrio.readMsr driver op.cpu op.msr)
      modify (·.store index word)
      readEach (index + 1) rest

/-- `read_batch` between its first lines and its last one. -/
def readOperations : ReaderM Unit := do
  let reader ← get
  if reader.machine.msrio.isBatchEnabled then
    msrIoctlRead driver
  else
    readEach driver 0 reader.readBatchOp

def readBatch : ReaderM Unit := do
  modify fun reader =>
    { reader with readBatchArray := ⟨reader.readBatchOp.length, some reader.array⟩ }
  readOperations driver
  modify fun reader => { reader with isBatchRead := true }

def writeBatch : ReaderM Unit := do
  onMachine (Msrio.writeBatch driver)
  modify fun reader => { reader with isBatchRead := true }

/-- What the system calls of `readEach` return until one fails. -/
def fetched (machine : Machine) : List BatchOp → List Word
  | [] => []
  | op :: rest =>
      match (Msrio.readMsr driver op.cpu op.msr).run machine with
      | .ok word _ => word :: fetched machine rest
      | .error _ _ => []

end

/-- Entries from an index on are replaced. -/
def note : List (Option Word) → Nat → List Word → List (Option Word)
  | latest, _, [] => latest
  | latest, index, word :: rest => note (latest.set index (some word)) (index + 1) rest

/-- What a batch read has read for each operation: in one system call, in which an
operation may fail for itself, or in one for each operation. Operations that it
has not come to keep what was read for them before. -/
def taken (driver : Driver) (reader : Reader) (latest : List (Option Word)) : List (Option Word) :=
  if reader.machine.msrio.isBatchEnabled then
    match driver.ioctl reader.machine.registers reader.readBatchOp with
    | none => latest
    | some (_, done) => done.map fun op => if op.err = 0 then some op.msrdata else none
  else
    note latest 0 (fetched driver reader.machine reader.readBatchOp)

end Reader

/-- The object with what was read last for each operation that was added. -/
structure Watched where
  reader : Reader
  latest : List (Option Word)

namespace Msrio

theorem readMsr_state {driver : Driver} {machine after : Machine} {cpu offset : Nat} {word : Word}
    (done : (readMsr driver cpu offset).run machine = .ok word after) : after = machine := by
  rw [readMsr_eq] at done
  split at done
  · cases done
  · cases found : driver.pread machine.registers cpu offset with
    | none => simp [found] at done
    | some read =>
        simp only [found, EStateM.Result.ok.injEq] at done
        exact done.2.symm

end Msrio

namespace Watched

/-- A call of the object, whether it returns or throws, or a change of the
registers from elsewhere. -/
inductive Action where
  | addRead (cpu : Int) (offset : Nat)
  | addWrite (driver : Driver) (cpu offset : Nat)
  | adjust (batchIdx : Int) (rawValue writeMask : Word)
  | readBatch (driver : Driver)
  | writeBatch (driver : Driver)
  | outside (registers : Registers)

def start (registers : Registers) (numCpu : Nat) (isBatchEnabled : Bool) : Watched :=
  ⟨Reader.new registers numCpu isBatchEnabled, []⟩

def step (grow : Nat → Nat) (state : Watched) : Action → Watched
  | .addRead cpu offset =>
      ⟨leaves (Reader.addRead grow cpu offset) state.reader, state.latest ++ [none]⟩
  | .addWrite driver cpu offset =>
      { state with
        reader := leaves (Reader.onMachine (Msrio.addWrite driver cpu offset)) state.reader }
  | .adjust batchIdx rawValue writeMask =>
      { state with
        reader := leaves (Reader.onMachine (Msrio.adjust batchIdx rawValue writeMask)) state.reader }
  | .readBatch driver =>
      ⟨leaves (Reader.readBatch driver) state.reader, state.reader.taken driver state.latest⟩
  | .writeBatch driver => { state with reader := leaves (Reader.writeBatch driver) state.reader }
  | .outside registers =>
      { state with
        reader := { state.reader with machine := state.reader.machine.changed registers } }

/-- An exception, or what was read last for the operation. -/
def Faithful (state : Watched) (index : Int) : Prop :=
  state.reader.sample index = .thrown ∨
    ∃ word, state.latest[index.toNat]? = some (some word) ∧ state.reader.sample index = .value word

/-- The operation was read since it was added, and has not failed since. -/
def Covered (state : Watched) (index : Int) : Prop :=
  0 ≤ index ∧ ∃ word, state.latest[index.toNat]? = some (some word)

/-- The vector is where it was in the last call of `read_batch`. -/
def InPlace (state : Watched) : Prop := state.reader.readBatchArray.ops = some state.reader.array

/-- What was read last is in the operations. -/
structure Shows (state : Watched) : Prop where
  length : state.latest.length = state.reader.readBatchOp.length
  stored : ∀ (index : Nat) (word : Word), state.latest[index]? = some (some word) →
    ∃ op : BatchOp, state.reader.readBatchOp[index]? = some op ∧ op.msrdata = word

namespace Shows

variable {driver : Driver} {reader other : Reader} {latest : List (Option Word)} {state : Watched}

theorem of_ops (shows : Shows ⟨reader, latest⟩) (same : other.readBatchOp = reader.readBatchOp) :
    Shows ⟨other, latest⟩ where
  length := same ▸ shows.length
  stored := same ▸ shows.stored

theorem concat (shows : Shows ⟨reader, latest⟩) {op : BatchOp}
    (added : other.readBatchOp = reader.readBatchOp ++ [op]) : Shows ⟨other, latest ++ [none]⟩ where
  length := by
    have length := shows.length
    simp only [added, List.length_append, List.length_singleton] at length ⊢
    omega
  stored index word found := by
    rcases Table.getElem?_concat_iff.mp found with old | ⟨_, new⟩
    · obtain ⟨before, there, same⟩ := shows.stored index word old
      exact ⟨before, added ▸ Table.getElem?_concat_iff.mpr (.inl there), same⟩
    · cases new

theorem store {index : Nat} {word : Word} (shows : Shows ⟨reader, latest⟩) :
    Shows ⟨reader.store index word, latest.set index (some word)⟩ where
  length := by
    have length := shows.length
    simp only [Reader.store, List.length_set, List.length_modify]
    exact length
  stored position other found := by
    simp only [Reader.store, List.getElem?_modify]
    rw [List.getElem?_set] at found
    by_cases here : index = position
    · rw [if_pos here] at found
      split at found
      case isTrue bound =>
          rw [shows.length, here] at bound
          obtain rfl : word = other := by simpa using found
          refine ⟨{ reader.readBatchOp[position] with msrdata := word }, ?_, rfl⟩
          simp only [here, if_true, List.getElem?_eq_getElem bound, Option.map_eq_map,
            Option.map_some]
      case isFalse => cases found
    · rw [if_neg here] at found
      obtain ⟨op, before, same⟩ := shows.stored position other found
      refine ⟨op, ?_, same⟩
      simp only [here, if_false, Option.map_eq_map, Option.map_id']
      exact before

theorem readEach {machine : Machine} {index : Nat} {ops : List BatchOp} (shows : Shows ⟨reader, latest⟩)
    (same : reader.machine = machine) :
    Shows ⟨leaves (Reader.readEach driver index ops) reader,
      Reader.note latest index (Reader.fetched driver machine ops)⟩ := by
  induction ops generalizing reader latest index with
  | nil => exact shows
  | cons op rest ih =>
      cases ran : (Msrio.readMsr driver op.cpu op.msr).run reader.machine with
      | error reason after =>
          have thrown : (Reader.readEach driver index (op :: rest)).run reader =
              .error reason { reader with machine := after } := by
            rw [Reader.readEach, Reader.onMachine, EStateM.run_bind, Objects.within_thrown ran]
            rfl
          rw [Stateful.leaves_of_error thrown, Reader.fetched, ← same, ran]
          exact shows.of_ops rfl
      | ok word after =>
          obtain rfl : after = reader.machine := Msrio.readMsr_state ran
          have rest_run : (Reader.readEach driver index (op :: rest)).run reader =
              (Reader.readEach driver (index + 1) rest).run (reader.store index word) := by
            rw [Reader.readEach, Reader.onMachine, EStateM.run_bind, Objects.within_returned ran]
            rfl
          rw [leaves, rest_run, ← leaves, Reader.fetched, ← same, ran, Reader.note]
          exact same ▸ ih shows.store same

theorem msrIoctlRead (shows : Shows ⟨reader, latest⟩) :
    Shows ⟨leaves (Reader.msrIoctlRead driver) reader,
      match driver.ioctl reader.machine.registers reader.readBatchOp with
      | none => latest
      | some (_, done) => done.map fun op => if op.err = 0 then some op.msrdata else none⟩ := by
  cases called : driver.ioctl reader.machine.registers reader.readBatchOp with
  | none =>
      have thrown : (Reader.msrIoctlRead driver).run reader = .error .ioctlFailed reader := by
        simp [Reader.msrIoctlRead, called]
      rw [Stateful.leaves_of_error thrown]
      exact shows
  | some result =>
      obtain ⟨registers, done⟩ := result
      have left : leaves (Reader.msrIoctlRead driver) reader =
          { reader with machine := reader.machine.changed registers, readBatchOp := done } := by
        cases failed : done.find? (·.err ≠ 0) <;>
          simp only [leaves, Reader.msrIoctlRead, EStateM.run_bind, EStateM.run_get, called,
            EStateM.run_set, failed, Stateful.run_throw, EStateM.run_pure]
      rw [left]
      refine ⟨List.length_map _, fun index word found => ?_⟩
      rw [List.getElem?_map, Option.map_eq_some_iff] at found
      obtain ⟨op, there, same⟩ := found
      refine ⟨op, there, ?_⟩
      split at same
      · exact Option.some.inj same
      · cases same

theorem readOperations (shows : Shows ⟨reader, latest⟩) :
    Shows ⟨leaves (Reader.readOperations driver) reader, reader.taken driver latest⟩ := by
  cases batched : reader.machine.msrio.isBatchEnabled with
  | true =>
      have same : leaves (Reader.readOperations driver) reader =
          leaves (Reader.msrIoctlRead driver) reader := by
        simp [leaves, Reader.readOperations, batched]
      rw [same, Reader.taken, if_pos batched]
      exact shows.msrIoctlRead
  | false =>
      have same : leaves (Reader.readOperations driver) reader =
          leaves (Reader.readEach driver 0 reader.readBatchOp) reader := by
        simp [leaves, Reader.readOperations, batched]
      rw [same, Reader.taken, batched, if_neg Bool.false_ne_true]
      exact shows.readEach rfl

theorem readBatch (shows : Shows ⟨reader, latest⟩) :
    Shows ⟨leaves (Reader.readBatch driver) reader, reader.taken driver latest⟩ := by
  let pointed : Reader :=
    { reader with readBatchArray := ⟨reader.readBatchOp.length, some reader.array⟩ }
  have start : Shows ⟨pointed, latest⟩ := shows.of_ops rfl
  have read : Shows ⟨leaves (Reader.readOperations driver) pointed, reader.taken driver latest⟩ :=
    start.readOperations
  have same : leaves (Reader.readBatch driver) reader = leaves (Reader.readOperations driver >>= fun _ =>
      modify fun reader => { reader with isBatchRead := true }) pointed := rfl
  rw [same]
  exact Stateful.leaves_bind (fun after => Shows ⟨after, reader.taken driver latest⟩) read
    fun _ _ _ reached => reached.of_ops rfl

theorem addRead {grow : Nat → Nat} {cpu : Int} {offset : Nat} (shows : Shows ⟨reader, latest⟩) :
    Shows ⟨leaves (Reader.addRead grow cpu offset) reader, latest ++ [none]⟩ := by
  have added : (leaves (Reader.addRead grow cpu offset) reader).readBatchOp =
      reader.readBatchOp ++ [Reader.readOp cpu offset] := by
    by_cases fits : reader.readBatchOp.length < reader.capacity <;>
      simp [leaves, Reader.addRead, fits]
  exact shows.concat added

theorem onMachine {Value : Type} {computation : MsrM Value} (shows : Shows ⟨reader, latest⟩) :
    Shows ⟨leaves (Reader.onMachine computation) reader, latest⟩ := by
  rw [Reader.onMachine, Objects.leaves_within]
  exact shows.of_ops rfl

theorem writeBatch (shows : Shows ⟨reader, latest⟩) :
    Shows ⟨leaves (Reader.writeBatch driver) reader, latest⟩ :=
  Stateful.leaves_bind (fun reader' => Shows ⟨reader', latest⟩) shows.onMachine
    fun _ _ _ reached => reached.of_ops rfl

theorem step {grow : Nat → Nat} (shows : state.Shows) (action : Action) :
    (state.step grow action).Shows := by
  cases action with
  | addRead cpu offset => exact shows.addRead
  | addWrite driver cpu offset => exact shows.onMachine
  | adjust batchIdx rawValue writeMask => exact shows.onMachine
  | readBatch driver => exact shows.readBatch
  | writeBatch driver => exact shows.writeBatch
  | outside registers => exact shows.of_ops rfl

theorem run {grow : Nat → Nat} {actions : List Action} (shows : state.Shows) :
    (Transition.run (Watched.step grow) state actions).Shows := by
  induction actions generalizing state with
  | nil => exact shows
  | cons action rest ih => exact ih (shows.step action)

theorem start (registers : Registers) (numCpu : Nat) (isBatchEnabled : Bool) :
    (Watched.start registers numCpu isBatchEnabled).Shows where
  length := rfl
  stored index word found := by simp [Watched.start] at found

/-- Of an operation that is covered, where it is, the sample is what was read. -/
theorem faithful_iff {index : Int} (shows : state.Shows) : state.Faithful index ↔
    state.reader.isBatchRead = false ∨ state.InPlace ∧ state.Covered index := by
  cases read : state.reader.isBatchRead with
  | false => simp [Faithful, Reader.sample, read]
  | true =>
      simp only [Bool.true_eq_false, false_or]
      constructor
      · intro faithful
        rcases faithful with thrown | ⟨word, latest, value⟩
        · unfold Reader.sample at thrown
          split at thrown
          · simp_all
          · split at thrown
            · split at thrown <;> cases thrown
            · cases thrown
        · unfold Reader.sample at value
          split at value
          · cases value
          · split at value
            case isTrue there => exact ⟨there.1, there.2, word, latest⟩
            case isFalse => cases value
      · rintro ⟨here, nonnegative, word, latest⟩
        obtain ⟨op, there, rfl⟩ := shows.stored index.toNat word latest
        refine .inr ⟨op.msrdata, latest, ?_⟩
        unfold InPlace at here
        simp [Reader.sample, read, here, nonnegative, there]

end Shows

/-- After any calls a sample is an exception or what was read last for its
operation just when there was no batch yet, or the operation was read, and the
vector has not moved since the last call of `read_batch`. -/
theorem sample_faithful_iff (grow : Nat → Nat) (registers : Registers) (numCpu : Nat)
    (isBatchEnabled : Bool) (actions : List Action) (index : Int) :
    (Transition.run (step grow) (start registers numCpu isBatchEnabled) actions).Faithful index ↔
      (Transition.run (step grow) (start registers numCpu isBatchEnabled)
          actions).reader.isBatchRead = false ∨
        (Transition.run (step grow) (start registers numCpu isBatchEnabled) actions).InPlace ∧
        (Transition.run (step grow) (start registers numCpu isBatchEnabled) actions).Covered index :=
  (Shows.start registers numCpu isBatchEnabled).run.faithful_iff

/-- A third operation that fits behind the two that were read. -/
def late : List Action :=
  [.addRead 0 0x10, .addRead 0 0x11, .addRead 1 0x10,
    .readBatch (Msrio.Driver.ideal fun _ => 0), .addRead 1 0x11]

/-- The last operation was not read, and its sample is zero. -/
theorem not_sample_faithful : ¬ ∀ (grow : Nat → Nat) (registers : Registers) (numCpu : Nat)
    (isBatchEnabled : Bool) (actions : List Action) (index : Int),
    (Transition.run (step grow) (start registers numCpu isBatchEnabled) actions).Faithful index := by
  intro always
  have faithful := always (2 * ·) (fun _ _ => 0x77) 2 true late 3
  have sampled : (Transition.run (step (2 * ·)) (start (fun _ _ => 0x77) 2 true)
      late).reader.sample 3 = .value 0 := by
    decide +kernel
  have unread : (Transition.run (step (2 * ·)) (start (fun _ _ => 0x77) 2 true)
      late).latest = [some 0x77, some 0x77, some 0x77, none] := by
    decide +kernel
  rcases faithful with thrown | ⟨word, latest, _⟩
  · rw [sampled] at thrown
    cases thrown
  · rw [unread] at latest
    cases latest

end Watched

end Geopm
