import Geopm.Library.Number
import Geopm.Library.Run
import Geopm.Library.Stateful
import Geopm.ProfileTable
import Geopm.Record

namespace Geopm

/-! The messages of `ProfileTable`, which the ranks insert and the controller
dumps. -/

/-- `geopm_prof_message_s`. -/
structure Message where
  rank : Int
  regionId : BitVec 64
  timestamp : Time
  progress : Number
deriving Repr, DecidableEq

namespace Message

/-- The message reports that its region is entered or left. -/
def isEntryOrExit (message : Message) : Bool :=
  message.progress.eq 0 || message.progress.eq (.value 1)

/-- The message is followed by one that makes it obsolete. -/
def isUpdatedBy (message value : Message) : Bool :=
  decide (value.regionId = message.regionId) && !message.isEntryOrExit

end Message

/-- The part of `ProfileTableImp` that holds messages. -/
structure MessageTable where
  maxSize : Nat
  values : List Message
  bounded : values.length ≤ maxSize
deriving Repr, DecidableEq

namespace MessageTable

/-- The constructor. -/
def new (size : Nat) : Except TableError MessageTable :=
  (ProfileTable.new size).map fun table =>
    { maxSize := (table.bufferSize - ProfileTable.sizeofTable) / ProfileTable.sizeofMessage
      values := []
      bounded := Nat.zero_le _ }

/-- The last message is overwritten. -/
def replaceLast (table : MessageTable) (value : Message) : MessageTable where
  maxSize := table.maxSize
  values := table.values.set (table.values.length - 1) value
  bounded := by
    rw [List.length_set]
    exact table.bounded

/-- A message is appended. -/
def append (table : MessageTable) (value : Message) (room : table.values.length < table.maxSize) :
    MessageTable where
  maxSize := table.maxSize
  values := table.values ++ [value]
  bounded := by
    rw [List.length_append]
    exact room

/-- `insert`. -/
def insert (value : Message) : EStateM TableError MessageTable Unit := do
  let table ← get
  let isInserted := table.values.getLast?.any fun last => last.isUpdatedBy value
  if isInserted then
    set (table.replaceLast value)
  else if room : table.values.length < table.maxSize then
    set (table.append value room)
  else
    throw .overflowed

/-- `capacity`. -/
def capacity (table : MessageTable) : Nat := table.maxSize

/-- `size`. -/
def size (table : MessageTable) : Nat := table.values.length

/-- `dump`: what is written to the iterator, its length, and the emptied table. -/
def dump (table : MessageTable) : List (BitVec 64 × Message) × Nat × MessageTable :=
  (table.values.map fun message => (message.regionId, message), table.size,
    { table with values := [], bounded := Nat.zero_le _ })

/-- A call of a rank or of the controller. -/
inductive Call where
  | insert (value : Message)
  | dump
deriving Repr, DecidableEq

/-- A table with what was inserted in it and dumped from it. -/
structure History where
  table : MessageTable
  dumped : List Message
  /-- what was inserted before each dump -/
  intervals : List (List Message)
  /-- what was inserted since the last dump -/
  inserted : List Message
deriving Repr, DecidableEq

namespace History

def start (table : MessageTable) : History := { table, dumped := [], intervals := [], inserted := [] }

/-- Every message of an insert that returned. -/
def accepted (history : History) : List Message := history.intervals.flatten ++ history.inserted

/-- Everything that was dumped, and what the table still holds. -/
def delivered (history : History) : List Message := history.dumped ++ history.table.values

def step (history : History) : Call → History
  | .insert value =>
      match (insert value).run history.table with
      | .ok _ table => { history with table, inserted := history.inserted ++ [value] }
      | .error _ table => { history with table }
  | .dump =>
      let (content, _, table) := history.table.dump
      { table
        dumped := history.dumped ++ content.map Prod.snd
        intervals := history.intervals ++ [history.inserted]
        inserted := [] }

end History

/-- Without each message that is updated by the one right after it. -/
def kept : List Message → List Message
  | [] => []
  | message :: rest =>
      if rest.head?.any message.isUpdatedBy then kept rest else message :: kept rest

variable {message value : Message} {values rest : List Message} {table after : MessageTable}
  {reason : TableError} {history : History} {call : Call} {calls : List Call}

@[simp] theorem replaceLast_values : (table.replaceLast value).values =
    table.values.set (table.values.length - 1) value := rfl

@[simp] theorem append_values (room : table.values.length < table.maxSize) :
    (table.append value room).values = table.values ++ [value] := rfl

theorem head?_append_cons : (values ++ value :: rest).head? = (values ++ [value]).head? := by
  cases values with
  | nil => rfl
  | cons first others => rfl

/-- What is kept of the messages before one does not depend on those after it. -/
theorem kept_append_cons : ∃ before, ∀ rest,
    kept (values ++ value :: rest) = before ++ kept (value :: rest) := by
  induction values with
  | nil => exact ⟨[], fun rest => rfl⟩
  | cons message values ih =>
      obtain ⟨before, cut⟩ := ih
      by_cases updated : (values ++ [value]).head?.any message.isUpdatedBy = true
      · refine ⟨before, fun rest => ?_⟩
        rw [List.cons_append, kept, head?_append_cons, if_pos updated, cut]
      · refine ⟨message :: before, fun rest => ?_⟩
        rw [List.cons_append, kept, head?_append_cons, if_neg updated, cut, List.cons_append]

theorem filter_kept : (kept values).filter Message.isEntryOrExit = values.filter Message.isEntryOrExit := by
  induction values with
  | nil => rfl
  | cons message rest ih =>
      rw [kept]
      split
      · next updated =>
          obtain ⟨value, _, obsolete⟩ := (Option.any_eq_true _ _).mp updated
          have between : message.isEntryOrExit = false := by
            simpa using (Bool.and_eq_true_iff.mp obsolete).2
          rw [List.filter_cons_of_neg (by simp [between]), ih]
      · rw [List.filter_cons, List.filter_cons, ih]

theorem filter_flatMap_kept {intervals : List (List Message)} :
    (intervals.flatMap kept).filter Message.isEntryOrExit =
      intervals.flatten.filter Message.isEntryOrExit := by
  induction intervals with
  | nil => rfl
  | cons values others ih =>
      rw [List.flatMap_cons, List.flatten_cons, List.filter_append, List.filter_append, filter_kept, ih]

theorem insert_run : (insert value).run table =
    if table.values.getLast?.any (·.isUpdatedBy value) then .ok () (table.replaceLast value)
    else if room : table.values.length < table.maxSize then .ok () (table.append value room)
    else .error .overflowed table := by
  change EStateM.run (if _ then _ else _) table = _
  rw [Stateful.run_ite]
  split
  · rfl
  · split <;> rfl

/-- An insert that throws changes nothing. -/
theorem insert_error (thrown : (insert value).run table = .error reason after) : after = table := by
  rw [insert_run] at thrown
  split at thrown
  · cases thrown
  · split at thrown
    · cases thrown
    · cases thrown
      rfl

/-- An insert that returns leaves what is kept of the messages with the new one. -/
theorem insert_ok (holds : table.values = kept values)
    (done : (insert value).run table = .ok () after) :
    after.values = kept (values ++ [value]) ∧ after.maxSize = table.maxSize := by
  rw [insert_run] at done
  cases values using List.reverseRec with
  | nil =>
      rw [if_neg (by simp [holds, kept])] at done
      split at done
      · cases done
        exact ⟨congrArg (· ++ [value]) holds, rfl⟩
      · cases done
  | append_singleton values last _ =>
      obtain ⟨before, cut⟩ := @kept_append_cons last values
      have held : table.values = before ++ [last] := holds.trans (cut [])
      rw [List.append_assoc, List.singleton_append, cut]
      have final : table.values.getLast? = some last := by
        rw [held, List.getLast?_concat]
      simp only [final, Option.any_some] at done
      split at done
      · next updated =>
          cases done
          refine ⟨?_, rfl⟩
          rw [replaceLast_values, held]
          simp [kept, updated]
      · next other =>
          split at done
          · cases done
            refine ⟨?_, rfl⟩
            rw [append_values, held]
            simp [kept, other]
          · cases done

/-- What every call keeps. -/
structure History.Keeps (history : History) (maxSize : Nat) : Prop where
  maxSize : history.table.maxSize = maxSize
  pending : history.table.values = kept history.inserted
  dumped : history.dumped = history.intervals.flatMap kept

theorem History.Keeps.step {maxSize : Nat} (keeps : history.Keeps maxSize) :
    (history.step call).Keeps maxSize := by
  cases call with
  | insert value =>
      rw [History.step]
      split
      · next done =>
          obtain ⟨values, size⟩ := insert_ok keeps.pending done
          exact ⟨size.trans keeps.maxSize, values, keeps.dumped⟩
      · next thrown =>
          rw [insert_error thrown]
          exact keeps
  | dump =>
      refine ⟨keeps.maxSize, rfl, ?_⟩
      have content : history.table.dump.1.map Prod.snd = history.table.values := by
        rw [dump, List.map_map]
        exact List.map_id _
      simp only [History.step, content, keeps.dumped, keeps.pending, List.flatMap_append,
        List.flatMap_singleton]

theorem History.Keeps.run {maxSize : Nat} (keeps : history.Keeps maxSize) :
    (Transition.run History.step history calls).Keeps maxSize := by
  induction calls generalizing history with
  | nil => exact keeps
  | cons call rest ih => exact ih keeps.step

/-- What is dumped and still held is what was inserted without the updates in
between, and all of the entries and exits are among it. -/
theorem delivered_kept {size : Nat} (made : new size = .ok table) :
    let history := Transition.run History.step (History.start table) calls
    history.delivered = (history.intervals ++ [history.inserted]).flatMap kept ∧
      history.delivered.filter Message.isEntryOrExit = history.accepted.filter Message.isEntryOrExit ∧
      history.table.size ≤ history.table.capacity ∧ history.table.capacity = table.capacity ∧
      ∀ value reason after, (insert value).run history.table = .error reason after →
        after = history.table := by
  intro history
  have empty : table.values = [] := by
    rw [new] at made
    cases checked : ProfileTable.new size with
    | error reason => simp [checked, Except.map] at made
    | ok checkedTable =>
        rw [checked] at made
        cases made
        rfl
  have keeps : history.Keeps table.maxSize := History.Keeps.run ⟨rfl, empty, rfl⟩
  have delivered : history.delivered = (history.intervals ++ [history.inserted]).flatMap kept := by
    rw [History.delivered, keeps.dumped, keeps.pending, List.flatMap_append, List.flatMap_singleton]
  refine ⟨delivered, ?_, history.table.bounded, keeps.maxSize, fun value reason after thrown =>
    insert_error thrown⟩
  rw [delivered, filter_flatMap_kept, History.accepted, List.flatten_append, List.flatten_singleton]

/-- The smallest buffer has room for four messages. -/
def smallest : MessageTable := { maxSize := 4, values := [], bounded := by decide }

theorem delivered_kept_smallest :
    let history := Transition.run History.step (History.start smallest)
      [.insert ⟨0, 7, ⟨1, 0⟩, 0⟩, .insert ⟨0, 7, ⟨2, 0⟩, .value (1 / 4)⟩,
        .insert ⟨0, 7, ⟨3, 0⟩, .value (1 / 2)⟩, .dump, .insert ⟨0, 7, ⟨4, 0⟩, .value 1⟩]
    history.delivered = (history.intervals ++ [history.inserted]).flatMap kept ∧
      history.delivered.filter Message.isEntryOrExit = history.accepted.filter Message.isEntryOrExit ∧
      history.table.size ≤ history.table.capacity ∧ history.table.capacity = smallest.capacity ∧
      ∀ value reason after, (insert value).run history.table = .error reason after →
        after = history.table :=
  delivered_kept (show new 224 = .ok smallest by decide)

end MessageTable

end Geopm
