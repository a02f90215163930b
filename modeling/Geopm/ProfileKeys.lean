import Geopm.Library.Run
import Geopm.ProfileTable
import Mathlib.Logic.Function.Basic

namespace Geopm

/-! `ProfileTable::key` called from several threads. Each call takes the lock
once to look the name up, and if that fails a second time to insert it. -/

namespace ProfileTable

/-- The first section of `key`. -/
def findKey (table : ProfileTable) (name : Name) : Option Nat := table.keyMap.lookup name

/-- The second section of `key`. -/
def insertKey (table : ProfileTable) (name : Name) (result : Nat) : Except TableError ProfileTable :=
  if result ∈ table.keySet then .error .hashCollision
  else
    let keyMap := insertEntry (name, result) table.keyMap
    .ok { table with keyMap, keySet := result :: table.keySet, keyMapLast := keyMap }

/-- A call that no other thread interrupts executes its sections one after the other. -/
theorem key_eq_sections (crc32U64 : Nat → Nat → Nat) (table : ProfileTable) (name : Name) :
    table.key crc32U64 name =
      match table.findKey name with
      | some result => .ok (result, table)
      | none =>
          if crc32Str crc32U64 name = 0 then .error .hashedToZero
          else (table.insertKey name (crc32Str crc32U64 name)).map (crc32Str crc32U64 name, ·) := by
  rw [key, findKey]
  cases table.keyMap.lookup name with
  | some result => rfl
  | none =>
      dsimp only
      split
      · rfl
      · rw [insertKey]
        split
        · rfl
        · rfl

section

variable {table next : ProfileTable} {name other : Name} {result : Nat}

theorem findKey_some (found : table.findKey name = some result) : (name, result) ∈ table.keyMap := by
  obtain ⟨before, after, split, _⟩ := List.lookup_eq_some_iff.mp found
  rw [split]
  simp

theorem insertKey_ok (done : table.insertKey name result = .ok next) :
    result ∉ table.keySet ∧ next.keySet = result :: table.keySet ∧
      ∀ entry, entry ∈ next.keyMap ↔ entry = (name, result) ∨ entry ∈ table.keyMap := by
  rw [insertKey] at done
  split at done
  · cases done
  · next fresh =>
      cases done
      have entries := List.perm_orderedInsert
        (fun left right : Name × Nat => left.1 ≤ right.1) (name, result) table.keyMap
      exact ⟨fresh, rfl, fun entry => entries.mem_iff.trans List.mem_cons⟩

theorem insertKey_error {reason : TableError} (thrown : table.insertKey name result = .error reason) :
    result ∈ table.keySet := by
  rw [insertKey] at thrown
  split at thrown
  · assumption
  · cases thrown

theorem mem_names_insertKey (done : table.insertKey name result = .ok next) :
    other ∈ next.names ↔ other = name ∨ other ∈ table.names := by
  obtain ⟨_, _, entries⟩ := insertKey_ok done
  simp only [names, List.mem_map, entries]
  constructor
  · rintro ⟨entry, rfl | known, rfl⟩
    · exact .inl rfl
    · exact .inr ⟨entry, known, rfl⟩
  · rintro (rfl | ⟨entry, known, rfl⟩)
    · exact ⟨_, .inl rfl, rfl⟩
    · exact ⟨entry, .inr known, rfl⟩

end

end ProfileTable

/-- A call of `key` that has ended, with the names that were registered then. -/
structure FinishedKey where
  name : Name
  outcome : Except TableError Nat
  registered : List Name
deriving DecidableEq

/-- A section under the lock. -/
inductive KeySection (Thread : Type) where
  | find (thread : Thread) (name : Name)
  | insert (thread : Thread)

/-- The table, the threads that have not found their name, and the calls that
have ended. -/
structure KeyThreads (Thread : Type) where
  table : ProfileTable
  waiting : Thread → Option Name
  finished : List FinishedKey

namespace KeyThreads

variable {Thread : Type}

def start (table : ProfileTable) : KeyThreads Thread := { table, waiting := fun _ => none, finished := [] }

/-- A call ends in the table of the state. -/
def finish (threads : KeyThreads Thread) (name : Name) (outcome : Except TableError Nat) :
    KeyThreads Thread :=
  { threads with finished := ⟨name, outcome, threads.table.names⟩ :: threads.finished }

/-- A section of a thread. A thread that waits for its second section starts no
other call, and one that does not wait has no second section. -/
def step [DecidableEq Thread] (crc32U64 : Nat → Nat → Nat) (threads : KeyThreads Thread) :
    KeySection Thread → KeyThreads Thread
  | .find thread name =>
      match threads.waiting thread with
      | some _ => threads
      | none =>
          match threads.table.findKey name with
          | some result => threads.finish name (.ok result)
          | none =>
              if crc32Str crc32U64 name = 0 then threads.finish name (.error .hashedToZero)
              else { threads with waiting := Function.update threads.waiting thread (some name) }
  | .insert thread =>
      match threads.waiting thread with
      | none => threads
      | some name =>
          let ended := { threads with waiting := Function.update threads.waiting thread none }
          match threads.table.insertKey name (crc32Str crc32U64 name) with
          | .ok table => { ended with table }.finish name (.ok (crc32Str crc32U64 name))
          | .error reason => ended.finish name (.error reason)

/-- The calls that return have equal keys exactly for equal names. -/
def Agree (finished : List FinishedKey) : Prop :=
  ∀ first ∈ finished, ∀ second ∈ finished, ∀ firstKey secondKey,
    first.outcome = .ok firstKey → second.outcome = .ok secondKey →
      (firstKey = secondKey ↔ first.name = second.name)

/-- A call throws only if the hash of its name is zero or that of another name
that is registered. -/
def Justified (crc32U64 : Nat → Nat → Nat) (call : FinishedKey) : Prop :=
  ∀ reason, call.outcome = .error reason →
    crc32Str crc32U64 call.name = 0 ∨
      ∃ other ∈ call.registered, other ≠ call.name ∧
        crc32Str crc32U64 other = crc32Str crc32U64 call.name

/-- What is expected of the calls. -/
def Correct (crc32U64 : Nat → Nat → Nat) (threads : KeyThreads Thread) : Prop :=
  Agree threads.finished ∧ ∀ call ∈ threads.finished, Justified crc32U64 call

/-- No other thread has registered the name between the two sections. -/
def StillMissing (threads : KeyThreads Thread) : KeySection Thread → Prop
  | .find _ _ => True
  | .insert thread => ∀ name ∈ threads.waiting thread, name ∉ threads.table.names

/-- What the sections keep. -/
structure Invariant (crc32U64 : Nat → Nat → Nat) (threads : KeyThreads Thread) : Prop where
  hashes : ∀ entry ∈ threads.table.keyMap, entry.2 = crc32Str crc32U64 entry.1
  keySet : ∀ hash, hash ∈ threads.table.keySet ↔
    ∃ name ∈ threads.table.names, crc32Str crc32U64 name = hash
  distinct : ∀ first ∈ threads.table.names, ∀ second ∈ threads.table.names,
    crc32Str crc32U64 first = crc32Str crc32U64 second → first = second
  waiting : ∀ thread, ∀ name ∈ threads.waiting thread, crc32Str crc32U64 name ≠ 0
  returned : ∀ call ∈ threads.finished, ∀ result, call.outcome = .ok result →
    result = crc32Str crc32U64 call.name ∧ call.name ∈ threads.table.names

variable {crc32U64 : Nat → Nat → Nat} {threads after : KeyThreads Thread} {thread : Thread} {name : Name}
  {key : KeySection Thread} {sections : List (KeySection Thread)}

/-- A call that ends with its hash as the key of a registered name. -/
theorem Invariant.finish (invariant : threads.Invariant crc32U64) {outcome : Except TableError Nat}
    (returns : ∀ result, outcome = .ok result →
      result = crc32Str crc32U64 name ∧ name ∈ threads.table.names) :
    (threads.finish name outcome).Invariant crc32U64 where
  hashes := invariant.hashes
  keySet := invariant.keySet
  distinct := invariant.distinct
  waiting := invariant.waiting
  returned := by
    intro call ended result done
    cases List.mem_cons.mp ended with
    | inl same =>
        subst same
        exact returns result done
    | inr before => exact invariant.returned call before result done

theorem Invariant.insertKey (invariant : threads.Invariant crc32U64) {table : ProfileTable}
    (done : threads.table.insertKey name (crc32Str crc32U64 name) = .ok table) :
    Invariant crc32U64 { threads with table } := by
  obtain ⟨fresh, keySet, entries⟩ := ProfileTable.insertKey_ok done
  have names := fun other => @ProfileTable.mem_names_insertKey _ _ _ other _ done
  have apart : ∀ other ∈ threads.table.names, crc32Str crc32U64 other ≠ crc32Str crc32U64 name :=
    fun other known same => fresh ((invariant.keySet _).mpr ⟨other, known, same⟩)
  refine ⟨?_, ?_, ?_, invariant.waiting, ?_⟩
  · intro entry member
    cases (entries entry).mp member with
    | inl same => rw [same]
    | inr known => exact invariant.hashes entry known
  · intro hash
    simp only [keySet, List.mem_cons, invariant.keySet, names]
    constructor
    · rintro (rfl | ⟨other, known, hashed⟩)
      · exact ⟨name, .inl rfl, rfl⟩
      · exact ⟨other, .inr known, hashed⟩
    · rintro ⟨other, rfl | known, hashed⟩
      · exact .inl hashed.symm
      · exact .inr ⟨other, known, hashed⟩
  · intro first firstKnown second secondKnown same
    cases (names first).mp firstKnown with
    | inl firstNew =>
        cases (names second).mp secondKnown with
        | inl secondNew => rw [firstNew, secondNew]
        | inr known => exact absurd (firstNew ▸ same.symm) (apart second known)
    | inr known =>
        cases (names second).mp secondKnown with
        | inl secondNew => exact absurd (secondNew ▸ same) (apart first known)
        | inr other => exact invariant.distinct first known second other same
  · intro call ended result returned
    obtain ⟨hashed, known⟩ := invariant.returned call ended result returned
    exact ⟨hashed, (names call.name).mpr (.inr known)⟩

/-- The keys agree with the names. -/
theorem Invariant.agree (invariant : threads.Invariant crc32U64) : Agree threads.finished := by
  intro first firstEnded second secondEnded firstKey secondKey firstDone secondDone
  obtain ⟨rfl, firstKnown⟩ := invariant.returned first firstEnded firstKey firstDone
  obtain ⟨rfl, secondKnown⟩ := invariant.returned second secondEnded secondKey secondDone
  exact ⟨invariant.distinct _ firstKnown _ secondKnown, congrArg _⟩

theorem invariant_start {table : ProfileTable} {size : Nat} (made : ProfileTable.new size = .ok table) :
    (start table : KeyThreads Thread).Invariant crc32U64 := by
  rw [ProfileTable.new] at made
  split at made
  · cases made
  · cases made
    exact ⟨by simp [start], by simp [start, ProfileTable.names], by simp [start, ProfileTable.names],
      by simp [start], by simp [start]⟩

variable [DecidableEq Thread]

/-- What a section can do. -/
inductive Happens (crc32U64 : Nat → Nat → Nat) (threads : KeyThreads Thread) :
    KeySection Thread → KeyThreads Thread → Prop where
  | busy {thread : Thread} {name other : Name} (waits : threads.waiting thread = some other) :
      Happens crc32U64 threads (.find thread name) threads
  | found {thread : Thread} {name : Name} {result : Nat} (known : (name, result) ∈ threads.table.keyMap) :
      Happens crc32U64 threads (.find thread name) (threads.finish name (.ok result))
  | zero {thread : Thread} {name : Name} (hash : crc32Str crc32U64 name = 0) :
      Happens crc32U64 threads (.find thread name) (threads.finish name (.error .hashedToZero))
  | missing {thread : Thread} {name : Name} (hash : crc32Str crc32U64 name ≠ 0) :
      Happens crc32U64 threads (.find thread name)
        { threads with waiting := Function.update threads.waiting thread (some name) }
  | idle {thread : Thread} (free : threads.waiting thread = none) :
      Happens crc32U64 threads (.insert thread) threads
  | inserted {thread : Thread} {name : Name} {table : ProfileTable}
      (waits : threads.waiting thread = some name)
      (done : threads.table.insertKey name (crc32Str crc32U64 name) = .ok table) :
      Happens crc32U64 threads (.insert thread)
        (KeyThreads.finish ⟨table, Function.update threads.waiting thread none, threads.finished⟩ name
          (.ok (crc32Str crc32U64 name)))
  | collides {thread : Thread} {name : Name} (reason : TableError)
      (waits : threads.waiting thread = some name)
      (taken : crc32Str crc32U64 name ∈ threads.table.keySet) :
      Happens crc32U64 threads (.insert thread)
        (KeyThreads.finish ⟨threads.table, Function.update threads.waiting thread none, threads.finished⟩
          name (.error reason))

theorem happens (crc32U64 : Nat → Nat → Nat) (threads : KeyThreads Thread) (key : KeySection Thread) :
    Happens crc32U64 threads key (threads.step crc32U64 key) := by
  cases key with
  | find thread name =>
      rw [step]
      split
      · next waits => exact .busy waits
      · split
        · next found => exact .found (ProfileTable.findKey_some found)
        · split
          · next hash => exact .zero hash
          · next hash => exact .missing hash
  | insert thread =>
      rw [step]
      split
      · next free => exact .idle free
      · next name waits =>
          dsimp only
          split
          · next table done => exact .inserted waits done
          · next reason thrown => exact .collides reason waits (ProfileTable.insertKey_error thrown)

/-- A thread starts or stops to wait. -/
theorem Invariant.update (invariant : threads.Invariant crc32U64) {pending : Option Name}
    (hashed : ∀ name ∈ pending, crc32Str crc32U64 name ≠ 0) :
    Invariant crc32U64 { threads with waiting := Function.update threads.waiting thread pending } where
  hashes := invariant.hashes
  keySet := invariant.keySet
  distinct := invariant.distinct
  waiting := by
    intro other name waits
    by_cases same : other = thread
    · subst same
      exact hashed name (by simpa using waits)
    · exact invariant.waiting other name (by simpa [Function.update_of_ne same] using waits)
  returned := invariant.returned

theorem Invariant.step (invariant : threads.Invariant crc32U64) :
    (threads.step crc32U64 key).Invariant crc32U64 := by
  have possible := happens crc32U64 threads key
  generalize threads.step crc32U64 key = after at possible
  cases possible with
  | busy waits => exact invariant
  | found known =>
      refine invariant.finish fun result done => ?_
      cases done
      exact ⟨invariant.hashes _ known, List.mem_map_of_mem known⟩
  | zero hash => exact invariant.finish (by simp)
  | missing hash => exact invariant.update (by simpa using hash)
  | idle free => exact invariant
  | inserted waits done =>
      refine ((invariant.insertKey done).update (by simp)).finish fun result returned => ?_
      cases returned
      exact ⟨rfl, (ProfileTable.mem_names_insertKey done).mpr (.inl rfl)⟩
  | collides reason waits taken => exact (invariant.update (by simp)).finish (by simp)

/-- A section adds a call that throws without a reason exactly if it inserts a
name that was registered after it was looked up. -/
theorem Invariant.step_justified (invariant : threads.Invariant crc32U64) :
    (∀ call ∈ (threads.step crc32U64 key).finished, Justified crc32U64 call) ↔
      (∀ call ∈ threads.finished, Justified crc32U64 call) ∧ threads.StillMissing key := by
  have possible := happens crc32U64 threads key
  generalize threads.step crc32U64 key = after at possible
  cases possible with
  | busy waits => simp [StillMissing]
  | found known => simp [StillMissing, KeyThreads.finish, Justified]
  | zero hash => simp [StillMissing, KeyThreads.finish, Justified, hash]
  | missing hash => simp [StillMissing]
  | idle free => simp [StillMissing, free]
  | @inserted thread name table waits done =>
      have unknown : name ∉ threads.table.names := fun known =>
        (ProfileTable.insertKey_ok done).1 ((invariant.keySet _).mpr ⟨name, known, rfl⟩)
      simp [StillMissing, KeyThreads.finish, Justified, waits, unknown]
  | @collides thread name reason waits taken =>
      obtain ⟨other, known, same⟩ := (invariant.keySet _).mp taken
      have nonzero := invariant.waiting thread name waits
      have reason : Justified crc32U64 ⟨name, .error reason, threads.table.names⟩ ↔
          name ∉ threads.table.names := by
        constructor
        · intro justified registered
          cases justified reason rfl with
          | inl zero => exact nonzero zero
          | inr collision =>
              obtain ⟨different, member, apart, hash⟩ := collision
              exact apart (invariant.distinct different member name registered hash)
        · intro missing _ _
          refine .inr ⟨other, known, ?_, same⟩
          rintro rfl
          exact missing known
      simp [StillMissing, KeyThreads.finish, waits, reason, and_comm]

theorem Invariant.run (invariant : threads.Invariant crc32U64) :
    (Transition.run (KeyThreads.step crc32U64) threads sections).Invariant crc32U64 := by
  induction sections generalizing threads with
  | nil => exact invariant
  | cons key rest ih => exact ih invariant.step

theorem Invariant.run_justified (invariant : threads.Invariant crc32U64) :
    (∀ call ∈ (Transition.run (KeyThreads.step crc32U64) threads sections).finished, Justified crc32U64 call) ↔
      (∀ call ∈ threads.finished, Justified crc32U64 call) ∧
        Transition.Permitted (KeyThreads.step crc32U64) StillMissing threads sections := by
  induction sections generalizing threads with
  | nil => simp
  | cons key rest ih =>
      rw [Transition.run_cons, ih invariant.step, invariant.step_justified, and_assoc,
        Transition.Permitted]

/-- Equal names have equal keys and distinct names distinct ones, and every throw
has its reason, exactly if no name is registered between the two sections of a call. -/
theorem key_threads_iff {table : ProfileTable} {size : Nat} (made : ProfileTable.new size = .ok table) :
    Correct crc32U64 (Transition.run (KeyThreads.step crc32U64) (start table : KeyThreads Thread) sections) ↔
      Transition.Permitted (KeyThreads.step crc32U64) StillMissing (start table : KeyThreads Thread)
        sections := by
  have invariant : (start table : KeyThreads Thread).Invariant crc32U64 := invariant_start made
  have reached : (Transition.run (KeyThreads.step crc32U64) (start table) sections).Invariant crc32U64 :=
    invariant.run
  rw [Correct, and_iff_right reached.agree, invariant.run_justified]
  simp [start]

/-- `_mm_crc32_u64`. -/
def mmCrc32U64 (crc value : Nat) : Nat :=
  (List.range 64).foldl (fun rest _ => if rest % 2 = 1 then rest / 2 ^^^ 0x82F63B78 else rest / 2)
    (crc ^^^ value)

/-- The smallest table. -/
def smallest : ProfileTable := { bufferSize := 224, keyMap := [], keySet := [], keyMapLast := [] }

theorem key_threads_apart :
    Correct mmCrc32U64 (Transition.run (KeyThreads.step mmCrc32U64) (start smallest : KeyThreads Bool)
        [.find true [97], .find false [98], .insert false, .insert true]) ↔
      Transition.Permitted (KeyThreads.step mmCrc32U64) StillMissing (start smallest : KeyThreads Bool)
        [.find true [97], .find false [98], .insert false, .insert true] :=
  key_threads_iff (show ProfileTable.new 224 = .ok smallest by decide)

/-- Two threads register "a" at the same time: one of them throws although no
other name has its hash. -/
theorem not_key_threads_together :
    ¬ Correct mmCrc32U64 (Transition.run (KeyThreads.step mmCrc32U64) (start smallest : KeyThreads Bool)
        [.find true [97], .find false [97], .insert true, .insert false]) := by
  rintro ⟨_, justified⟩
  have thrown : (⟨[97], .error .hashCollision, [[97]]⟩ : FinishedKey) ∈
      (Transition.run (KeyThreads.step mmCrc32U64) (start smallest : KeyThreads Bool)
        [.find true [97], .find false [97], .insert true, .insert false]).finished := by
    decide +kernel
  cases justified _ thrown _ rfl with
  | inl zero =>
      revert zero
      decide +kernel
  | inr collision =>
      obtain ⟨other, registered, apart, _⟩ := collision
      exact apart (List.mem_singleton.mp registered)

end KeyThreads

end Geopm
