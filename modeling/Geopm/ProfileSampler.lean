import Geopm.ProfileTable

namespace Geopm

/-! The loops of `ProfileImp::send_names` and `ProfileSamplerImp::region_names`,
which pass the names of all ranks of a node to the controller.

In each iteration of its loop either side waits for a step of the other, so the
loops go through their iterations together until one of them ends.
-/

inductive NamesError where
  | table (reason : TableError)
  /-- "ProfileImp::send_names() profile file name and profile name are too long to
  fit in a table buffer" -/
  | headerTooLong
deriving Repr, DecidableEq

/-- The string at a position of the buffer. -/
def stringAt (size : Nat) (buffer : Buffer) (ptr : Nat) : Except TableError Name :=
  if strnlen buffer ptr (size - ptr) = size - ptr then .error .outOfBounds
  else .ok (Window.read buffer ptr (strnlen buffer ptr (size - ptr)))

/-- `ProfileRankSamplerImp`. -/
structure RankSampler where
  table : ProfileTable
  isNameFinished : Bool
  reportName : Name
  profName : Name

namespace RankSampler

/-- The constructor. -/
def new (tableSize : Nat) : Except TableError RankSampler := do
  pure ⟨← ProfileTable.new tableSize, false, [], []⟩

/-- Read the names of the report and of the profile, up to the offset behind them. -/
def readHeader (sampler : RankSampler) (buffer : Buffer) :
    Except TableError (RankSampler × Nat) := do
  let reportName ← stringAt sampler.table.bufferSize buffer 0
  let profName ← stringAt sampler.table.bufferSize buffer (reportName.length + 1)
  pure ({ sampler with reportName, profName },
    reportName.length + 1 + (profName.length + 1))

/-- `name_fill`, with the set of names that it adds to. -/
def nameFill (sampler : RankSampler) (buffer : Buffer) (nameSet : Finset Name) :
    Except TableError (RankSampler × Finset Name) :=
  if sampler.isNameFinished then .ok (sampler, nameSet)
  else do
    let (sampler, headerOffset) ←
      if nameSet = ∅ then sampler.readHeader buffer else pure (sampler, 0)
    let (isNameFinished, nameSet) ← sampler.table.nameSet buffer headerOffset nameSet
    pure ({ sampler with isNameFinished }, nameSet)

end RankSampler

theorem stringAt_of_read {size ptr count : Nat} {buffer : Buffer} {name rest : List UInt8}
    (inside : ptr + count ≤ size) (free : (0 : UInt8) ∉ name)
    (written : Window.read buffer ptr count = name ++ 0 :: rest) :
    stringAt size buffer ptr = .ok name := by
  have lengths := congrArg List.length written
  rw [Window.length_read, List.length_append, List.length_cons] at lengths
  have whole : Window.read buffer ptr (size - ptr) =
      name ++ 0 :: (rest ++ Window.read buffer (ptr + count) (size - ptr - count)) := by
    conv_lhs => rw [show size - ptr = count + (size - ptr - count) by omega]
    rw [Window.read_add, written, List.append_assoc, List.cons_append]
  have nameLen : strnlen buffer ptr (size - ptr) = name.length := by
    rw [strnlen, whole, Terminated.upTo_append free]
  rw [stringAt, nameLen, if_neg (by omega), ← @Window.take_read _ buffer ptr count _ (by omega), written,
    List.take_left]

namespace RankSampler

variable {sampler : RankSampler} {size padding : Nat} {buffer : Buffer} {nameSet : Finset Name}
  {reportName profName : Name} {names : List Name}

/-- Two strings at the beginning of the buffer are its header. -/
theorem readHeader_spec (sized : sampler.table.bufferSize = size)
    (free : ∀ name ∈ reportName :: profName :: names, (0 : UInt8) ∉ name)
    (written : Window.read buffer 0 (size - 1) =
      Terminated.encode 0 (reportName :: profName :: names) ++ List.replicate padding 0) :
    sampler.readHeader buffer = .ok ({ sampler with reportName, profName },
        reportName.length + 1 + (profName.length + 1)) ∧
      reportName.length + 1 + (profName.length + 1) < size ∧
      Window.read buffer (reportName.length + 1 + (profName.length + 1))
          (size - (reportName.length + 1 + (profName.length + 1)) - 1) =
        Terminated.encode 0 names ++ List.replicate padding 0 := by
  simp only [Terminated.encode_cons, List.append_assoc, List.cons_append] at written
  have lengths := congrArg List.length written
  simp only [Window.length_read, List.length_append, List.length_cons] at lengths
  have report := @stringAt_of_read size _ _ _ _ _ (by omega) (free reportName (by simp)) written
  have behind := congrArg (List.drop (reportName.length + 1)) written
  rw [Window.drop_read (by omega), Nat.zero_add, List.append_cons,
    List.drop_left' (by simp)] at behind
  have prof := @stringAt_of_read size _ _ _ _ _ (by omega) (free profName (by simp)) behind
  have last := congrArg (List.drop (profName.length + 1)) behind
  rw [Window.drop_read (by omega), List.append_cons, List.drop_left' (by simp)] at last
  refine ⟨?_, by omega, ?_⟩
  · rw [readHeader, sized, report]
    simp only [bind, Except.bind, prof]
    rfl
  · rw [← last]
    congr 1
    omega

/-- The first names of all are read behind a header. -/
theorem nameFill_header (sized : sampler.table.bufferSize = size)
    (unfinished : sampler.isNameFinished = false)
    (free : ∀ name ∈ reportName :: profName :: names, (0 : UInt8) ∉ name)
    (written : Window.read buffer 0 (size - 1) =
      Terminated.encode 0 (reportName :: profName :: names) ++ List.replicate padding 0) :
    sampler.nameFill buffer ∅ = .ok
      (⟨sampler.table, decide (buffer (size - 1) = 1), reportName, profName⟩,
        (names.takeWhile (· ≠ [])).toFinset) := by
  obtain ⟨header, inside, behind⟩ := readHeader_spec sized free written
  have set := @ProfileTable.nameSet_spec size _ _ _ _ _ ∅ sized inside
    (fun name member => free name (by simp [member])) behind
  rw [nameFill, unfinished]
  simp only [Bool.false_eq_true, if_false, if_true, header, bind, Except.bind, set, pure,
    Except.pure, Finset.union_empty]

/-- Once there are names no header is expected. -/
theorem nameFill_names (sized : sampler.table.bufferSize = size) (roomy : 0 < size)
    (unfinished : sampler.isNameFinished = false) (nonempty : nameSet ≠ ∅)
    (free : ∀ name ∈ names, (0 : UInt8) ∉ name)
    (written : Window.read buffer 0 (size - 1) =
      Terminated.encode 0 names ++ List.replicate padding 0) :
    sampler.nameFill buffer nameSet = .ok
      ({ sampler with isNameFinished := decide (buffer (size - 1) = 1) },
        (names.takeWhile (· ≠ [])).toFinset ∪ nameSet) := by
  have set := @ProfileTable.nameSet_spec size _ _ _ _ _ nameSet sized roomy free written
  rw [nameFill, unfinished]
  simp only [Bool.false_eq_true, if_false, if_neg nonempty, bind, Except.bind, set, pure,
    Except.pure]

end RankSampler

/-- One rank: the table of its `ProfileImp`, the buffer of the table, and what
the controller keeps for the rank. -/
structure Rank where
  table : ProfileTable
  buffer : Buffer
  sampler : RankSampler

namespace Rank

/-- A rank with its registered names and what its buffer holds before the exchange. -/
def new (crc32U64 : Nat → Nat → Nat) (size : Nat) (names : List Name) (buffer : Buffer) :
    Except TableError Rank := do
  pure ⟨← ProfileTable.register crc32U64 size names, buffer, ← RankSampler.new size⟩

/-- The part of `send_names` before its loop. -/
def writeHeader (reportName profName : Name) (rank : Rank) : Except NamesError Rank :=
  let size := rank.table.bufferSize
  if size < reportName.length + 1 + profName.length + 1 then .error .headerTooLong
  else
    let buffer := Window.put rank.buffer 0 (strncpy reportName (size - 1))
    let bufferRemain := size - (reportName.length + 1)
    .ok { rank with
      buffer := Window.put buffer (reportName.length + 1) (strncpy profName (bufferRemain - 1)) }

/-- The `name_fill` of `send_names`. -/
def send (headerOffset : Nat) (rank : Rank) : Except NamesError (Bool × Rank) :=
  match rank.table.nameFill rank.buffer headerOffset with
  | .error reason => .error (.table reason)
  | .ok (isDone, table, buffer) => .ok (isDone, { rank with table, buffer })

/-- The `name_fill` of `region_names`. -/
def receive (rank : Rank) (nameSet : Finset Name) : Except NamesError (Rank × Finset Name) :=
  match rank.sampler.nameFill rank.buffer nameSet with
  | .error reason => .error (.table reason)
  | .ok (sampler, nameSet) => .ok ({ rank with sampler }, nameSet)

end Rank

/-- `m_rank_sampler` in its order, and `m_name_set`. -/
structure NameLoop where
  ranks : List Rank
  nameSet : Finset Name

namespace NameLoop

/-- One iteration of `send_names`: `name_fill` on every rank, and the test
whether all of them are done. -/
def sendNames (headerOffset : Nat) : List Rank → Except NamesError (Bool × List Rank)
  | [] => .ok (true, [])
  | rank :: rest => do
      let (isDone, rank) ← rank.send headerOffset
      let (isAllDone, rest) ← sendNames headerOffset rest
      pure (isDone && isAllDone, rank :: rest)

/-- One iteration of `region_names`. -/
def regionNames : List Rank → Finset Name → Except NamesError (Bool × List Rank × Finset Name)
  | [], nameSet => .ok (true, [], nameSet)
  | rank :: rest, nameSet => do
      let (rank, nameSet) ← rank.receive nameSet
      let (isAllDone, rest, nameSet) ← regionNames rest nameSet
      pure (rank.sampler.isNameFinished && isAllDone, rank :: rest, nameSet)

/-- One iteration of both loops, with the two values of `is_all_done`. -/
def iteration (loop : NameLoop) (headerOffset : Nat) :
    Except NamesError (Bool × Bool × NameLoop) := do
  let (isAllSent, ranks) ← sendNames headerOffset loop.ranks
  let (isAllReceived, ranks, nameSet) ← regionNames ranks loop.nameSet
  pure (isAllSent, isAllReceived, { ranks, nameSet })

/-- The iterations up to the first in which a loop ends. -/
def iterate : Nat → NameLoop → Nat → Except NamesError (Option (Bool × Bool × NameLoop))
  | 0, _, _ => .ok none
  | fuel + 1, loop, headerOffset => do
      let (isAllSent, isAllReceived, next) ← loop.iteration headerOffset
      if isAllSent || isAllReceived then pure (some (isAllSent, isAllReceived, next))
      else next.iterate fuel 0

/-- Both functions up to the end of a loop. -/
def exchange (fuel : Nat) (reportName profName : Name) (loop : NameLoop) :
    Except NamesError (Option (Bool × Bool × NameLoop)) := do
  let ranks ← loop.ranks.mapM (Rank.writeHeader reportName profName)
  iterate fuel { loop with ranks } (reportName.length + 1 + (profName.length + 1))

end NameLoop

end Geopm
