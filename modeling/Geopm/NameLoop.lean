import Geopm.ProfileSampler

namespace Geopm

open ProfileTable (room)

/-! What the loops over the names of all ranks do, in terms of the blocks of
names that each rank sends. -/

/-- A block of names as the controller reads it: with a header in the first
round, and by its names. -/
structure Read where
  isFirst : Bool
  block : List Name
deriving DecidableEq

namespace Read

/-- A block that makes the controller read behind the buffer, where it takes
the block for one with a header. -/
def Overruns (size : Nat) (read : Read) : Prop :=
  read.isFirst = false ∧ ∃ name, read.block = [name] ∧ name.length + 2 = size

/-- What `name_fill` makes of the set of names, unless it reads behind the buffer. -/
def absorb (size : Nat) (reportName profName : Name) (read : Read) (nameSet : Finset Name) :
    Option (Finset Name) :=
  if nameSet = ∅ then
    match read.isFirst, read.block with
    | true, block => some block.toFinset
    | false, [name] => if name.length + 2 = size then none else some ∅
    | false, block => some (block.drop 2).toFinset
  else if read.isFirst then
    some (((reportName :: profName :: read.block).takeWhile (· ≠ [])).toFinset ∪ nameSet)
  else some (read.block.toFinset ∪ nameSet)

end Read

/-- The offset of the names in each round. -/
def offsetAt (header : Nat) : Nat → Nat
  | 0 => header
  | _ + 1 => 0

/-- The blocks of the first pass of a rank. -/
def passOf (size header : Nat) (names : List Name) : List (List Name) :=
  Packing.blocksFrom room (size - header - 1) (size - 1) names

/-- The blocks of each later pass. -/
def againOf (size : Nat) (names : List Name) : List (List Name) :=
  Packing.blocks room (size - 1) names

/-- The block of a rank in each round, and whether it is the last of a pass. -/
def blockOf (size header : Nat) (names : List Name) (round : Nat) : List Name :=
  Packing.blockAt room (size - header - 1) (size - 1) names round

def EndsAt (size header : Nat) (names : List Name) (round : Nat) : Prop :=
  Packing.FinishesAt room (size - header - 1) (size - 1) names round

instance (size header : Nat) (names : List Name) (round : Nat) :
    Decidable (EndsAt size header names round) := inferInstanceAs (Decidable (_ ∧ _))

theorem roomAt_eq (size header round : Nat) :
    Packing.roomAt (size - header - 1) (size - 1) round = size - offsetAt header round - 1 := by
  cases round <;> rfl

namespace Rank

variable {size header round : Nat} {reportName profName : Name} {all : List Name} {rank : Rank}

/-- A rank before a round. -/
structure Before (size header : Nat) (reportName profName : Name) (round : Nat)
    (all : List Name) (rank : Rank) : Prop where
  tableSize : rank.table.bufferSize = size
  samplerSize : rank.sampler.table.bufferSize = size
  names : rank.table.names = all
  sendable : ∀ name ∈ all, ProfileTable.Sendable size name
  remaining : rank.table.remaining =
    Packing.remainingAt room (size - header - 1) (size - 1) all round
  finished : rank.sampler.isNameFinished = decide ((passOf size header all).length ≤ round)
  headed : round = 0 → Window.read rank.buffer 0 header = Terminated.encode 0 [reportName, profName]

/-- A rank that has sent the block of a round. -/
structure Sent (size header : Nat) (reportName profName : Name) (round : Nat)
    (all : List Name) (rank : Rank) : Prop where
  tableSize : rank.table.bufferSize = size
  samplerSize : rank.sampler.table.bufferSize = size
  names : rank.table.names = all
  sendable : ∀ name ∈ all, ProfileTable.Sendable size name
  remaining : rank.table.remaining =
    Packing.remainingAt room (size - header - 1) (size - 1) all (round + 1)
  finished : rank.sampler.isNameFinished = decide ((passOf size header all).length ≤ round)
  headed : round = 0 → Window.read rank.buffer 0 header = Terminated.encode 0 [reportName, profName]
  written : ∃ padding, Window.read rank.buffer (offsetAt header round)
    (size - offsetAt header round - 1) =
      Terminated.encode 0 (blockOf size header all round) ++ List.replicate padding 0
  marked : rank.buffer (size - 1) = if EndsAt size header all round then 1 else 0

theorem send_spec (inside : header < size)
    (before : rank.Before size header reportName profName round all) :
    ∃ next, rank.send (offsetAt header round) =
        .ok (decide (EndsAt size header all round), next) ∧
      next.Sent size header reportName profName round all := by
  have offset : offsetAt header round < size := by
    cases round with
    | zero => exact inside
    | succ round => exact Nat.zero_lt_of_lt inside
  obtain ⟨tableSize, samplerSize, same, sendable, remaining, finished, headed⟩ := before
  have free : ∀ name ∈ rank.table.remaining, (0 : UInt8) ∉ name := by
    intro name member
    rw [remaining] at member
    exact (sendable name (Packing.remainingAt_subset member)).free
  obtain ⟨table, buffer, filled, effect⟩ := @ProfileTable.nameFill_spec (offsetAt header round)
    rank.buffer rank.table (tableSize.symm ▸ offset) free
  have written := effect.written
  have marked := effect.marked
  have after := effect.remaining
  rw [tableSize, ← roomAt_eq, remaining] at filled written marked after
  refine ⟨{ rank with table, buffer }, ?_, effect.bufferSize.trans tableSize, samplerSize, ?_,
    sendable, ?_, finished, ?_, ?_, marked⟩
  · rw [send, filled]
    rfl
  · exact (congrArg (List.map Prod.fst) effect.keyMap).trans same
  · exact after.trans (same ▸ rfl)
  · intro first
    subst first
    rw [← headed rfl]
    exact Window.read_congr fun index below => effect.header _ (by simpa [offsetAt] using below)
  · rw [← roomAt_eq]
    exact ⟨_, written⟩

/-- The block of a round with whether it has a header. -/
def readOf (size header : Nat) (all : List Name) (round : Nat) : Read :=
  ⟨decide (round = 0), blockOf size header all round⟩

theorem takeWhile_block {names : List Name}
    (sendable : ∀ name ∈ names, ProfileTable.Sendable size name) :
    names.takeWhile (· ≠ []) = names := by
  rw [List.takeWhile_eq_self_iff]
  intro name member
  simpa using (sendable name member).nonempty

theorem block_sendable (sendable : ∀ name ∈ all, ProfileTable.Sendable size name) :
    ∀ name ∈ blockOf size header all round, ProfileTable.Sendable size name :=
  fun name member => sendable name (Packing.remainingAt_subset (Packing.fitting_subset member))

/-- The buffer of a rank in the first round, with the header in front of the names. -/
theorem Sent.first (inside : header < size)
    (exact : header = reportName.length + 1 + (profName.length + 1))
    (sent : rank.Sent size header reportName profName 0 all) :
    ∃ padding, Window.read rank.buffer 0 (size - 1) =
      Terminated.encode 0 (reportName :: profName :: blockOf size header all 0) ++
        List.replicate padding 0 := by
  obtain ⟨padding, written⟩ := sent.written
  refine ⟨padding, ?_⟩
  rw [show size - 1 = header + (size - header - 1) by omega, Window.read_add, sent.headed rfl,
    Nat.zero_add]
  rw [offsetAt] at written
  rw [written]
  simp [Terminated.encode]

theorem Sent.later {last : Nat} (sent : rank.Sent size header reportName profName (last + 1) all) :
    ∃ padding, Window.read rank.buffer 0 (size - 1) =
      Terminated.encode 0 (blockOf size header all (last + 1)) ++ List.replicate padding 0 :=
  sent.written

theorem encode_padded {items : List Name} {padding : Nat} (roomy : 0 < padding) :
    Terminated.encode (0 : UInt8) items ++ List.replicate padding 0 =
      Terminated.encode 0 (items ++ [[]]) ++ List.replicate (padding - 1) 0 := by
  obtain ⟨less, rfl⟩ : ∃ less, padding = less + 1 := ⟨padding - 1, by omega⟩
  simp [Terminated.encode, List.replicate_succ]

/-- A block of one name that leaves no room is taken for a header without names
behind it, which ends behind the buffer. -/
theorem Sent.overrun {last : Nat} {name : Name} (large : 3 ≤ size)
    (sent : rank.Sent size header reportName profName (last + 1) all)
    (unfinished : rank.sampler.isNameFinished = false)
    (block : blockOf size header all (last + 1) = [name]) (whole : name.length + 2 = size) :
    rank.sampler.nameFill rank.buffer ∅ = .error .outOfBounds := by
  obtain ⟨padding, written⟩ := sent.later
  have free := (block_sendable sent.sendable name (block ▸ List.mem_singleton_self name)).free
  rw [block, Terminated.encode_cons, List.append_assoc, List.cons_append] at written
  have report := @stringAt_of_read size 0 _ _ _ _ (by omega) free written
  have marked := sent.marked
  have spare := @Packing.spare_add _ room (Packing.roomAt (size - header - 1) (size - 1) (last + 1))
    (Packing.remainingAt room (size - header - 1) (size - 1) all (last + 1))
  have more : ¬ EndsAt size header all (last + 1) := by
    rintro ⟨_, left⟩
    change _ + ((blockOf size header all (last + 1)).map room).sum = _ at spare
    simp only [block, List.map_cons, List.map_nil, List.sum_cons, List.sum_nil, room,
      Packing.roomAt] at spare left
    omega
  rw [if_neg more] at marked
  have prof : stringAt size rank.buffer (name.length + 1) = .ok [] := by
    apply @stringAt_of_read size (name.length + 1) 1 _ [] [] (by omega) (by simp)
    simp [Window.read, show name.length + 1 = size - 1 by omega, marked]
  rw [RankSampler.nameFill, unfinished]
  simp only [Bool.false_eq_true, if_false, if_true, RankSampler.readHeader, sent.samplerSize,
    report, prof, bind, Except.bind, pure, Except.pure, ProfileTable.nameSet, List.length_nil]
  rw [if_pos (by omega)]

/-- What the controller makes of the block of a rank that it has not finished. -/
theorem Sent.nameFill (large : 3 ≤ size) (inside : header < size)
    (exact : header = reportName.length + 1 + (profName.length + 1))
    (freeReport : (0 : UInt8) ∉ reportName) (freeProf : (0 : UInt8) ∉ profName)
    (sent : rank.Sent size header reportName profName round all)
    (unfinished : rank.sampler.isNameFinished = false) (nameSet : Finset Name) :
    match (readOf size header all round).absorb size reportName profName nameSet with
    | none => rank.sampler.nameFill rank.buffer nameSet = .error .outOfBounds
    | some after => ∃ sampler, rank.sampler.nameFill rank.buffer nameSet = .ok (sampler, after) ∧
        sampler.table.bufferSize = size ∧
        sampler.isNameFinished = decide (EndsAt size header all round) := by
  have sendable := @block_sendable size header round all sent.sendable
  have free := fun name member => (sendable name member).free
  have same := takeWhile_block sendable
  have mark : decide (rank.buffer (size - 1) = 1) = decide (EndsAt size header all round) := by
    rw [sent.marked]
    by_cases ends : EndsAt size header all round
    · rw [if_pos ends, decide_eq_true ends]
      rfl
    · rw [if_neg ends, decide_eq_false ends]
      rfl
  cases round with
  | zero =>
      obtain ⟨padding, written⟩ := sent.first inside exact
      by_cases empty : nameSet = ∅
      · subst empty
        have read := RankSampler.nameFill_header sent.samplerSize unfinished
          (by simpa [freeReport, freeProf] using free) written
        rw [same] at read
        exact ⟨_, read, sent.samplerSize, mark⟩
      · have read := RankSampler.nameFill_names sent.samplerSize (by omega) unfinished empty
          (by simpa [freeReport, freeProf] using free) written
        simp only [Read.absorb, readOf, if_neg empty, decide_true, if_true]
        exact ⟨_, read, sent.samplerSize, mark⟩
  | succ last =>
      obtain ⟨padding, written⟩ := sent.later
      have lengths := congrArg List.length written
      rw [Window.length_read, List.length_append, List.length_replicate,
        ProfileTable.length_encode] at lengths
      by_cases empty : nameSet = ∅
      · subst empty
        cases block : blockOf size header all (last + 1) with
        | nil =>
            rw [block] at written lengths free
            simp only [List.map_nil, List.sum_nil] at lengths
            rw [encode_padded (by omega), encode_padded (by omega)] at written
            have read := RankSampler.nameFill_header sent.samplerSize unfinished (by simp) written
            simp only [Read.absorb, readOf, block, if_true]
            exact ⟨_, read, sent.samplerSize, mark⟩
        | cons first others =>
            cases others with
            | nil =>
                by_cases whole : first.length + 2 = size
                · have absorbed : (readOf size header all (last + 1)).absorb size reportName profName
                      ∅ = none := by simp [Read.absorb, readOf, block, whole]
                  rw [absorbed]
                  exact sent.overrun large unfinished block whole
                · rw [block] at written lengths free
                  simp only [List.map_nil, List.sum_nil, List.map_cons, List.sum_cons, room] at lengths
                  rw [encode_padded (by omega)] at written
                  have read := RankSampler.nameFill_header sent.samplerSize unfinished
                    (by simpa using free) written
                  have absorbed : (readOf size header all (last + 1)).absorb size reportName profName
                      ∅ = some ∅ := by simp [Read.absorb, readOf, block, whole]
                  rw [absorbed]
                  exact ⟨_, read, sent.samplerSize, mark⟩
            | cons second rest =>
                rw [block] at written free same
                have read := RankSampler.nameFill_header sent.samplerSize unfinished
                  (by simpa using free) written
                have tail : rest.takeWhile (· ≠ []) = rest := by
                  rw [block] at sendable
                  exact takeWhile_block fun name member => sendable name (by simp [member])
                rw [tail] at read
                simp only [Read.absorb, readOf, block, if_true]
                exact ⟨_, read, sent.samplerSize, mark⟩
      · have read := RankSampler.nameFill_names sent.samplerSize (by omega) unfinished empty free
          written
        rw [same] at read
        simp only [Read.absorb, readOf, if_neg empty, Nat.add_one_ne_zero, decide_false,
          Bool.false_eq_true, if_false]
        exact ⟨_, read, sent.samplerSize, mark⟩

theorem endsAt_iff (large : 3 ≤ size) (sendable : ∀ name ∈ all, ProfileTable.Sendable size name) :
    EndsAt size header all round ↔ (passOf size header all).length ≤ round + 1 ∧
      (againOf size all).length ∣ round + 1 - (passOf size header all).length := by
  apply Packing.finishesAt_iff (by omega)
  intro name member
  have short := (sendable name member).short
  simp only [room]
  omega

/-- The controller's part of a round for one rank. -/
theorem Sent.receive (large : 3 ≤ size) (inside : header < size)
    (exact : header = reportName.length + 1 + (profName.length + 1))
    (freeReport : (0 : UInt8) ∉ reportName) (freeProf : (0 : UInt8) ∉ profName)
    (sent : rank.Sent size header reportName profName round all)
    (unfinished : round < (passOf size header all).length) (nameSet : Finset Name) :
    match (readOf size header all round).absorb size reportName profName nameSet with
    | none => rank.receive nameSet = .error (.table .outOfBounds)
    | some after => ∃ next, rank.receive nameSet = .ok (next, after) ∧
        next.Before size header reportName profName (round + 1) all := by
  have open_ : rank.sampler.isNameFinished = false := by
    rw [sent.finished, decide_eq_false (by omega)]
  have read := sent.nameFill large inside exact freeReport freeProf open_ nameSet
  split at read
  · rename_i thrown
    simp only [Rank.receive, read]
  · rename_i after absorbed
    obtain ⟨sampler, filled, samplerSize, finished⟩ := read
    simp only [Rank.receive, filled]
    refine ⟨_, rfl, sent.tableSize, samplerSize, sent.names, sent.sendable, sent.remaining, ?_,
      by simp⟩
    rw [finished, decide_eq_decide, endsAt_iff large sent.sendable]
    constructor
    · exact And.left
    · intro reached
      refine ⟨reached, ?_⟩
      rw [show round + 1 - (passOf size header all).length = 0 by omega]
      exact Nat.dvd_zero _

theorem Sent.receive_finished (sent : rank.Sent size header reportName profName round all)
    (finished : (passOf size header all).length ≤ round) (nameSet : Finset Name) :
    rank.receive nameSet = .ok (rank, nameSet) ∧
      rank.Before size header reportName profName (round + 1) all := by
  have closed : rank.sampler.isNameFinished = true := by
    rw [sent.finished, decide_eq_true finished]
  refine ⟨by rw [Rank.receive, RankSampler.nameFill, closed]; rfl, sent.tableSize, sent.samplerSize,
    sent.names, sent.sendable, sent.remaining, ?_, by simp⟩
  rw [closed, decide_eq_true (by omega)]

end Rank

/-- The blocks that the controller reads in a round, in its order of the ranks. -/
def readsAt (size header : Nat) (ranks : List (List Name)) (round : Nat) : List Read :=
  (ranks.filter fun all => round < (passOf size header all).length).map
    fun all => Rank.readOf size header all round

/-- The set of names after the blocks, unless one makes the controller read
behind the buffer. -/
def absorbAll (size : Nat) (reportName profName : Name) (nameSet : Finset Name)
    (reads : List Read) : Option (Finset Name) :=
  reads.foldlM (fun nameSet read => read.absorb size reportName profName nameSet) nameSet

section

variable {size header round : Nat} {reportName profName : Name} {all : List Name}
  {ranks : List (List Name)} {nameSet : Finset Name} {read : Read} {reads : List Read}

theorem readsAt_finished (finished : (passOf size header all).length ≤ round) :
    readsAt size header (all :: ranks) round = readsAt size header ranks round := by
  rw [readsAt, List.filter_cons_of_neg (by simpa using finished)]
  rfl

theorem readsAt_unfinished (unfinished : round < (passOf size header all).length) :
    readsAt size header (all :: ranks) round =
      Rank.readOf size header all round :: readsAt size header ranks round := by
  rw [readsAt, List.filter_cons_of_pos (by simpa using unfinished)]
  rfl

theorem absorbAll_cons : absorbAll size reportName profName nameSet (read :: reads) =
    (read.absorb size reportName profName nameSet).bind
      (absorbAll size reportName profName · reads) :=
  rfl

theorem absorbAll_append {left right : List Read} :
    absorbAll size reportName profName nameSet (left ++ right) =
      (absorbAll size reportName profName nameSet left).bind
        (absorbAll size reportName profName · right) :=
  List.foldlM_append

/-- The iterations until the controller has finished every rank. -/
def roundsOf (size header : Nat) (ranks : List (List Name)) : Nat :=
  ranks.foldr (fun all count => max (passOf size header all).length count) 1

theorem roundsOf_pos : 0 < roundsOf size header ranks := by
  induction ranks with
  | nil => exact Nat.one_pos
  | cons all rest ih => exact ih.trans_le (Nat.le_max_right _ _)

theorem roundsOf_le : roundsOf size header ranks ≤ round + 1 ↔
    ∀ all ∈ ranks, (passOf size header all).length ≤ round + 1 := by
  induction ranks with
  | nil => simp [roundsOf]
  | cons all rest ih => rw [List.forall_mem_cons, ← ih, roundsOf, List.foldr_cons, Nat.max_le]; rfl

/-- The blocks that the controller reads in a number of rounds. -/
def readsFrom (size header : Nat) (ranks : List (List Name)) (round count : Nat) : List Read :=
  (List.range' round count).flatMap (readsAt size header ranks)

theorem readsFrom_succ {count : Nat} : readsFrom size header ranks round (count + 1) =
    readsAt size header ranks round ++ readsFrom size header ranks (round + 1) count :=
  rfl

end

namespace NameLoop

variable {size header round : Nat} {reportName profName : Name} {names : List (List Name)}
  {ranks : List Rank}

theorem sendNames_spec (inside : header < size)
    (before : List.Forall₂ (fun all rank =>
      rank.Before size header reportName profName round all) names ranks) :
    ∃ next, sendNames (offsetAt header round) ranks =
        .ok (decide (∀ all ∈ names, EndsAt size header all round), next) ∧
      List.Forall₂ (fun all rank => rank.Sent size header reportName profName round all)
        names next := by
  induction before with
  | nil => exact ⟨[], by simp [sendNames], .nil⟩
  | cons first _ ih =>
      obtain ⟨rank, done, sent⟩ := Rank.send_spec inside first
      obtain ⟨rest, others, all⟩ := ih
      refine ⟨rank :: rest, ?_, .cons sent all⟩
      simp only [sendNames, done, others, bind, Except.bind, pure, Except.pure,
        List.forall_mem_cons, Bool.decide_and]

theorem regionNames_spec (large : 3 ≤ size) (inside : header < size)
    (exact : header = reportName.length + 1 + (profName.length + 1))
    (freeReport : (0 : UInt8) ∉ reportName) (freeProf : (0 : UInt8) ∉ profName)
    (sent : List.Forall₂ (fun all rank =>
      rank.Sent size header reportName profName round all) names ranks) (nameSet : Finset Name) :
    match absorbAll size reportName profName nameSet (readsAt size header names round) with
    | none => regionNames ranks nameSet = .error (.table .outOfBounds)
    | some after => ∃ next, regionNames ranks nameSet =
          .ok (decide (∀ all ∈ names, (passOf size header all).length ≤ round + 1), next, after) ∧
        List.Forall₂ (fun all rank =>
          rank.Before size header reportName profName (round + 1) all) names next := by
  induction sent generalizing nameSet with
  | nil => exact ⟨[], by simp [regionNames], .nil⟩
  | @cons all rank names ranks first _ ih =>
      by_cases finished : (passOf size header all).length ≤ round
      · obtain ⟨received, next⟩ := first.receive_finished finished nameSet
        have later : (passOf size header all).length ≤ round + 1 := by omega
        rw [readsAt_finished finished]
        have rest := ih nameSet
        split at rest
        · rename_i thrown
          simp only [regionNames, received, rest, bind, Except.bind]
        · rename_i after absorbed
          obtain ⟨others, done, all⟩ := rest
          refine ⟨rank :: others, ?_, .cons next all⟩
          simp only [regionNames, received, done, bind, Except.bind, pure, Except.pure, next.finished,
            List.forall_mem_cons, Bool.decide_and]
      · rw [readsAt_unfinished (by omega), absorbAll_cons]
        have read := first.receive large inside exact freeReport freeProf (by omega) nameSet
        split at read
        · rename_i thrown
          simp only [thrown, Option.bind_none, regionNames, read, bind, Except.bind]
        · rename_i middle absorbed
          obtain ⟨next, received, before⟩ := read
          simp only [absorbed, Option.bind_some]
          have rest := ih middle
          split at rest
          · rename_i thrown
            simp only [regionNames, received, rest, bind, Except.bind]
          · rename_i after others
            obtain ⟨others, done, all⟩ := rest
            refine ⟨next :: others, ?_, .cons before all⟩
            simp only [regionNames, received, done, bind, Except.bind, pure, Except.pure,
              before.finished, List.forall_mem_cons, Bool.decide_and]

theorem iteration_spec (large : 3 ≤ size) (inside : header < size)
    (exact : header = reportName.length + 1 + (profName.length + 1))
    (freeReport : (0 : UInt8) ∉ reportName) (freeProf : (0 : UInt8) ∉ profName)
    (before : List.Forall₂ (fun all rank =>
      rank.Before size header reportName profName round all) names ranks) (nameSet : Finset Name) :
    match absorbAll size reportName profName nameSet (readsAt size header names round) with
    | none => iteration ⟨ranks, nameSet⟩ (offsetAt header round) = .error (.table .outOfBounds)
    | some after => ∃ next : NameLoop, iteration ⟨ranks, nameSet⟩ (offsetAt header round) =
          .ok (decide (∀ all ∈ names, EndsAt size header all round),
            decide (roundsOf size header names ≤ round + 1), next) ∧
        next.nameSet = after ∧ List.Forall₂ (fun all rank =>
          rank.Before size header reportName profName (round + 1) all) names next.ranks := by
  obtain ⟨sent, sends, all⟩ := sendNames_spec inside before
  have reads := regionNames_spec large inside exact freeReport freeProf all nameSet
  split at reads
  · simp only [iteration, sends, reads, bind, Except.bind]
  · obtain ⟨next, received, ready⟩ := reads
    refine ⟨⟨next, _⟩, ?_, rfl, ready⟩
    simp only [iteration, sends, received, roundsOf_le, bind, Except.bind, pure, Except.pure]

theorem sendable_of_before (before : List.Forall₂ (fun all rank =>
      rank.Before size header reportName profName round all) names ranks) :
    ∀ all ∈ names, ∀ name ∈ all, ProfileTable.Sendable size name := by
  induction before with
  | nil => simp
  | cons first _ ih => exact List.forall_mem_cons.mpr ⟨first.sendable, ih⟩

/-- The loops go on until the controller has finished every rank. -/
theorem iterate_spec (large : 3 ≤ size) (inside : header < size)
    (exact : header = reportName.length + 1 + (profName.length + 1))
    (freeReport : (0 : UInt8) ∉ reportName) (freeProf : (0 : UInt8) ∉ profName) {count : Nat}
    (before : List.Forall₂ (fun all rank =>
      rank.Before size header reportName profName round all) names ranks) (nameSet : Finset Name)
    (left : round + count + 1 = roundsOf size header names) :
    match absorbAll size reportName profName nameSet
      (readsFrom size header names round (count + 1)) with
    | none => iterate (count + 1) ⟨ranks, nameSet⟩ (offsetAt header round) =
        .error (.table .outOfBounds)
    | some after => ∃ final, iterate (count + 1) ⟨ranks, nameSet⟩ (offsetAt header round) =
          .ok (some (decide (∀ all ∈ names, EndsAt size header all (round + count)), true, final)) ∧
        final.nameSet = after := by
  induction count generalizing round ranks nameSet with
  | zero =>
      have first := iteration_spec large inside exact freeReport freeProf before nameSet
      rw [readsFrom_succ, absorbAll_append]
      split at first
      · rename_i thrown
        simp only [thrown, Option.bind_none, iterate, first, bind, Except.bind]
      · rename_i after absorbed
        obtain ⟨next, done, collected, _⟩ := first
        rw [decide_eq_true (show roundsOf size header names ≤ round + 1 by omega)] at done
        simp only [absorbed, Option.bind_some]
        refine ⟨next, ?_, collected⟩
        simp only [iterate, done, Bool.or_true, if_true, bind, Except.bind, pure, Except.pure,
          Nat.add_zero]
  | succ count ih =>
      have first := iteration_spec large inside exact freeReport freeProf before nameSet
      rw [readsFrom_succ, absorbAll_append]
      split at first
      · rename_i thrown
        simp only [thrown, Option.bind_none, iterate, first, bind, Except.bind]
      · rename_i middle absorbed
        obtain ⟨⟨later, collected⟩, done, rfl, ready⟩ := first
        have unfinished : ¬ roundsOf size header names ≤ round + 1 := by omega
        have unsent : ¬ ∀ all ∈ names, EndsAt size header all round := fun ends =>
          unfinished (roundsOf_le.mpr fun all member =>
            ((Rank.endsAt_iff large (sendable_of_before before all member)).mp (ends all member)).1)
        rw [decide_eq_false unsent, decide_eq_false unfinished] at done
        have rest := ih ready collected (by omega)
        have goesOn : iterate (count + 1 + 1) ⟨ranks, nameSet⟩ (offsetAt header round) =
            iterate (count + 1) ⟨later, collected⟩ (offsetAt header (round + 1)) := by
          rw [iterate]
          simp only [done, bind, Except.bind]
          rfl
        rw [goesOn]
        simp only [absorbed, Option.bind_some]
        rwa [show round + 1 + count = round + (count + 1) by omega] at rest

end NameLoop

end Geopm
