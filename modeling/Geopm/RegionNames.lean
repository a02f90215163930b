import Geopm.NameLoop

namespace Geopm

open ProfileTable (room)

/-! When the loops over the names end together, and when the controller has the
names of all ranks. -/

theorem passOf_pos {size header : Nat} (names : List Name) :
    0 < (passOf size header names).length := by
  simp [passOf, Packing.blocksFrom]

namespace Rank

variable {size : Nat} {reportName profName : Name} {rank : Rank} {registered : List Name}

/-- A rank as it is created. -/
structure Created (size : Nat) (registered : List Name) (rank : Rank) : Prop where
  table : rank.table.Registered size registered
  samplerSize : rank.sampler.table.bufferSize = size
  unfinished : rank.sampler.isNameFinished = false

theorem created_of_new {crc32U64 : Nat → Nat → Nat} {buffer : Buffer}
    (done : Rank.new crc32U64 size registered buffer = .ok rank) :
    rank.Created size registered := by
  rw [Rank.new] at done
  cases registers : ProfileTable.register crc32U64 size registered with
  | error reason => simp [registers, bind, Except.bind] at done
  | ok table =>
      cases made : RankSampler.new size with
      | error reason => simp [registers, made, bind, Except.bind] at done
      | ok sampler =>
          simp only [registers, made, bind, Except.bind, pure, Except.pure, Except.ok.injEq] at done
          subst done
          rw [RankSampler.new, ProfileTable.new] at made
          split at made
          · simp [bind, Except.bind] at made
          · obtain rfl := Except.ok.inj made
            exact ⟨ProfileTable.registered_of_register registers, rfl, rfl⟩

/-- The header is in front of the names that the first round will send. -/
theorem Created.writeHeader (created : rank.Created size registered)
    (sendable : ∀ name ∈ registered, ProfileTable.Sendable size name)
    (inside : reportName.length + 1 + (profName.length + 1) < size)
    (freeReport : (0 : UInt8) ∉ reportName) (freeProf : (0 : UInt8) ∉ profName) :
    ∃ next, rank.writeHeader reportName profName = .ok next ∧
      next.Before size (reportName.length + 1 + (profName.length + 1)) reportName profName 0
        rank.table.names := by
  have sized := created.table.bufferSize
  have remaining : rank.table.remaining = rank.table.names :=
    congrArg (List.map Prod.fst) created.table.first
  have all := fun name member => sendable name ((created.table.names name).mp member)
  rw [Rank.writeHeader, sized, if_neg (by omega)]
  refine ⟨_, rfl, sized, created.samplerSize, rfl, all, remaining, ?_, fun _ => ?_⟩
  · have positive := @passOf_pos size (reportName.length + 1 + (profName.length + 1))
      rank.table.names
    rw [decide_eq_false (by omega)]
    exact created.unfinished
  · rw [Window.read_add, Window.read_put_disjoint (by omega), Nat.zero_add,
      Window.read_put_take (by rw [ProfileTable.length_strncpy]; omega),
      Window.read_put_take (by rw [ProfileTable.length_strncpy]; omega),
      ProfileTable.take_strncpy freeReport (by omega), ProfileTable.take_strncpy freeProf (by omega)]
    simp [Terminated.encode]

end Rank

namespace Read

/-- A block that adds no name to an empty set. -/
def Silent (read : Read) : Prop := read.block.length ≤ if read.isFirst then 0 else 2

instance (read : Read) : Decidable read.Silent := inferInstanceAs (Decidable (_ ≤ _))

/-- The blocks that are read, with whether there are names already. -/
def tagged : Bool → List Read → List (Bool × Read)
  | _, [] => []
  | started, read :: rest => (started, read) :: tagged (started || !decide read.Silent) rest

/-- The names of a block that are added to the set. -/
def kept (reportName profName : Name) (entry : Bool × Read) : List Name :=
  match entry.1, entry.2.isFirst with
  | false, true => entry.2.block
  | false, false => entry.2.block.drop 2
  | true, true => if reportName = [] ∨ profName = [] then [] else entry.2.block
  | true, false => entry.2.block

/-- The names of a block that are not: they are taken for a header, or they are
behind an empty string of one that is taken for names. -/
def skipped (reportName profName : Name) (entry : Bool × Read) : List Name :=
  match entry.1, entry.2.isFirst with
  | false, true => []
  | false, false => entry.2.block.take 2
  | true, true => if reportName = [] ∨ profName = [] then entry.2.block else []
  | true, false => []

/-- The strings of a header that is taken for names. -/
def headers (reportName profName : Name) (entry : Bool × Read) : List Name :=
  match entry.1, entry.2.isFirst with
  | true, true => [reportName, profName].takeWhile (· ≠ [])
  | _, _ => []

variable {size : Nat} {reportName profName : Name} {read : Read} {reads : List Read}
  {nameSet after : Finset Name} {name : Name} {entry : Bool × Read}

theorem mem_block : name ∈ entry.2.block ↔
    name ∈ kept reportName profName entry ∨ name ∈ skipped reportName profName entry := by
  obtain ⟨started, isFirst, block⟩ := entry
  cases started <;> cases isFirst <;> simp only [kept, skipped]
  · rw [← List.mem_append, ← List.perm_append_comm.mem_iff, List.take_append_drop]
  · simp
  · simp
  · split <;> simp

theorem absorb_none : read.absorb size reportName profName nameSet = none ↔
    nameSet = ∅ ∧ read.Overruns size := by
  obtain ⟨isFirst, block⟩ := read
  by_cases empty : nameSet = ∅
  · cases isFirst with
    | true => simp [absorb, empty, Overruns]
    | false =>
        cases block with
        | nil => simp [absorb, empty, Overruns]
        | cons name rest => cases rest <;> simp [absorb, empty, Overruns]
  · cases isFirst <;> simp [absorb, empty]

/-- The set after a block has the names that are kept and the strings of a header
that are taken for names. -/
theorem absorb_some (nonempty : ∀ name ∈ read.block, name ≠ [])
    (absorbed : read.absorb size reportName profName nameSet = some after) :
    after = (kept reportName profName (decide (nameSet ≠ ∅), read) ++
      headers reportName profName (decide (nameSet ≠ ∅), read)).toFinset ∪ nameSet := by
  obtain ⟨isFirst, block⟩ := read
  by_cases empty : nameSet = ∅
  · subst empty
    cases isFirst with
    | true =>
        simp only [absorb, if_true, Option.some.injEq] at absorbed
        simp [kept, headers, absorbed]
    | false =>
        cases block with
        | nil => simpa [absorb, kept, headers, eq_comm] using absorbed
        | cons name rest =>
            cases rest with
            | nil =>
                simp only [absorb, if_true] at absorbed
                split at absorbed
                · simp at absorbed
                · simpa [kept, headers, eq_comm] using absorbed
            | cons other rest => simpa [absorb, kept, headers, eq_comm] using absorbed
  · have started : decide (nameSet ≠ ∅) = true := decide_eq_true empty
    rw [started]
    cases isFirst with
    | false =>
        simp only [absorb, if_neg empty, Bool.false_eq_true, if_false, Option.some.injEq] at absorbed
        simp [kept, headers, absorbed]
    | true =>
        have whole : block.takeWhile (· ≠ []) = block := by
          rw [List.takeWhile_eq_self_iff]
          intro name member
          simpa using nonempty name member
        simp only [absorb, if_neg empty, if_true, Option.some.injEq] at absorbed
        rw [← absorbed]
        congr 1
        by_cases report : reportName = []
        · simp [kept, headers, report]
        · by_cases prof : profName = []
          · simp [kept, headers, report, prof]
          · simp only [kept, headers, report, prof, or_self, if_false, List.takeWhile_cons,
              List.takeWhile_nil, ne_eq, not_false_eq_true, decide_true, if_true]
            rw [show block.takeWhile (fun name => decide ¬ name = []) = block from whole,
              List.toFinset_append, Finset.union_comm, ← List.toFinset_append]
            rfl

theorem absorb_eq_empty (nonempty : ∀ name ∈ read.block, name ≠ [])
    (absorbed : read.absorb size reportName profName nameSet = some after) :
    decide (after ≠ ∅) = (decide (nameSet ≠ ∅) || !decide read.Silent) := by
  rw [absorb_some nonempty absorbed]
  by_cases empty : nameSet = ∅
  · subst empty
    obtain ⟨isFirst, block⟩ := read
    cases isFirst with
    | false =>
        simp only [kept, headers, Silent, Bool.false_eq_true, if_false, ne_eq, not_true_eq_false,
          decide_false, List.append_nil, Finset.union_empty, List.toFinset_eq_empty_iff,
          List.drop_eq_nil_iff, decide_not, Bool.false_or]
    | true => simp [kept, headers, Silent]
  · simp [empty]

/-- The names after a number of blocks. -/
theorem mem_absorbAll (nonempty : ∀ read ∈ reads, ∀ name ∈ read.block, name ≠ [])
    (absorbed : absorbAll size reportName profName nameSet reads = some after) :
    name ∈ after ↔ name ∈ nameSet ∨ ∃ entry ∈ tagged (decide (nameSet ≠ ∅)) reads,
      name ∈ kept reportName profName entry ∨ name ∈ headers reportName profName entry := by
  induction reads generalizing nameSet with
  | nil =>
      obtain rfl := Option.some.inj absorbed
      simp [tagged]
  | cons read rest ih =>
      rw [absorbAll_cons] at absorbed
      obtain ⟨middle, first, others⟩ := Option.bind_eq_some_iff.mp absorbed
      have here := nonempty read (by simp)
      rw [ih (fun other member => nonempty other (by simp [member])) others,
        absorb_eq_empty here first, absorb_some here first, tagged]
      simp only [Finset.mem_union, List.mem_toFinset, List.mem_append, List.exists_mem_cons_iff]
      rw [@or_comm _ (name ∈ nameSet), or_assoc]

/-- The controller reads behind the buffer where a block of one name without room
behind it is read before any name is kept. -/
theorem absorbAll_none (nonempty : ∀ read ∈ reads, ∀ name ∈ read.block, name ≠ []) :
    absorbAll size reportName profName nameSet reads = none ↔
      ∃ entry ∈ tagged (decide (nameSet ≠ ∅)) reads, entry.1 = false ∧ entry.2.Overruns size := by
  induction reads generalizing nameSet with
  | nil => simp [absorbAll, tagged]
  | cons read rest ih =>
      have here := nonempty read (by simp)
      rw [absorbAll_cons, tagged, List.exists_mem_cons_iff]
      cases first : read.absorb size reportName profName nameSet with
      | none =>
          obtain ⟨empty, overruns⟩ := absorb_none.mp first
          simp [empty, overruns]
      | some middle =>
          have safe : ¬ (decide (nameSet ≠ ∅) = false ∧ read.Overruns size) := by
            rintro ⟨empty, overruns⟩
            have thrown := (@absorb_none size reportName profName read nameSet).mpr
              ⟨by simpa using empty, overruns⟩
            rw [first] at thrown
            simp at thrown
          rw [Option.bind_some, ih fun other member => nonempty other (by simp [member]),
            absorb_eq_empty here first]
          exact (or_iff_right safe).symm

end Read

namespace NameLoop

variable {size fuel : Nat} {reportName profName : Name} {loop : NameLoop} {headerOffset : Nat}

/-- More iterations than are needed change nothing. -/
theorem iterate_succ (ended : iterate fuel loop headerOffset ≠ .ok none) :
    iterate (fuel + 1) loop headerOffset = iterate fuel loop headerOffset := by
  induction fuel generalizing loop headerOffset with
  | zero => exact absurd rfl ended
  | succ fuel ih =>
      rw [iterate] at ended ⊢
      rw [iterate]
      cases done : loop.iteration headerOffset with
      | error reason => rfl
      | ok result =>
          obtain ⟨isAllSent, isAllReceived, next⟩ := result
          simp only [done, bind, Except.bind] at ended ⊢
          split
          · rfl
          · rename_i goesOn
            rw [if_neg goesOn] at ended
            exact ih ended

theorem iterate_add (ended : iterate fuel loop headerOffset ≠ .ok none) (more : Nat) :
    iterate (fuel + more) loop headerOffset = iterate fuel loop headerOffset := by
  induction more with
  | zero => rfl
  | succ more ih => rw [← Nat.add_assoc, iterate_succ (ih ▸ ended), ih]

/-- So the outcome does not depend on the number of iterations that are allowed. -/
theorem iterate_eq {other : Nat} (ended : iterate fuel loop headerOffset ≠ .ok none)
    (endedToo : iterate other loop headerOffset ≠ .ok none) :
    iterate fuel loop headerOffset = iterate other loop headerOffset := by
  rcases Nat.le_total fuel other with less | less
  · obtain ⟨more, rfl⟩ := Nat.exists_eq_add_of_le less
    exact (iterate_add ended more).symm
  · obtain ⟨more, rfl⟩ := Nat.exists_eq_add_of_le less
    exact iterate_add endedToo more

/-- The names of each rank, in the order of its map. -/
def names (loop : NameLoop) : List (List Name) := loop.ranks.map (·.table.names)

/-- The length of the header that `send_names` writes. -/
def headerOf (reportName profName : Name) : Nat := reportName.length + 1 + (profName.length + 1)

/-- The iterations of the controller. -/
def rounds (size : Nat) (reportName profName : Name) (loop : NameLoop) : Nat :=
  roundsOf size (headerOf reportName profName) loop.names

/-- What the controller reads in them. -/
def reads (size : Nat) (reportName profName : Name) (loop : NameLoop) : List Read :=
  readsFrom size (headerOf reportName profName) loop.names 0 (loop.rounds size reportName profName)

/-- Every rank starts a pass in the round behind the last one of the controller. -/
def Aligned (size : Nat) (reportName profName : Name) (loop : NameLoop) : Prop :=
  ∀ all ∈ loop.names, (againOf size all).length ∣
    loop.rounds size reportName profName - (passOf size (headerOf reportName profName) all).length

instance : Decidable (loop.Aligned size reportName profName) :=
  inferInstanceAs (Decidable (∀ all ∈ loop.names, _))

/-- A node before the exchange: its ranks with their names, and the strings of the
header. -/
structure Begins (size : Nat) (reportName profName : Name) (registered : List (List Name))
    (loop : NameLoop) : Prop where
  created : List.Forall₂ (fun all rank => rank.Created size all) registered loop.ranks
  sendable : ∀ all ∈ registered, ∀ name ∈ all, ProfileTable.Sendable size name
  freeReport : (0 : UInt8) ∉ reportName
  freeProf : (0 : UInt8) ∉ profName
  empty : loop.nameSet = ∅

variable {registered : List (List Name)}

theorem Begins.writeHeader (begins : loop.Begins size reportName profName registered)
    (inside : headerOf reportName profName < size) :
    ∃ ranks, loop.ranks.mapM (Rank.writeHeader reportName profName) = .ok ranks ∧
      List.Forall₂ (fun all rank =>
        rank.Before size (headerOf reportName profName) reportName profName 0 all)
        loop.names ranks := by
  obtain ⟨created, sendable, freeReport, freeProf, _⟩ := begins
  simp only [names]
  generalize loop.ranks = ranks at created
  induction created with
  | nil => exact ⟨[], rfl, .nil⟩
  | cons first _ ih =>
      obtain ⟨next, done, before⟩ :=
        first.writeHeader (sendable _ (by simp)) inside freeReport freeProf
      obtain ⟨rest, others, all⟩ := ih fun all member => sendable all (by simp [member])
      refine ⟨next :: rest, ?_, .cons before all⟩
      simp only [List.mapM_cons, done, others, bind, Except.bind, pure, Except.pure]

theorem Begins.large (begins : loop.Begins size reportName profName registered)
    (nonempty : loop.ranks ≠ []) : 3 ≤ size := by
  have created := begins.created
  generalize loop.ranks = ranks at created nonempty
  cases created with
  | nil => exact absurd rfl nonempty
  | cons first _ =>
      have large := first.table.large
      simp only [ProfileTable.sizeofTable, ProfileTable.sizeofMessage] at large
      omega

theorem Begins.sendable_names (begins : loop.Begins size reportName profName registered) :
    ∀ all ∈ loop.names, ∀ name ∈ all, ProfileTable.Sendable size name := by
  obtain ⟨created, sendable, _⟩ := begins
  simp only [names]
  generalize loop.ranks = ranks at created
  induction created with
  | nil => simp
  | cons first _ ih =>
      rw [List.map_cons, List.forall_mem_cons]
      refine ⟨fun name member => ?_, ih fun all member => sendable all (by simp [member])⟩
      exact sendable _ (by simp) name ((first.table.names name).mp member)

/-- The loops end after the rounds of the controller, unless it reads behind the
buffer, and the one of the application ends with it if and only if every rank
starts a new pass. -/
theorem Begins.exchange_spec (begins : loop.Begins size reportName profName registered)
    (nonempty : loop.ranks ≠ []) (inside : headerOf reportName profName < size) :
    match absorbAll size reportName profName ∅ (loop.reads size reportName profName) with
    | none => exchange (loop.rounds size reportName profName) reportName profName loop =
        .error (.table .outOfBounds)
    | some after => ∃ final,
        exchange (loop.rounds size reportName profName) reportName profName loop =
          .ok (some (decide (loop.Aligned size reportName profName), true, final)) ∧
        final.nameSet = after := by
  have large := begins.large nonempty
  obtain ⟨ranks, written, before⟩ := begins.writeHeader inside
  obtain ⟨last, count⟩ : ∃ last, loop.rounds size reportName profName = last + 1 :=
    ⟨_, (Nat.succ_pred_eq_of_pos roundsOf_pos).symm⟩
  have spec := iterate_spec large inside rfl begins.freeReport begins.freeProf before ∅
    (by rw [Nat.zero_add]; exact count.symm)
  have aligned : (∀ all ∈ loop.names, EndsAt size (headerOf reportName profName) all (0 + last)) ↔
      loop.Aligned size reportName profName := by
    apply forall₂_congr
    intro all member
    rw [Rank.endsAt_iff large (begins.sendable_names all member), Nat.zero_add, count]
    refine and_iff_right ?_
    exact roundsOf_le.mp count.le all member
  rw [decide_eq_decide.mpr aligned] at spec
  have starts : ∀ fuel, exchange fuel reportName profName loop =
      iterate fuel ⟨ranks, ∅⟩ (headerOf reportName profName) := by
    intro fuel
    rw [exchange, written, ← begins.empty]
    rfl
  rw [starts, reads, count]
  exact spec

theorem mem_reads {read : Read} : read ∈ loop.reads size reportName profName ↔
    ∃ all ∈ loop.names, ∃ round < (passOf size (headerOf reportName profName) all).length,
      read = Rank.readOf size (headerOf reportName profName) all round := by
  simp only [reads, readsFrom, readsAt, List.mem_flatMap, List.mem_range'_1, List.mem_map,
    List.mem_filter, decide_eq_true_eq]
  constructor
  · rintro ⟨round, _, all, ⟨member, inside⟩, rfl⟩
    exact ⟨all, member, round, inside, rfl⟩
  · rintro ⟨all, member, round, inside, rfl⟩
    obtain ⟨last, count⟩ : ∃ last, loop.rounds size reportName profName = last + 1 :=
      ⟨_, (Nat.succ_pred_eq_of_pos roundsOf_pos).symm⟩
    have bound := roundsOf_le.mp count.le all member
    exact ⟨round, ⟨by omega, by omega⟩, all, ⟨member, inside⟩, rfl⟩

theorem Begins.nonempty_block (begins : loop.Begins size reportName profName registered) :
    ∀ read ∈ loop.reads size reportName profName, ∀ name ∈ read.block, name ≠ [] := by
  intro read member name inside
  obtain ⟨all, known, round, _, rfl⟩ := mem_reads.mp member
  exact (Rank.block_sendable (begins.sendable_names all known) name inside).nonempty

/-- The blocks that the controller reads are all the names. -/
theorem Begins.mem_blocks (begins : loop.Begins size reportName profName registered)
    (nonempty : loop.ranks ≠ []) {name : Name} :
    (∃ read ∈ loop.reads size reportName profName, name ∈ read.block) ↔
      ∃ all ∈ loop.names, name ∈ all := by
  have large := begins.large nonempty
  have fits : ∀ all ∈ loop.names, ∀ name ∈ all, room name ≤ size - 1 := by
    intro all member name inside
    have short := (begins.sendable_names all member name inside).short
    simp only [room]
    omega
  have flat := fun all member => @Packing.flatten_blocksFrom _ room (size - 1)
    (size - headerOf reportName profName - 1) all (by omega) (fits all member)
  constructor
  · rintro ⟨read, member, inside⟩
    obtain ⟨all, known, round, _, rfl⟩ := mem_reads.mp member
    exact ⟨all, known, Packing.remainingAt_subset (Packing.fitting_subset inside)⟩
  · rintro ⟨all, known, inside⟩
    rw [← flat all known, List.mem_flatten] at inside
    obtain ⟨block, here, inside⟩ := inside
    obtain ⟨round, bound, rfl⟩ := List.mem_iff_getElem.mp here
    refine ⟨_, mem_reads.mpr ⟨all, known, round, bound, rfl⟩, ?_⟩
    rwa [Packing.getElem_blocksFrom (by omega) (fits all known)] at inside

theorem Begins.mem_names (begins : loop.Begins size reportName profName registered) {name : Name} :
    (∃ all ∈ loop.names, name ∈ all) ↔ ∃ all ∈ registered, name ∈ all := by
  have created := begins.created
  clear begins
  simp only [names]
  generalize loop.ranks = ranks at created
  induction created with
  | nil => simp
  | cons first _ ih =>
      rw [List.map_cons, List.exists_mem_cons_iff, List.exists_mem_cons_iff]
      exact or_congr (first.table.names name) ih

/-- A header that leaves no byte of the buffer lets the first rank write behind it. -/
theorem Begins.exchange_full (begins : loop.Begins size reportName profName registered)
    (nonempty : loop.ranks ≠ []) (full : size ≤ headerOf reportName profName)
    (result : Bool × Bool × NameLoop) :
    exchange fuel reportName profName loop ≠ .ok (some result) := by
  have created := begins.created
  clear begins
  rw [exchange]
  generalize loop.ranks = ranks at created nonempty
  cases created with
  | nil => exact absurd rfl nonempty
  | @cons all rank names rest first _ =>
      have sized := first.table.bufferSize
      rw [List.mapM_cons]
      cases written : rank.writeHeader reportName profName with
      | error reason => simp [bind, Except.bind]
      | ok next =>
          have same : next.table.bufferSize = size := by
            rw [Rank.writeHeader] at written
            split at written
            · simp at written
            · obtain rfl := Except.ok.inj written
              exact sized
          have thrown : next.send (headerOf reportName profName) =
              .error (.table .outOfBounds) := by
            rw [Rank.send, ProfileTable.nameFill, if_pos (by omega)]
          cases others : rest.mapM (Rank.writeHeader reportName profName) with
          | error reason => simp [bind, Except.bind]
          | ok ranks =>
              cases fuel with
              | zero => simp [iterate, bind, Except.bind, pure, Except.pure]
              | succ fuel =>
                  rw [headerOf] at thrown
                  simp [iterate, iteration, sendNames, thrown, bind, Except.bind, pure, Except.pure]

/-- A block without room behind its only name is read as a header. -/
def Overruns (size : Nat) (reportName profName : Name) (loop : NameLoop) : Prop :=
  ∃ entry ∈ Read.tagged false (loop.reads size reportName profName),
    entry.1 = false ∧ entry.2.Overruns size

/-- Nothing of what the controller reads wrongly makes a difference. -/
structure Harmless (size : Nat) (reportName profName : Name) (loop : NameLoop) : Prop where
  headers : ∀ entry ∈ Read.tagged false (loop.reads size reportName profName),
    ∀ name ∈ Read.headers reportName profName entry, ∃ all ∈ loop.names, name ∈ all
  skipped : ∀ entry ∈ Read.tagged false (loop.reads size reportName profName),
    ∀ name ∈ Read.skipped reportName profName entry,
      ∃ other ∈ Read.tagged false (loop.reads size reportName profName),
        name ∈ Read.kept reportName profName other ∨ name ∈ Read.headers reportName profName other

theorem mem_tagged {started : Bool} {reads : List Read} {read : Read} :
    read ∈ reads ↔ ∃ entry ∈ Read.tagged started reads, entry.2 = read := by
  induction reads generalizing started with
  | nil => simp [Read.tagged]
  | cons first rest ih =>
      rw [Read.tagged, List.exists_mem_cons_iff, List.mem_cons, ← ih, eq_comm]

/-- The controller ends with all names and no other if and only if what it reads
wrongly makes no difference. -/
theorem Begins.complete_iff (begins : loop.Begins size reportName profName registered)
    (nonempty : loop.ranks ≠ []) {after : Finset Name}
    (absorbed : absorbAll size reportName profName ∅ (loop.reads size reportName profName) =
      some after) :
    after = registered.flatten.toFinset ↔ loop.Harmless size reportName profName := by
  have collected := fun name =>
    @Read.mem_absorbAll size reportName profName _ ∅ after name begins.nonempty_block absorbed
  simp only [ne_eq, not_true_eq_false, decide_false, Finset.notMem_empty, false_or] at collected
  have known : ∀ name, (∃ all ∈ loop.names, name ∈ all) ↔
      ∃ entry ∈ Read.tagged false (loop.reads size reportName profName),
        name ∈ Read.kept reportName profName entry ∨ name ∈ Read.skipped reportName profName entry := by
    intro name
    rw [← begins.mem_blocks nonempty]
    constructor
    · rintro ⟨read, member, inside⟩
      obtain ⟨entry, here, rfl⟩ := mem_tagged.mp member
      exact ⟨entry, here, Read.mem_block.mp inside⟩
    · rintro ⟨entry, here, inside⟩
      exact ⟨entry.2, mem_tagged.mpr ⟨entry, here, rfl⟩, Read.mem_block.mpr inside⟩
  have target : ∀ name, name ∈ registered.flatten.toFinset ↔ ∃ all ∈ loop.names, name ∈ all := by
    intro name
    rw [begins.mem_names, List.mem_toFinset, List.mem_flatten]
  constructor
  · rintro rfl
    constructor
    · intro entry here name inside
      exact (target name).mp ((collected name).mpr ⟨entry, here, .inr inside⟩)
    · intro entry here name inside
      exact (collected name).mp ((target name).mpr ((known name).mpr ⟨entry, here, .inr inside⟩))
  · intro harmless
    ext name
    rw [collected, target]
    constructor
    · rintro ⟨entry, here, inside | header⟩
      · exact (known name).mpr ⟨entry, here, .inl inside⟩
      · exact harmless.headers entry here name header
    · intro sent
      obtain ⟨entry, here, inside | missed⟩ := (known name).mp sent
      · exact ⟨entry, here, .inl inside⟩
      · exact harmless.skipped entry here name missed

theorem exchange_eq {other : Nat} (ended : exchange fuel reportName profName loop ≠ .ok none)
    (endedToo : exchange other reportName profName loop ≠ .ok none) :
    exchange fuel reportName profName loop = exchange other reportName profName loop := by
  rw [exchange] at ended endedToo ⊢
  rw [exchange]
  cases written : loop.ranks.mapM (Rank.writeHeader reportName profName) with
  | error reason => rfl
  | ok ranks =>
      simp only [written, bind, Except.bind] at ended endedToo ⊢
      exact iterate_eq ended endedToo

/-- What the loops end with, if they do. -/
theorem Begins.exchange_iff (begins : loop.Begins size reportName profName registered)
    (nonempty : loop.ranks ≠ []) (isAllSent isAllReceived : Bool) (property : Finset Name → Prop) :
    (∃ fuel final, exchange fuel reportName profName loop =
        .ok (some (isAllSent, isAllReceived, final)) ∧ property final.nameSet) ↔
      headerOf reportName profName < size ∧ isAllReceived = true ∧
        isAllSent = decide (loop.Aligned size reportName profName) ∧
        ∃ after, absorbAll size reportName profName ∅ (loop.reads size reportName profName) =
          some after ∧ property after := by
  constructor
  · rintro ⟨fuel, final, ended, held⟩
    have inside : headerOf reportName profName < size := by
      by_contra full
      exact begins.exchange_full nonempty (Nat.not_lt.mp full) _ ended
    have spec := begins.exchange_spec nonempty inside
    cases absorbed : absorbAll size reportName profName ∅ (loop.reads size reportName profName) with
    | none =>
        simp only [absorbed] at spec
        have same := exchange_eq (by rw [ended]; simp) (by rw [spec]; simp)
        rw [ended, spec] at same
        simp at same
    | some after =>
        simp only [absorbed] at spec
        obtain ⟨other, done, collected⟩ := spec
        have same := exchange_eq (by rw [ended]; simp) (by rw [done]; simp)
        rw [ended, done] at same
        simp only [Except.ok.injEq, Option.some.injEq, Prod.mk.injEq] at same
        obtain ⟨sent, received, rfl⟩ := same
        exact ⟨inside, received, sent, after, rfl, collected ▸ held⟩
  · rintro ⟨inside, rfl, rfl, after, absorbed, held⟩
    have spec := begins.exchange_spec nonempty inside
    simp only [absorbed] at spec
    obtain ⟨final, done, collected⟩ := spec
    exact ⟨_, final, done, collected.symm ▸ held⟩

theorem Begins.of_new {crc32U64 : Nat → Nat → Nat} {ranks : List Rank}
    (created : List.Forall₂ (fun all rank =>
      ∃ buffer, Rank.new crc32U64 size all buffer = .ok rank) registered ranks)
    (sendable : ∀ all ∈ registered, ∀ name ∈ all, ProfileTable.Sendable size name)
    (freeReport : (0 : UInt8) ∉ reportName) (freeProf : (0 : UInt8) ∉ profName) :
    Begins size reportName profName registered ⟨ranks, ∅⟩ :=
  ⟨created.imp fun _ _ ⟨_, made⟩ => Rank.created_of_new made, sendable, freeReport, freeProf, rfl⟩

/-- The loops of both sides end in the same iteration if and only if the header
leaves room, the controller does not read behind a buffer, and every rank starts
a new pass behind the last iteration of the controller. -/
theorem exchange_together_iff (crc32U64 : Nat → Nat → Nat) {ranks : List Rank}
    (created : List.Forall₂ (fun all rank =>
      ∃ buffer, Rank.new crc32U64 size all buffer = .ok rank) registered ranks)
    (nonempty : ranks ≠ [])
    (sendable : ∀ all ∈ registered, ∀ name ∈ all, ProfileTable.Sendable size name)
    (freeReport : (0 : UInt8) ∉ reportName) (freeProf : (0 : UInt8) ∉ profName) :
    (∃ fuel final, exchange fuel reportName profName ⟨ranks, ∅⟩ = .ok (some (true, true, final))) ↔
      headerOf reportName profName < size ∧
        ¬ Overruns size reportName profName ⟨ranks, ∅⟩ ∧
        Aligned size reportName profName ⟨ranks, ∅⟩ := by
  have begins := Begins.of_new created sendable freeReport freeProf
  have outcome := begins.exchange_iff nonempty true true fun _ => True
  have safe := @Read.absorbAll_none size reportName profName _ ∅ begins.nonempty_block
  simp only [ne_eq, not_true_eq_false, decide_false] at safe
  simp only [and_true, true_and] at outcome
  rw [outcome, Overruns, ← safe, ← Option.ne_none_iff_exists', ne_eq, and_comm (a := ¬ _)]
  simp only [eq_comm (a := true), decide_eq_true_eq]

/-- The names of a rank with a name of 150 characters for each of the given ones,
which are their hashes as well. -/
def longNames (bytes : List UInt8) : List Name := bytes.map (List.replicate 150)

def longRank (bytes : List UInt8) : Rank where
  table :=
    { bufferSize := 224
      keyMap := bytes.map fun byte => (List.replicate 150 byte, byte.toNat)
      keySet := (bytes.map (·.toNat)).reverse
      keyMapLast := bytes.map fun byte => (List.replicate 150 byte, byte.toNat) }
  buffer := fun _ => 0
  sampler := ⟨⟨224, [], [], []⟩, false, [], []⟩

/-- The checksum of a word that is its lowest byte. -/
def lowByte (_ word : Nat) : Nat := word % 256

theorem longRank_new {bytes : List UInt8}
    (registers : ProfileTable.register lowByte 224 (longNames bytes) = .ok (longRank bytes).table) :
    ∃ buffer, Rank.new lowByte 224 (longNames bytes) buffer = .ok (longRank bytes) := by
  refine ⟨fun _ => 0, ?_⟩
  rw [Rank.new, registers]
  rfl

theorem exchange_together_same :
    (∃ fuel final, exchange fuel [114] [112] ⟨[longRank [97, 98], longRank [99, 100]], ∅⟩ =
      .ok (some (true, true, final))) ↔
      headerOf [114] [112] < 224 ∧
        ¬ Overruns 224 [114] [112] ⟨[longRank [97, 98], longRank [99, 100]], ∅⟩ ∧
        Aligned 224 [114] [112] ⟨[longRank [97, 98], longRank [99, 100]], ∅⟩ :=
  @exchange_together_iff 224 [114] [112] [longNames [97, 98], longNames [99, 100]] lowByte _
    (.cons (longRank_new (by decide +kernel)) (.cons (longRank_new (by decide +kernel)) .nil))
    (by simp) (by decide +kernel) (by decide) (by decide)

/-- Two ranks that need two and three blocks: in the third iteration the controller
ends, while the first rank has started again. -/
theorem exchange_uneven : ¬ ∃ fuel final,
    exchange fuel [114] [112] ⟨[longRank [97, 98], longRank [99, 100, 101]], ∅⟩ =
      .ok (some (true, true, final)) := by
  have begins : Begins 224 [114] [112] [longNames [97, 98], longNames [99, 100, 101]]
      ⟨[longRank [97, 98], longRank [99, 100, 101]], ∅⟩ :=
    @Begins.of_new 224 _ _ _ lowByte _
      (.cons (longRank_new (by decide +kernel)) (.cons (longRank_new (by decide +kernel)) .nil))
      (by decide +kernel) (by decide) (by decide)
  rintro ⟨fuel, final, ended⟩
  obtain ⟨_, _, aligned, _⟩ := (begins.exchange_iff (by simp) true true fun _ => True).mp
    ⟨fuel, final, ended, trivial⟩
  rw [eq_comm, decide_eq_true_eq] at aligned
  exact absurd aligned (by decide +kernel)

/-- The controller's loop ends with the names of all ranks and no other if and only
if the header leaves room, the controller does not read behind a buffer, and
nothing that it reads wrongly makes a difference. -/
theorem exchange_complete_iff (crc32U64 : Nat → Nat → Nat) {ranks : List Rank}
    (created : List.Forall₂ (fun all rank =>
      ∃ buffer, Rank.new crc32U64 size all buffer = .ok rank) registered ranks)
    (nonempty : ranks ≠ [])
    (sendable : ∀ all ∈ registered, ∀ name ∈ all, ProfileTable.Sendable size name)
    (freeReport : (0 : UInt8) ∉ reportName) (freeProf : (0 : UInt8) ∉ profName) :
    (∃ fuel isAllSent final, exchange fuel reportName profName ⟨ranks, ∅⟩ =
        .ok (some (isAllSent, true, final)) ∧ final.nameSet = registered.flatten.toFinset) ↔
      headerOf reportName profName < size ∧
        ¬ Overruns size reportName profName ⟨ranks, ∅⟩ ∧
        Harmless size reportName profName ⟨ranks, ∅⟩ := by
  have begins := Begins.of_new created sendable freeReport freeProf
  have outcome := fun isAllSent => begins.exchange_iff nonempty isAllSent true
    (· = registered.flatten.toFinset)
  have safe := @Read.absorbAll_none size reportName profName _ ∅ begins.nonempty_block
  simp only [ne_eq, not_true_eq_false, decide_false] at safe
  rw [exists_comm]
  simp only [outcome, true_and]
  rw [Overruns, ← safe, ← ne_eq, Option.ne_none_iff_exists']
  constructor
  · rintro ⟨_, inside, _, after, absorbed, same⟩
    exact ⟨inside, ⟨after, absorbed⟩, (begins.complete_iff nonempty absorbed).mp same⟩
  · rintro ⟨inside, ⟨after, absorbed⟩, harmless⟩
    exact ⟨_, inside, rfl, after, absorbed, (begins.complete_iff nonempty absorbed).mpr harmless⟩

theorem exchange_complete_one :
    (∃ fuel isAllSent final, exchange fuel [114] [112] ⟨[longRank [97, 98]], ∅⟩ =
        .ok (some (isAllSent, true, final)) ∧
        final.nameSet = [longNames [97, 98]].flatten.toFinset) ↔
      headerOf [114] [112] < 224 ∧ ¬ Overruns 224 [114] [112] ⟨[longRank [97, 98]], ∅⟩ ∧
        Harmless 224 [114] [112] ⟨[longRank [97, 98]], ∅⟩ :=
  @exchange_complete_iff 224 [114] [112] [longNames [97, 98]] lowByte _
    (.cons (longRank_new (by decide +kernel)) .nil) (by simp) (by decide +kernel) (by decide)
    (by decide)

/-- Two ranks with a name each: the header of the second is taken for names. -/
theorem exchange_header : ¬ ∃ fuel isAllSent final,
    exchange fuel [114] [112] ⟨[longRank [97], longRank [98]], ∅⟩ =
        .ok (some (isAllSent, true, final)) ∧
      final.nameSet = [longNames [97], longNames [98]].flatten.toFinset := by
  have begins : Begins 224 [114] [112] [longNames [97], longNames [98]]
      ⟨[longRank [97], longRank [98]], ∅⟩ :=
    @Begins.of_new 224 _ _ _ lowByte _
      (.cons (longRank_new (by decide +kernel)) (.cons (longRank_new (by decide +kernel)) .nil))
      (by decide +kernel) (by decide) (by decide)
  rintro ⟨fuel, isAllSent, final, ended, same⟩
  obtain ⟨_, _, _, after, absorbed, whole⟩ := (begins.exchange_iff (by simp) isAllSent true
    (· = [longNames [97], longNames [98]].flatten.toFinset)).mp ⟨fuel, final, ended, same⟩
  have harmless := (begins.complete_iff (by simp) absorbed).mp whole
  have unknown := harmless.headers (true, ⟨true, longNames [98]⟩) (by decide +kernel) [114]
    (by decide)
  revert unknown
  decide +kernel

end NameLoop

end Geopm
