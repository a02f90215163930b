import Geopm.ProfileTable

namespace Geopm

/-! The names of one rank: `name_fill` on its table and `name_set` on that of the
controller, in turn and over the same buffer. -/

structure Exchange where
  producer : ProfileTable
  consumer : ProfileTable
  buffer : Buffer
  collected : Finset Name

namespace Exchange

open ProfileTable (room)

/-- One call of each, with what they return. -/
def round (exchange : Exchange) (headerOffset : Nat) :
    Except TableError (Bool × Bool × Exchange) :=
  match exchange.producer.nameFill exchange.buffer headerOffset with
  | .error reason => .error reason
  | .ok (filled, producer, buffer) =>
      match exchange.consumer.nameSet buffer headerOffset exchange.collected with
      | .error reason => .error reason
      | .ok (complete, collected) =>
          .ok (filled, complete, { exchange with producer, buffer, collected })

/-- Rounds until `name_fill` returns true, with what `name_set` has returned in
each of them. Only the first has a header. -/
def run : Nat → Exchange → Nat → Except TableError (Option (List Bool × Exchange))
  | 0, _, _ => .ok none
  | fuel + 1, exchange, headerOffset =>
      match exchange.round headerOffset with
      | .error reason => .error reason
      | .ok (filled, complete, next) =>
          if filled then .ok (some ([complete], next))
          else (run fuel next 0).map fun result =>
            result.map fun (flags, final) => (complete :: flags, final)

/-- Both tables over a buffer of the given size. -/
structure Sized (exchange : Exchange) (size : Nat) : Prop where
  producer : exchange.producer.bufferSize = size
  consumer : exchange.consumer.bufferSize = size
  sendable : ∀ name ∈ exchange.producer.remaining, ProfileTable.Sendable size name

variable {exchange : Exchange} {size headerOffset : Nat}

theorem takeWhile_sendable {names : List Name}
    (sendable : ∀ name ∈ names, ProfileTable.Sendable size name) :
    names.takeWhile (· ≠ []) = names := by
  rw [List.takeWhile_eq_self_iff]
  intro name member
  simpa using (sendable name member).nonempty

/-- A round passes on the names that fit, and both calls agree on whether it
was the last. -/
theorem round_spec (sized : exchange.Sized size) (inside : headerOffset < size) :
    ∃ next, exchange.round headerOffset = .ok
        (decide (Packing.Finishes room (size - headerOffset - 1) exchange.producer.remaining),
          decide (Packing.Finishes room (size - headerOffset - 1) exchange.producer.remaining),
          next) ∧
      next.producer.bufferSize = size ∧ next.consumer.bufferSize = size ∧
      next.producer.remaining = Packing.advance room (size - headerOffset - 1)
        exchange.producer.names exchange.producer.remaining ∧
      next.collected = (Packing.fitting room (size - headerOffset - 1)
        exchange.producer.remaining).toFinset ∪ exchange.collected := by
  obtain ⟨producer, consumer, sendable⟩ := sized
  obtain ⟨next, after, filled, effect⟩ := @ProfileTable.nameFill_spec headerOffset
    exchange.buffer exchange.producer (producer.symm ▸ inside) fun name member =>
      (sendable name member).free
  have fitted : ∀ name ∈ Packing.fitting room (size - headerOffset - 1) exchange.producer.remaining,
      ProfileTable.Sendable size name :=
    fun name member => sendable name (Packing.fitting_subset member)
  have written := effect.written
  have marked := effect.marked
  have remaining := effect.remaining
  rw [producer] at filled written marked remaining
  have set := @ProfileTable.nameSet_spec size headerOffset after exchange.consumer _ _
    exchange.collected consumer inside (fun name member => (fitted name member).free) written
  rw [marked, takeWhile_sendable fitted] at set
  refine ⟨{ exchange with producer := next, buffer := after, collected := _ }, ?_,
    effect.bufferSize.trans producer, consumer, remaining, rfl⟩
  rw [round, filled]
  simp only [set]
  congr 3
  split <;> simp [*]

/-- The rounds of one pass, one for each block of names. -/
theorem run_blocks (sized : exchange.Sized size) (inside : headerOffset < size) (roomy : 1 < size)
    {count : Nat} (blocks : (Packing.blocksFrom room (size - headerOffset - 1) (size - 1)
      exchange.producer.remaining).length = count + 1) :
    ∃ final, run (count + 1) exchange headerOffset =
        .ok (some (List.replicate count false ++ [true], final)) ∧
      final.collected = (Packing.blocksFrom room (size - headerOffset - 1) (size - 1)
        exchange.producer.remaining).flatten.toFinset ∪ exchange.collected := by
  induction count generalizing exchange headerOffset with
  | zero =>
      obtain ⟨next, done, _, _, _, collected⟩ := round_spec sized inside
      rw [Packing.blocksFrom] at blocks ⊢
      by_cases finishes : Packing.Finishes room (size - headerOffset - 1) exchange.producer.remaining
      · refine ⟨next, ?_, by simp [finishes, collected]⟩
        rw [run, done, decide_eq_true finishes]
        rfl
      · simp [finishes, Packing.blocks, Packing.blocksWithin] at blocks
  | succ count ih =>
      obtain ⟨next, done, producer, consumer, remaining, collected⟩ := round_spec sized inside
      rw [Packing.blocksFrom] at blocks
      by_cases finishes : Packing.Finishes room (size - headerOffset - 1) exchange.producer.remaining
      · simp [finishes] at blocks
      · rw [Packing.advance, if_neg finishes] at remaining
        have sendable : ∀ name ∈ next.producer.remaining, ProfileTable.Sendable size name := by
          intro name member
          rw [remaining] at member
          exact sized.sendable name (Packing.excess_subset member)
        have fits : ∀ name ∈ next.producer.remaining, room name ≤ size - 1 := by
          intro name member
          have short := (sendable name member).short
          simp only [room]
          omega
        have later : Packing.blocksFrom room (size - 0 - 1) (size - 1) next.producer.remaining =
            Packing.blocks room (size - 1)
              (Packing.excess room (size - headerOffset - 1) exchange.producer.remaining) := by
          rw [remaining] at fits
          rw [remaining, Nat.sub_zero, Packing.blocks_eq (by omega) fits, Packing.blocksFrom]
        rw [if_neg finishes, List.length_cons, ← later] at blocks
        obtain ⟨final, rest, others⟩ :=
          @ih next 0 ⟨producer, consumer, sendable⟩ (by omega) (by omega)
        refine ⟨final, ?_, ?_⟩
        · rw [run, done, decide_eq_false finishes]
          simp only [rest]
          rfl
        · rw [others, collected, later, Packing.blocksFrom, if_neg finishes, List.flatten_cons,
            List.toFinset_append, ← Finset.union_assoc, Finset.union_comm (List.toFinset _)]

/-- The exchange of all names that are registered on a table ends, in the same
round for both sides, with exactly these names. -/
theorem run_registered (crc32U64 : Nat → Nat → Nat) {names : List Name}
    {producer consumer : ProfileTable} (buffer : Buffer)
    (registered : ProfileTable.register crc32U64 size names = .ok producer)
    (created : ProfileTable.new size = .ok consumer)
    (sendable : ∀ name ∈ names, ProfileTable.Sendable size name) (inside : headerOffset < size) :
    ∃ count final, run (count + 1) ⟨producer, consumer, buffer, ∅⟩ headerOffset =
        .ok (some (List.replicate count false ++ [true], final)) ∧
      final.collected = names.toFinset := by
  have table := ProfileTable.registered_of_register registered
  have other := @ProfileTable.registered_of_register crc32U64 size [] consumer (by
    rw [ProfileTable.register, created]
    rfl)
  have remaining : producer.remaining = producer.names := congrArg (List.map Prod.fst) table.first
  have roomy := table.large
  simp only [ProfileTable.sizeofTable, ProfileTable.sizeofMessage] at roomy
  have all : ∀ name ∈ producer.remaining, ProfileTable.Sendable size name := fun name member =>
    sendable name ((table.names name).mp (remaining ▸ member))
  have fits : ∀ name ∈ producer.remaining, room name ≤ size - 1 := by
    intro name member
    have short := (all name member).short
    simp only [room]
    omega
  obtain ⟨count, blocks⟩ : ∃ count, (Packing.blocksFrom room (size - headerOffset - 1) (size - 1)
      producer.remaining).length = count + 1 := ⟨_, List.length_cons⟩
  obtain ⟨final, done, collected⟩ := @run_blocks ⟨producer, consumer, buffer, ∅⟩ size headerOffset
    ⟨table.bufferSize, other.bufferSize, all⟩ inside (by omega) _ blocks
  refine ⟨count, final, done, ?_⟩
  rw [collected, Packing.flatten_blocksFrom (by omega) fits, remaining, Finset.union_empty]
  ext name
  simp [table.names]

theorem run_registered_two : ∃ count final,
    run (count + 1) ⟨⟨224, [([97], 98), ([98], 99)], [99, 98], [([97], 98), ([98], 99)]⟩,
        ⟨224, [], [], []⟩, fun _ => 7, ∅⟩ 30 =
      .ok (some (List.replicate count false ++ [true], final)) ∧
    final.collected = ([[97], [98]] : List Name).toFinset :=
  @run_registered 224 30 (fun result word => result + word + 1) [[97], [98]] _ _ (fun _ => 7)
    rfl rfl (by decide) (by decide)

end Exchange

end Geopm
