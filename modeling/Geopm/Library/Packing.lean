import Mathlib.Data.List.Basic
import Mathlib.Data.Nat.ModEq

namespace Packing

/-! Items that are sent in blocks of limited room, in each round as many as fit.

A sender is finished when no item is over and room is left in the block; its
next round starts again with the first item. The first block of all may have
another room than the later ones.
-/

section

variable {Item : Type} (cost : Item → Nat)

/-- The items from the front that fit into the room. -/
def fitting : Nat → List Item → List Item
  | _, [] => []
  | room, item :: rest => if cost item ≤ room then item :: fitting (room - cost item) rest else []

/-- The room that is left. -/
def spare : Nat → List Item → Nat
  | room, [] => room
  | room, item :: rest => if cost item ≤ room then spare (room - cost item) rest else room

/-- The items that do not fit. -/
def excess : Nat → List Item → List Item
  | _, [] => []
  | room, item :: rest => if cost item ≤ room then excess (room - cost item) rest else item :: rest

def Finishes (room : Nat) (items : List Item) : Prop :=
  excess cost room items = [] ∧ spare cost room items ≠ 0

instance (room : Nat) (items : List Item) : Decidable (Finishes cost room items) :=
  inferInstanceAs (Decidable (_ ∧ _))

/-- What a sender has in front of it after a block. -/
def advance (room : Nat) (items remaining : List Item) : List Item :=
  if Finishes cost room remaining then items else excess cost room remaining

/-- The blocks up to the one that finishes. -/
def blocksWithin (room : Nat) : Nat → List Item → List (List Item)
  | 0, _ => []
  | fuel + 1, items =>
      fitting cost room items ::
        if Finishes cost room items then [] else blocksWithin room fuel (excess cost room items)

/-- The blocks that the items need. Each block takes an item, and one more is
needed where the last item leaves no room. -/
def blocks (room : Nat) (items : List Item) : List (List Item) :=
  blocksWithin cost room (items.length + 1) items

/-- The blocks that they need where the first block has another room. -/
def blocksFrom (first room : Nat) (items : List Item) : List (List Item) :=
  fitting cost first items ::
    if Finishes cost first items then [] else blocks cost room (excess cost first items)

/-- The room of the block in each round. -/
def roomAt (first room : Nat) : Nat → Nat
  | 0 => first
  | _ + 1 => room

/-- What the sender has in front of it in each round. -/
def remainingAt (first room : Nat) (items : List Item) : Nat → List Item
  | 0 => items
  | round + 1 =>
      advance cost (roomAt first room round) items (remainingAt first room items round)

/-- The block of each round. -/
def blockAt (first room : Nat) (items : List Item) (round : Nat) : List Item :=
  fitting cost (roomAt first room round) (remainingAt cost first room items round)

/-- The rounds in which the sender is finished. -/
def FinishesAt (first room : Nat) (items : List Item) (round : Nat) : Prop :=
  Finishes cost (roomAt first room round) (remainingAt cost first room items round)

instance (first room : Nat) (items : List Item) (round : Nat) :
    Decidable (FinishesAt cost first room items round) := inferInstanceAs (Decidable (_ ∧ _))

variable {cost} {room first : Nat} {items : List Item}

theorem fitting_append_excess : fitting cost room items ++ excess cost room items = items := by
  induction items generalizing room with
  | nil => rfl
  | cons item rest ih =>
      simp only [fitting, excess]
      split
      · rw [List.cons_append, ih]
      · rfl

theorem spare_add : spare cost room items + ((fitting cost room items).map cost).sum = room := by
  induction items generalizing room with
  | nil => rfl
  | cons item rest ih =>
      simp only [fitting, spare]
      split
      · rw [List.map_cons, List.sum_cons, ← Nat.add_assoc, Nat.add_right_comm, ih]
        omega
      · rfl

theorem fitting_subset {item : Item} (member : item ∈ fitting cost room items) : item ∈ items := by
  rw [← @fitting_append_excess Item cost room items]
  exact List.mem_append_left _ member

theorem excess_subset {item : Item} (member : item ∈ excess cost room items) : item ∈ items := by
  rw [← @fitting_append_excess Item cost room items]
  exact List.mem_append_right _ member

/-- Where each item fits into an empty block, an unfinished sender moves on. -/
theorem excess_length (fits : ∀ item ∈ items, cost item ≤ room) (nonempty : items ≠ []) :
    (excess cost room items).length < items.length := by
  cases items with
  | nil => exact absurd rfl nonempty
  | cons item rest =>
      have shorter : (excess cost (room - cost item) rest).length ≤ rest.length := by
        have parts := congrArg List.length
          (@fitting_append_excess Item cost (room - cost item) rest)
        rw [List.length_append] at parts
        omega
      rw [excess, if_pos (fits item (by simp)), List.length_cons]
      omega

theorem finishes_nil (roomy : 0 < room) : Finishes cost room [] :=
  ⟨rfl, Nat.pos_iff_ne_zero.mp roomy⟩

/-- More rounds than there are items are enough. -/
theorem blocksWithin_eq (roomy : 0 < room) {fuel other : Nat}
    (fits : ∀ item ∈ items, cost item ≤ room) (enough : items.length < fuel)
    (enoughToo : items.length < other) :
    blocksWithin cost room fuel items = blocksWithin cost room other items := by
  induction fuel generalizing items other with
  | zero => omega
  | succ fuel ih =>
      cases other with
      | zero => omega
      | succ other =>
          simp only [blocksWithin]
          split
          · rfl
          · rename_i unfinished
            have nonempty : items ≠ [] := by
              rintro rfl
              exact unfinished (finishes_nil roomy)
            have shorter := excess_length fits nonempty
            rw [@ih _ other (fun item member => fits item (excess_subset member)) (by omega) (by omega)]

theorem blocks_eq (roomy : 0 < room) (fits : ∀ item ∈ items, cost item ≤ room) :
    blocks cost room items = fitting cost room items ::
      if Finishes cost room items then [] else blocks cost room (excess cost room items) := by
  rw [blocks, blocksWithin]
  split
  · rfl
  · rename_i unfinished
    have nonempty : items ≠ [] := by
      rintro rfl
      exact unfinished (finishes_nil roomy)
    have shorter := excess_length fits nonempty
    rw [blocks, blocksWithin_eq roomy (fun item member => fits item (excess_subset member))
      shorter (Nat.lt_succ_self _)]

theorem flatten_of_finishes (finishes : Finishes cost room items) :
    fitting cost room items = items := by
  have parts := @fitting_append_excess Item cost room items
  rwa [finishes.1, List.append_nil] at parts

/-- Nothing is left out and nothing is sent twice. -/
theorem flatten_blocksWithin (roomy : 0 < room) {fuel : Nat}
    (fits : ∀ item ∈ items, cost item ≤ room) (enough : items.length < fuel) :
    (blocksWithin cost room fuel items).flatten = items := by
  induction fuel generalizing items with
  | zero => omega
  | succ fuel ih =>
      rw [blocksWithin, List.flatten_cons]
      split
      · rename_i finishes
        rw [List.flatten_nil, List.append_nil, flatten_of_finishes finishes]
      · rename_i unfinished
        have nonempty : items ≠ [] := by
          rintro rfl
          exact unfinished (finishes_nil roomy)
        have shorter := excess_length fits nonempty
        rw [ih (fun item member => fits item (excess_subset member)) (by omega), fitting_append_excess]

theorem flatten_blocksFrom (roomy : 0 < room) (fits : ∀ item ∈ items, cost item ≤ room) :
    (blocksFrom cost first room items).flatten = items := by
  rw [blocksFrom, List.flatten_cons]
  split
  · rename_i finishes
    rw [List.flatten_nil, List.append_nil, flatten_of_finishes finishes]
  · rw [blocks, flatten_blocksWithin roomy (fun item member => fits item (excess_subset member))
      (Nat.lt_succ_self _), fitting_append_excess]

/-- The blocks from a round on, up to the next that finishes. -/
def upcoming (cost : Item → Nat) (first room : Nat) (items : List Item) : Nat → List (List Item)
  | 0 => blocksFrom cost first room items
  | round + 1 => blocks cost room (remainingAt cost first room items (round + 1))

theorem remainingAt_subset {round : Nat} {item : Item}
    (member : item ∈ remainingAt cost first room items round) : item ∈ items := by
  induction round with
  | zero => exact member
  | succ round ih =>
      rw [remainingAt, advance] at member
      split at member
      · exact member
      · exact ih (excess_subset member)

theorem upcoming_eq (roomy : 0 < room) (fits : ∀ item ∈ items, cost item ≤ room) (round : Nat) :
    upcoming cost first room items round = blockAt cost first room items round ::
      if FinishesAt cost first room items round then []
      else upcoming cost first room items (round + 1) := by
  have unfinished : ∀ {round : Nat}, ¬ FinishesAt cost first room items round →
      remainingAt cost first room items (round + 1) =
        excess cost (roomAt first room round) (remainingAt cost first room items round) :=
    fun unfinished => if_neg unfinished
  cases round with
  | zero =>
      change blocksFrom cost first room items = _
      rw [blocksFrom]
      congr 1
      by_cases finishes : FinishesAt cost first room items 0
      · rw [if_pos finishes]
        exact if_pos finishes
      · rw [if_neg finishes, upcoming, unfinished finishes]
        exact if_neg finishes
  | succ round =>
      rw [upcoming, blocks_eq roomy fun item member => fits item (remainingAt_subset member)]
      congr 1
      by_cases finishes : FinishesAt cost first room items (round + 1)
      · rw [if_pos finishes]
        exact if_pos finishes
      · rw [if_neg finishes, upcoming, unfinished finishes]
        exact if_neg finishes

/-- In its first pass the sender sends its blocks in order. -/
theorem drop_blocksFrom (roomy : 0 < room) (fits : ∀ item ∈ items, cost item ≤ room) {round : Nat}
    (inside : round < (blocksFrom cost first room items).length) :
    (blocksFrom cost first room items).drop round = upcoming cost first room items round := by
  induction round with
  | zero => rfl
  | succ round ih =>
      have before := ih (by omega)
      rw [upcoming_eq roomy fits] at before
      have rest : (blocksFrom cost first room items).drop (round + 1) =
          ((blocksFrom cost first room items).drop round).tail := List.tail_drop.symm
      rw [rest, before, List.tail_cons]
      split
      · rename_i finishes
        have lengths := congrArg List.length before
        rw [if_pos finishes, List.length_drop, List.length_singleton] at lengths
        omega
      · rfl

theorem getElem_blocksFrom (roomy : 0 < room) (fits : ∀ item ∈ items, cost item ≤ room)
    {round : Nat} (inside : round < (blocksFrom cost first room items).length) :
    (blocksFrom cost first room items)[round] = blockAt cost first room items round := by
  have rest := drop_blocksFrom roomy fits inside
  rw [upcoming_eq roomy fits, List.drop_eq_getElem_cons inside] at rest
  exact (List.cons.inj rest).1

end

section

/-- The rounds before the next one that finishes, where the first pass and the
later ones take the given numbers of rounds. -/
def countdown (passFirst pass : Nat) : Nat → Nat
  | 0 => passFirst
  | round + 1 =>
      if countdown passFirst pass round = 1 then pass else countdown passFirst pass round - 1

variable {passFirst pass : Nat}

theorem countdown_counts (positive : 0 < passFirst) (again : 0 < pass) (round : Nat) :
    0 < countdown passFirst pass round ∧
      (countdown passFirst pass round + round = passFirst ∨
        passFirst ≤ round ∧ countdown passFirst pass round ≤ pass ∧
          pass ∣ countdown passFirst pass round + round - passFirst) := by
  induction round with
  | zero => exact ⟨positive, .inl rfl⟩
  | succ round ih =>
      obtain ⟨counting, counts⟩ := ih
      rw [countdown]
      split
      · rename_i last
        refine ⟨again, .inr ?_⟩
        rw [last] at counts
        rcases counts with now | ⟨later, _, divides⟩
        · refine ⟨by omega, le_refl _, ?_⟩
          rw [show pass + (round + 1) - passFirst = pass by omega]
        · refine ⟨by omega, le_refl _, ?_⟩
          rw [show pass + (round + 1) - passFirst = pass + (1 + round - passFirst) by omega]
          exact (Nat.dvd_add_right (Nat.dvd_refl pass)).mpr divides
      · refine ⟨by omega, ?_⟩
        rcases counts with now | ⟨later, bound, divides⟩
        · exact .inl (by omega)
        · refine .inr ⟨by omega, by omega, ?_⟩
          rwa [show countdown passFirst pass round - 1 + (round + 1) =
            countdown passFirst pass round + round by omega]

/-- A sender is finished at the end of its first pass and of each later one. -/
theorem countdown_eq_one (positive : 0 < passFirst) (again : 0 < pass) {round : Nat} :
    countdown passFirst pass round = 1 ↔
      passFirst ≤ round + 1 ∧ pass ∣ round + 1 - passFirst := by
  obtain ⟨counting, now | ⟨later, bound, divides⟩⟩ := countdown_counts positive again round
  · constructor
    · intro last
      exact ⟨by omega, by rw [show round + 1 - passFirst = 0 by omega]; exact Nat.dvd_zero pass⟩
    · rintro ⟨reached, _⟩
      omega
  · rw [show countdown passFirst pass round + round - passFirst =
      countdown passFirst pass round - 1 + (round + 1 - passFirst) by omega] at divides
    constructor
    · intro last
      rw [last, Nat.zero_add] at divides
      exact ⟨by omega, divides⟩
    · rintro ⟨_, other⟩
      have rest : pass ∣ countdown passFirst pass round - 1 :=
        (Nat.dvd_add_left other).mp divides
      have none := Nat.eq_zero_of_dvd_of_lt rest (by omega)
      omega

end

section

variable {Item : Type} {cost : Item → Nat} {first room : Nat} {items : List Item}

theorem length_upcoming (roomy : 0 < room) (fits : ∀ item ∈ items, cost item ≤ room) (round : Nat) :
    (upcoming cost first room items round).length =
      countdown (blocksFrom cost first room items).length (blocks cost room items).length round := by
  induction round with
  | zero => rfl
  | succ round ih =>
      rw [upcoming_eq roomy fits] at ih
      rw [countdown, ← ih]
      by_cases finishes : FinishesAt cost first room items round
      · have again : remainingAt cost first room items (round + 1) = items := if_pos finishes
        rw [if_pos finishes, upcoming, again]
        rfl
      · have more : 0 < (upcoming cost first room items (round + 1)).length := by
          rw [upcoming, blocks_eq roomy fun item member => fits item (remainingAt_subset member)]
          simp
        rw [if_neg finishes, List.length_cons, if_neg (by omega)]
        omega

theorem finishesAt_iff_length (roomy : 0 < room) (fits : ∀ item ∈ items, cost item ≤ room)
    (round : Nat) : FinishesAt cost first room items round ↔
      (upcoming cost first room items round).length = 1 := by
  rw [upcoming_eq roomy fits]
  by_cases finishes : FinishesAt cost first room items round
  · simp [finishes]
  · have more : upcoming cost first room items (round + 1) ≠ [] := by
      rw [upcoming, blocks_eq roomy fun item member => fits item (remainingAt_subset member)]
      simp
    simp [finishes, more]

/-- The rounds in which the sender is finished, from the lengths of its passes. -/
theorem finishesAt_iff (roomy : 0 < room) (fits : ∀ item ∈ items, cost item ≤ room) (round : Nat) :
    FinishesAt cost first room items round ↔
      (blocksFrom cost first room items).length ≤ round + 1 ∧
        (blocks cost room items).length ∣ round + 1 - (blocksFrom cost first room items).length := by
  rw [finishesAt_iff_length roomy fits, length_upcoming roomy fits, countdown_eq_one]
  · simp [blocksFrom]
  · simp [blocks, blocksWithin]

end

end Packing
