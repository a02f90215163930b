import Mathlib.Data.List.NodupEquivFin

/-! A mailbox that holds one message. What is taken from it comes in the order in which it was sent. -/

/-- A mailbox with all messages that were sent and all that were taken. A message that nobody takes is lost when the
next one is sent. -/
structure Mailbox (Message : Type*) where
  slot : Option Message
  sent : List Message
  taken : List Message
deriving Repr, DecidableEq

namespace Mailbox

variable {Message : Type*} {box : Mailbox Message} {message : Message}

def empty : Mailbox Message := ⟨none, [], []⟩

def send (message : Message) (box : Mailbox Message) : Mailbox Message := ⟨some message, box.sent ++ [message], box.taken⟩

def take (box : Mailbox Message) : Mailbox Message := ⟨none, box.sent, box.taken ++ box.slot.toList⟩

/-- The message is thrown away. -/
def clear (box : Mailbox Message) : Mailbox Message := { box with slot := none }

/-- What was taken, and then what is there, has been sent in this order. -/
def InOrder (box : Mailbox Message) : Prop := (box.taken ++ box.slot.toList).Sublist box.sent

theorem inOrder_empty : (empty : Mailbox Message).InOrder := List.nil_sublist []

theorem InOrder.taken (inOrder : box.InOrder) : box.taken.Sublist box.sent :=
  (List.sublist_append_left _ _).trans inOrder

theorem InOrder.send (inOrder : box.InOrder) : (box.send message).InOrder :=
  inOrder.taken.append_right [message]

theorem InOrder.take (inOrder : box.InOrder) : box.take.InOrder := by
  rw [InOrder, Mailbox.take, Option.toList_none, List.append_nil]
  exact inOrder

theorem InOrder.clear (inOrder : box.InOrder) : box.clear.InOrder := by
  rw [InOrder, Mailbox.clear, Option.toList_none, List.append_nil]
  exact inOrder.taken

end Mailbox

/-- The places of the items in a list from which they come, which are in the same order. -/
def Picks {Item : Type*} (pick : Nat → Nat) (items source : List Item) : Prop :=
  StrictMono pick ∧ ∀ (index : Nat) item, items[index]? = some item → source[pick index]? = some item

theorem exists_picks {Item : Type*} {items source : List Item} (inOrder : items.Sublist source) :
    ∃ pick, Picks pick items source := by
  obtain ⟨pick, same⟩ := List.sublist_iff_exists_orderEmbedding_getElem?_eq.mp inOrder
  exact ⟨pick, pick.strictMono, fun index item found => (same index).symm.trans found⟩

/-- What is made of the items of a list, at its place. -/
theorem made_of_forall₂ {Item Made : Type*} {relation : Made → Item → Prop} {made : List Made} {items : List Item}
    {index : Nat} {value : Made} (related : List.Forall₂ relation made items) (found : made[index]? = some value) :
    ∃ item, items[index]? = some item ∧ relation value item := by
  obtain ⟨inside, rfl⟩ := List.getElem?_eq_some_iff.mp found
  have there := related.length_eq ▸ inside
  exact ⟨items.get ⟨index, there⟩, List.getElem?_eq_getElem there, related.get inside there⟩
