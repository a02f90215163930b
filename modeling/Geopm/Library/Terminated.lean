import Mathlib.Algebra.GroupWithZero.Nat
import Mathlib.Data.List.Basic

namespace Terminated

/-! Items written one after the other, each with a terminator behind it, up to
an empty item or the end of the room. -/

section

variable {Value : Type} (stop : Value)

def encode (items : List (List Value)) : List Value := items.flatMap fun item => item ++ [stop]

/-- The values before the first terminator. -/
def upTo [DecidableEq Value] (values : List Value) : List Value := values.takeWhile (· ≠ stop)

/-- The items before the first empty one, unless one of them has no terminator. -/
def decodeWithin [DecidableEq Value] : Nat → List Value → Option (List (List Value))
  | 0, _ => some []
  | fuel + 1, values =>
      if values = [] then some []
      else if (upTo stop values).length = values.length then none
      else if upTo stop values = [] then some []
      else (decodeWithin fuel (values.drop ((upTo stop values).length + 1))).map
        (upTo stop values :: ·)

variable {stop} {items : List (List Value)} {item values : List Value}

theorem encode_cons : encode stop (item :: items) = item ++ stop :: encode stop items := by
  simp [encode]

theorem length_encode : (encode stop items).length = (items.map fun item => item.length + 1).sum := by
  induction items with
  | nil => rfl
  | cons item rest ih =>
      rw [encode_cons, List.length_append, List.length_cons, ih, List.map_cons, List.sum_cons]
      omega

variable [DecidableEq Value]

theorem upTo_append (free : stop ∉ item) : upTo stop (item ++ stop :: values) = item := by
  rw [upTo, List.takeWhile_append_of_pos]
  · simp
  · intro value member
    have different : value ≠ stop := fun same => free (same ▸ member)
    simpa using different

/-- The items are read back up to the first empty one. -/
theorem decodeWithin_encode {fuel padding : Nat} (free : ∀ item ∈ items, stop ∉ item)
    (enough : (encode stop items).length + padding ≤ fuel) :
    decodeWithin stop fuel (encode stop items ++ List.replicate padding stop) =
      some (items.takeWhile (· ≠ [])) := by
  induction items generalizing fuel with
  | nil =>
      cases fuel with
      | zero => rfl
      | succ fuel => cases padding with
        | zero => rfl
        | succ padding => simp [decodeWithin, encode, upTo, List.replicate_succ]
  | cons item rest ih =>
      rw [encode_cons, List.length_append, List.length_cons] at enough
      obtain ⟨fuel, rfl⟩ : ∃ less, fuel = less + 1 := ⟨fuel - 1, by omega⟩
      have head : upTo stop (encode stop (item :: rest) ++ List.replicate padding stop) = item := by
        rw [encode_cons, List.append_assoc]
        exact upTo_append (free item (by simp))
      rw [decodeWithin, head, if_neg (by simp [encode_cons]), if_neg (by simp [encode_cons])]
      cases item with
      | nil => rfl
      | cons value others =>
          have tail : (encode stop ((value :: others) :: rest) ++
              List.replicate padding stop).drop ((value :: others).length + 1) =
                encode stop rest ++ List.replicate padding stop := by
            simp [encode_cons]
          rw [if_neg (by simp), tail, ih (fun item member => free item (by simp [member])) (by omega)]
          simp

end

end Terminated
