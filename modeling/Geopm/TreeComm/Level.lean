import Geopm.Library.Window
import Mathlib.Data.Rat.Defs
import Mathlib.Logic.Function.Basic

namespace Geopm

/-! `TreeCommLevel`: the policies and samples between the root of a level of the
tree and its children.

Each rank has a window for the policies that are sent to it; rank 0 has one for
the samples of all ranks. An access under the lock of a window is one step.
-/

/-- What is used of `double`: comparison is no equality, since nan differs from
itself and there may be two zeros. -/
class Double (Value : Type) extends BEq Value, Zero Value, One Value where
  nan : Value
  nan_beq : ∀ value : Value, (nan == value) = false
  beq_symm : ∀ {left right : Value}, (left == right) = true → (right == left) = true
  beq_trans : ∀ {first second third : Value}, (first == second) = true →
    (second == third) = true → (first == third) = true
  zero_beq_zero : ((0 : Value) == 0) = true
  one_beq_one : ((1 : Value) == 1) = true
  zero_beq_one : ((0 : Value) == 1) = false
  one_beq_zero : ((1 : Value) == 0) = false

/-- `std::isnan`. -/
def isNan {Value : Type} [Double Value] (value : Value) : Bool := value != value

/-- No value of the vector is nan. -/
def NanFree {Value : Type} [Double Value] (values : List Value) : Prop :=
  ∀ value ∈ values, isNan value = false

instance {Value : Type} [Double Value] (values : List Value) : Decidable (NanFree values) :=
  inferInstanceAs (Decidable (∀ value ∈ values, isNan value = false))

inductive LevelError where
  /-- "TreeCommLevelImp::send_up(): sample vector is not sized correctly." -/
  | sampleSize
  /-- "TreeCommLevelImp::send_down(): policy vector is not sized correctly.", also of `receive_up` -/
  | policySize
deriving Repr, DecidableEq

/-- The `TreeCommLevelImp` objects of all ranks of a level. -/
structure Level (Value : Type) where
  size : Nat
  numSendUp : Nat
  numSendDown : Nat
  sampleMailbox : Nat → Value
  policyMailbox : Nat → Nat → Value
  policyLast : Nat → List Value

namespace Level

variable {Value : Type} [Double Value]

/-- The constructor on each rank. -/
def new (size numSendUp numSendDown : Nat) : Level Value where
  size
  numSendUp
  numSendDown
  sampleMailbox _ := 0
  policyMailbox _ _ := 0
  policyLast _ := List.replicate numSendDown Double.nan

/-- Where the flag of a child is in `m_sample_mailbox`. Its sample follows. -/
def sampleBase (level : Level Value) (rank : Nat) : Nat := rank * (level.numSendUp + 1)

/-- `send_up`. Rank 0 writes to its own memory, where its offset is zero. -/
def sendUp (level : Level Value) (rank : Nat) (sample : List Value) :
    Except LevelError (Level Value) :=
  if sample.length ≠ level.numSendUp then .error .sampleSize
  else .ok { level with
    sampleMailbox := Window.put (Window.put level.sampleMailbox (level.sampleBase rank) [1])
      (level.sampleBase rank + 1) sample }

/-- Put a policy into the window of a rank and set its flag. -/
def deliver (level : Level Value) (rank : Nat) (policy : List Value) : Level Value :=
  { level with
    policyMailbox := Function.update level.policyMailbox rank
      (Window.put (Window.put (level.policyMailbox rank) 0 [1]) 1 policy) }

@[simp] theorem deliver_numSendDown (level : Level Value) (rank : Nat) (policy : List Value) :
    (level.deliver rank policy).numSendDown = level.numSendDown := rfl

@[simp] theorem deliver_policyLast (level : Level Value) (rank : Nat) (policy : List Value) :
    (level.deliver rank policy).policyLast = level.policyLast := rfl

theorem deliver_other {level : Level Value} {rank other : Nat} {policy : List Value}
    (different : other ≠ rank) :
    (level.deliver rank policy).policyMailbox other = level.policyMailbox other :=
  Function.update_of_ne different _ _

/-- `send_down` up to the loop: what is left to do for the other ranks. -/
def startDown (level : Level Value) (policy : List (List Value)) :
    Except LevelError (Level Value × List (List Value × Nat)) :=
  if level.size ≠ policy.length ∨ policy.any (·.length ≠ level.numSendDown) then
    .error .policySize
  else .ok (level.deliver 0 (policy.headD []), policy.zipIdx.tail)

/-- One round of the loop of `send_down`. -/
def serve (level : Level Value) (policy : List Value) (child : Nat) : Level Value :=
  if policy != level.policyLast child then
    { level.deliver child policy with
      policyLast := Function.update level.policyLast child policy }
  else level

/-- `send_down`. -/
def sendDown (level : Level Value) (policy : List (List Value)) :
    Except LevelError (Level Value) := do
  let (level, rest) ← level.startDown policy
  pure (rest.foldl (fun level (policy, child) => level.serve policy child) level)

/-- `receive_down`: the result, and what `policy` holds then. -/
def receiveDown (level : Level Value) (rank : Nat) (policy : List Value) : Bool × List Value :=
  if level.policyMailbox rank 0 == 1 then
    let received := Window.read (level.policyMailbox rank) 1 level.numSendDown
    (received.all fun value => !isNan value, received)
  else (false, policy)

/-- The test of the flags in `receive_up`, under the shared lock. -/
def isComplete (level : Level Value) : Bool :=
  (List.range level.size).all fun child => !(level.sampleMailbox (level.sampleBase child) == 0)

/-- Copy the sample of a child and reset its flag. -/
def takeSample (level : Level Value) (child : Nat) : List Value × Level Value :=
  (Window.read level.sampleMailbox (level.sampleBase child + 1) level.numSendUp,
    { level with
      sampleMailbox := Window.put level.sampleMailbox (level.sampleBase child) [0] })

/-- The loop of `receive_up` under the exclusive lock. -/
def takeSamples (level : Level Value) : List Nat → List (List Value) × Level Value
  | [] => ([], level)
  | child :: rest =>
      let (sample, next) := level.takeSample child
      let (others, last) := next.takeSamples rest
      (sample :: others, last)

/-- `receive_up` where nothing happens between its two locks: the result, what
`sample` holds then, and the level. -/
def receiveUp (level : Level Value) (sample : List (List Value)) :
    Except LevelError ((Bool × List (List Value)) × Level Value) :=
  if level.size ≠ sample.length ∨ sample.any (·.length ≠ level.numSendUp) then
    .error .policySize
  else if level.isComplete then
    let (samples, level) := level.takeSamples (List.range level.size)
    .ok ((samples.all (·.all fun value => !isNan value), samples), level)
  else .ok ((false, sample), level)

end Level

/-- Values with a nan, to evaluate the model with. -/
inductive Approximate where
  | nan
  | finite (value : Rat)
deriving Repr

namespace Approximate

def same : Approximate → Approximate → Bool
  | finite left, finite right => left == right
  | _, _ => false

instance : Double Approximate where
  beq := same
  zero := finite 0
  one := finite 1
  nan := nan
  nan_beq value := by cases value <;> rfl
  beq_symm {left right} equal := by
    cases left <;> cases right <;> simp_all [BEq.beq, same]
  beq_trans {first second third} left right := by
    cases first <;> cases second <;> cases third <;> simp_all [BEq.beq, same]
  zero_beq_zero := rfl
  one_beq_one := rfl
  zero_beq_one := rfl
  one_beq_zero := rfl

end Approximate

end Geopm
