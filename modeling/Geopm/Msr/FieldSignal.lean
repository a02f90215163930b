import Geopm.Library.WordField
import Geopm.Msr.Control
import Mathlib.Data.List.Chain
import Mathlib.Data.List.Range
import Mathlib.Data.Rat.Cast.Order
import Mathlib.Tactic.Linarith

namespace Geopm

/-! `MSRFieldSignal`: what the bits of a register stand for. -/

/-- `MSR::m_function_e`. -/
inductive MsrFunction where
  | scale
  | logHalf
  | sevenBitFloat
  | overflow
deriving Repr, DecidableEq

/-- The bits of a field. "64-bit fields are not supported". -/
structure FieldBits where
  beginBit : Nat
  endBit : Nat
  ordered : beginBit ≤ endBit
  inside : endBit < 64
  supported : endBit - beginBit + 1 < 64

namespace FieldBits

def numBit (bits : FieldBits) : Nat := bits.endBit - bits.beginBit + 1

def mask (bits : FieldBits) : Word := FieldControl.fieldMask bits.beginBit bits.endBit

/-- `(field & m_mask) >> m_shift`. -/
def subfield (bits : FieldBits) (field : Word) : Word := (field &&& bits.mask) >>> bits.beginBit

variable {bits : FieldBits} {field value : Word}

theorem fits (bits : FieldBits) : WordField.Fits 64 bits.beginBit bits.numBit where
  narrow := bits.supported
  inside := by
    have ordered := bits.ordered
    have inside := bits.inside
    rw [numBit]
    omega

theorem toNat_subfield :
    (bits.subfield field).toNat = field.toNat / 2 ^ bits.beginBit % 2 ^ bits.numBit :=
  bits.fits.toNat_extract

theorem toNat_subfield_place : (bits.subfield ((value <<< bits.beginBit) &&& bits.mask)).toNat =
    value.toNat % 2 ^ bits.numBit :=
  bits.fits.toNat_extract_place

end FieldBits

inductive SignalError where
  /-- "setup_batch() must be called before sample()." -/
  | notBatchReady
deriving Repr, DecidableEq

/-- `MSRFieldSignal`, without the signal of the register, which has the bits of the register. -/
structure FieldSignal where
  bits : FieldBits
  function : MsrFunction
  scalar : ℚ
  lastField : Word
  numOverflow : Nat
  isBatchReady : Bool

namespace FieldSignal

/-- The constructor. -/
def new (bits : FieldBits) (function : MsrFunction) (scalar : ℚ) : FieldSignal :=
  ⟨bits, function, scalar, 0, 0, false⟩

def setupBatch (signal : FieldSignal) : FieldSignal := { signal with isBatchReady := true }

/-- The result of `convert_raw_value` before it is scaled, with the number of overflows. -/
def unscaled (signal : FieldSignal) (subfield subfieldLast : Word) (numOverflow : Nat) : ℚ × Nat :=
  match signal.function with
  | .logHalf => (1 / ((1 : Word) <<< subfield.toNat).toNat, numOverflow)
  | .sevenBitFloat =>
      let floatY := subfield &&& 0x1F
      let floatZ := subfield >>> 5
      (((1 : Word) <<< floatY.toNat).toNat * (1 + floatZ.toNat / 4), numOverflow)
  | .overflow =>
      let numOverflow := if subfield < subfieldLast then numOverflow + 1 else numOverflow
      let subfieldMax : Word := ((1 : Word) <<< signal.bits.numBit) - 1
      (subfield.toNat + (subfieldMax.toNat + 1) * numOverflow, numOverflow)
  | .scale => (subfield.toNat, numOverflow)

/-- `convert_raw_value`. -/
def convertRawValue (signal : FieldSignal) (field lastField : Word) (numOverflow : Nat) :
    ℚ × Word × Nat :=
  let (result, numOverflow) :=
    signal.unscaled (signal.bits.subfield field) (signal.bits.subfield lastField) numOverflow
  (result * signal.scalar, field, numOverflow)

def sample (raw : Word) (signal : FieldSignal) : Except SignalError (ℚ × FieldSignal) :=
  if !signal.isBatchReady then .error .notBatchReady
  else
    let (result, lastField, numOverflow) :=
      signal.convertRawValue raw signal.lastField signal.numOverflow
    .ok (result, { signal with lastField, numOverflow })

def read (raw : Word) (signal : FieldSignal) : ℚ := (signal.convertRawValue raw 0 0).1

/-- The samples of successive contents of the register. -/
def sampleAll : List Word → FieldSignal → Except SignalError (List ℚ)
  | [], _ => .ok []
  | raw :: rest, signal => do
      let (value, next) ← signal.sample raw
      let values ← sampleAll rest next
      pure (value :: values)

/-- The signal of a counter that has shown the given count last, and started in the given period. -/
structure Follows (signal : FieldSignal) (period last : Nat) : Prop where
  ready : signal.isBatchReady = true
  function : signal.function = .overflow
  field : (signal.bits.subfield signal.lastField).toNat = last % 2 ^ signal.bits.numBit
  overflows : period + signal.numOverflow = last / 2 ^ signal.bits.numBit

/-- From one count to the next, by less than a period. -/
def Advances (numBit earlier later : Nat) : Prop := earlier ≤ later ∧ later < earlier + 2 ^ numBit

variable {signal : FieldSignal} {period last count : Nat} {raw : Word}

/-- A field that is less than the last one tells that a period has passed, as no more than one has. -/
theorem div_of_advances {size : Nat} (advances : Advances size last count) :
    count / 2 ^ size = last / 2 ^ size + if count % 2 ^ size < last % 2 ^ size then 1 else 0 := by
  obtain ⟨behind, near⟩ := advances
  have positive : 0 < 2 ^ size := Nat.two_pow_pos size
  have before := Nat.div_add_mod last (2 ^ size)
  have after := Nat.div_add_mod count (2 ^ size)
  have small := Nat.mod_lt last positive
  have less := Nat.mod_lt count positive
  split
  case isTrue wrapped =>
      apply Nat.div_eq_of_lt_le
      · rw [Nat.succ_mul, Nat.mul_comm]
        by_contra short
        have same : count / 2 ^ size ≤ last / 2 ^ size := by
          rw [Nat.div_le_iff_le_mul_add_pred positive]
          omega
        have equal := Nat.le_antisymm same (Nat.div_le_div_right behind)
        rw [equal] at after
        omega
      · rw [Nat.succ_mul, Nat.succ_mul, Nat.mul_comm]
        omega
  case isFalse ahead =>
      apply Nat.div_eq_of_lt_le
      · rw [Nat.add_zero, Nat.mul_comm]
        omega
      · rw [Nat.add_zero, Nat.succ_mul, Nat.mul_comm]
        by_contra long
        have more : last / 2 ^ size + 1 ≤ count / 2 ^ size := by
          rw [Nat.le_div_iff_mul_le positive, Nat.succ_mul, Nat.mul_comm]
          omega
        have most := Nat.mul_le_mul_left (2 ^ size) more
        rw [Nat.mul_add, Nat.mul_one] at most
        omega

theorem toNat_subfieldMax (bits : FieldBits) :
    ((((1 : Word) <<< bits.numBit) - 1).toNat : ℚ) + 1 = ((2 ^ bits.numBit : Nat) : ℚ) := by
  have narrow : bits.numBit < 64 := bits.supported
  have below : 2 ^ bits.numBit < 2 ^ 64 := Nat.pow_lt_pow_right (by omega) narrow
  have positive : 0 < 2 ^ bits.numBit := Nat.two_pow_pos _
  have power : ((1 : Word) <<< bits.numBit).toNat = 2 ^ bits.numBit := by
    rw [BitVec.toNat_shiftLeft, show (1 : Word).toNat = 1 from rfl, Nat.one_shiftLeft, Nat.mod_eq_of_lt below]
  have less : ((((1 : Word) <<< bits.numBit) - 1).toNat) + 1 = 2 ^ bits.numBit := by
    rw [BitVec.toNat_sub, power, show (1 : Word).toNat = 1 from rfl]
    omega
  exact_mod_cast less

/-- A sample shows how far the counter has come since the start of its first period. -/
theorem Follows.sample (follows : signal.Follows period last) (advances : Advances signal.bits.numBit last count)
    (shown : (signal.bits.subfield raw).toNat = count % 2 ^ signal.bits.numBit) :
    ∃ next, signal.sample raw =
        .ok ((((count : ℤ) - 2 ^ signal.bits.numBit * period : ℤ) : ℚ) * signal.scalar, next) ∧
      next.Follows period count ∧ next.bits = signal.bits ∧ next.scalar = signal.scalar := by
  have later := div_of_advances advances
  have wrapped : signal.bits.subfield raw < signal.bits.subfield signal.lastField ↔
      count % 2 ^ signal.bits.numBit < last % 2 ^ signal.bits.numBit := by
    rw [BitVec.lt_def, shown, follows.field]
  have passed : period + (if signal.bits.subfield raw < signal.bits.subfield signal.lastField
      then signal.numOverflow + 1 else signal.numOverflow) = count / 2 ^ signal.bits.numBit := by
    rw [later, ← follows.overflows, if_congr wrapped rfl rfl]
    split <;> omega
  have whole := Nat.div_add_mod count (2 ^ signal.bits.numBit)
  rw [← passed, Nat.mul_add] at whole
  refine ⟨{ signal with
    lastField := raw
    numOverflow := if signal.bits.subfield raw < signal.bits.subfield signal.lastField
      then signal.numOverflow + 1 else signal.numOverflow }, ?_,
    ⟨follows.ready, follows.function, shown, passed⟩, rfl, rfl⟩
  simp only [FieldSignal.sample, follows.ready, convertRawValue, unscaled, follows.function, toNat_subfieldMax,
    shown, Bool.not_true, Bool.false_eq_true, if_false]
  generalize (if signal.bits.subfield raw < signal.bits.subfield signal.lastField
      then signal.numOverflow + 1 else signal.numOverflow) = numOverflow at whole ⊢
  have exact : ((count % 2 ^ signal.bits.numBit : Nat) : ℚ) + ((2 ^ signal.bits.numBit : Nat) : ℚ) * numOverflow =
      (((count : ℤ) - 2 ^ signal.bits.numBit * period : ℤ) : ℚ) := by
    have sum : ((2 ^ signal.bits.numBit * period + 2 ^ signal.bits.numBit * numOverflow +
        count % 2 ^ signal.bits.numBit : Nat) : ℚ) = count := by rw [whole]
    push_cast at sum ⊢
    linarith
  rw [exact]

theorem Follows.sampleAll {raws : List Word} {counts : List Nat} (follows : signal.Follows period last)
    (advances : List.IsChain (Advances signal.bits.numBit) (last :: counts))
    (shown : List.Forall₂ (fun raw count =>
      (signal.bits.subfield raw).toNat = count % 2 ^ signal.bits.numBit) raws counts) :
    signal.sampleAll raws = .ok (counts.map fun count : Nat =>
      (((count : ℤ) - 2 ^ signal.bits.numBit * period : ℤ) : ℚ) * signal.scalar) := by
  induction raws generalizing signal last counts with
  | nil =>
      cases shown
      rfl
  | cons raw rest ih =>
      cases shown with
      | cons first others =>
          rw [List.isChain_cons_cons] at advances
          obtain ⟨next, sampled, following, bits, scalar⟩ := follows.sample advances.1 first
          rw [← bits] at advances others
          have remaining := ih following advances.2 others
          rw [FieldSignal.sampleAll, sampled]
          simp only [bind, Except.bind, remaining, bits, scalar]
          rfl

/-- The first count of a sequence comes after the start of its period. -/
theorem advances_first {size : Nat} : Advances size (2 ^ size * (count / 2 ^ size)) count := by
  have whole := Nat.div_add_mod count (2 ^ size)
  have less := Nat.mod_lt count (Nat.two_pow_pos size)
  exact ⟨by omega, by omega⟩

theorem follows_new {bits : FieldBits} {scalar : ℚ} :
    (new bits .overflow scalar).setupBatch.Follows period (2 ^ bits.numBit * period) where
  ready := rfl
  function := rfl
  field := by
    have none : (bits.subfield 0).toNat = 0 := by
      rw [FieldBits.toNat_subfield]
      simp
    exact none.trans (Nat.mul_mod_right _ _).symm
  overflows := (Nat.mul_div_cancel_left period (Nat.two_pow_pos _)).symm

/-- The counts that a field shows, from its first period on. -/
theorem sampleAll_counter (bits : FieldBits) (scalar : ℚ) (counter : Nat → Nat) (raw : Nat → Word)
    (advances : ∀ k, Advances bits.numBit (counter k) (counter (k + 1)))
    (shown : ∀ k, (raw k).toNat / 2 ^ bits.beginBit % 2 ^ bits.numBit = counter k % 2 ^ bits.numBit)
    (number : Nat) : ∃ unscaled : List ℤ,
      (new bits .overflow scalar).setupBatch.sampleAll ((List.range number).map raw) =
        .ok (unscaled.map fun value : ℤ => (value : ℚ) * scalar) ∧
      unscaled = (List.range number).map (fun k =>
        (counter k : ℤ) - 2 ^ bits.numBit * (counter 0 / 2 ^ bits.numBit : Nat)) ∧
      unscaled.Pairwise (· ≤ ·) := by
  have chain : List.IsChain (Advances bits.numBit)
      (2 ^ bits.numBit * (counter 0 / 2 ^ bits.numBit) :: (List.range number).map counter) := by
    cases number with
    | zero => simp
    | succ number =>
        rw [List.range_succ_eq_map, List.map_cons, List.isChain_cons_cons]
        refine ⟨advances_first, ?_⟩
        rw [← List.map_cons, ← List.range_succ_eq_map, List.isChain_map]
        exact (List.isChain_range_succ _ _).mpr fun k _ => advances k
  have fields : List.Forall₂ (fun raw count => ((new bits .overflow scalar).setupBatch.bits.subfield raw).toNat =
      count % 2 ^ bits.numBit) ((List.range number).map raw) ((List.range number).map counter) := by
    rw [List.forall₂_map_left_iff, List.forall₂_map_right_iff, List.forall₂_same]
    intro k _
    exact FieldBits.toNat_subfield.trans (shown k)
  refine ⟨_, ?_, rfl, ?_⟩
  · rw [follows_new.sampleAll chain fields, List.map_map, List.map_map]
    rfl
  · have nondecreasing : Monotone counter := monotone_nat_of_le_succ fun k => (advances k).1
    rw [List.pairwise_map]
    apply List.pairwise_lt_range.imp
    intro earlier later less
    have behind := nondecreasing (Nat.le_of_lt less)
    omega

/-- A field of four bits of which the counter passes the end twice. -/
theorem sampleAll_wraps : ∃ unscaled : List ℤ,
    (new ⟨4, 7, by decide, by decide, by decide⟩ .overflow (1 / 2)).setupBatch.sampleAll
        ((List.range 5).map fun k => BitVec.ofNat 64 ((20 + 9 * k) * 16)) =
      .ok (unscaled.map fun value : ℤ => (value : ℚ) * (1 / 2)) ∧
    unscaled = (List.range 5).map (fun k => ((20 + 9 * k : Nat) : ℤ) - 2 ^ 4 * ((20 + 9 * 0) / 2 ^ 4 : Nat)) ∧
    unscaled.Pairwise (· ≤ ·) :=
  sampleAll_counter ⟨4, 7, by decide, by decide, by decide⟩ (1 / 2) (fun k => 20 + 9 * k)
    (fun k => BitVec.ofNat 64 ((20 + 9 * k) * 16))
    (fun k => ⟨by omega, by simp [FieldBits.numBit]; omega⟩)
    (fun k => by simp [FieldBits.numBit, BitVec.toNat_ofNat]; omega) 5

end FieldSignal

end Geopm
