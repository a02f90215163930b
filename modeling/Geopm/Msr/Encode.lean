import Geopm.Msr.FieldSignal
import Mathlib.Data.Int.Log
import Mathlib.Data.Rat.Floor
import Mathlib.Tactic.NormNum.NatLog
import Mathlib.Tactic.Positivity
import Mathlib.Tactic.Ring

namespace Geopm

/-! `MSRFieldControl::encode`: the bits that a setting is written as. -/

/-- The conversion to `uint64_t`: numbers are truncated, with no result documented for a number that
is out of range. -/
def Converts (toUInt64 : ℚ → Word) : Prop :=
  ∀ number, -1 < number → number < 2 ^ 64 → (toUInt64 number).toNat = ⌊number⌋₊

/-- `1 << float_y`, of which the result is an `int`. -/
def shiftedOne (floatY : Nat) : ℤ := ((1 : BitVec 32) <<< floatY).toInt

/-- The result of `encode` before it is moved to the field. Logarithms are whole numbers: the next one
below, or above where its opposite is truncated. -/
def encodeRaw (toUInt64 : ℚ → Word) (function : MsrFunction) (scalar value : ℚ) :
    Except GroupError Word :=
  let inverse := 1 / scalar
  match function with
  | .scale => .ok (toUInt64 (inverse * value))
  | .logHalf => .ok (toUInt64 (-1 * (Int.clog 2 (inverse * value) : ℤ)))
  | .sevenBitFloat =>
      if 0 < value then
        let value := value * inverse
        let floatY := toUInt64 (Int.log 2 value : ℤ)
        let power := shiftedOne floatY.toNat
        let floatZ := toUInt64 (4 * (value / power - 1))
        if (floatY ≠ 0 ∧ floatY >>> 5 ≠ 0) ∨ (floatZ ≠ 0 ∧ floatZ >>> 2 ≠ 0) then
          .error (.encode "MSR::encode(): integer overflow in M_FUNCTION_7_BIT_FLOAT datatype encoding")
        else
          let valueInferred : ℚ := power * (1 + floatZ.toNat / 4)
          if value * (1 / 4) < value - valueInferred then
            .error (.encode "MSR::encode(): inferred value from encoded value is inaccurate")
          else .ok (floatY ||| (floatZ <<< 5))
      else .error (.encode "MSRFieldControl::encode(): input value <= 0 for M_FUNCTION_7_BIT_FLOAT")
  -- the constructor does not accept it
  | .overflow => .ok 0

/-- A control of a field with one of the functions. -/
def FieldControl.ofBits (toUInt64 : ℚ → Word) (cpu offset : Nat) (bits : FieldBits)
    (function : MsrFunction) (scalar : ℚ) : FieldControl ℚ :=
  .new cpu offset bits.beginBit bits.endBit (encodeRaw toUInt64 function scalar)

/-- The settings that are considered: not negative, and no less than one unit of a float. -/
def MsrFunction.Requested (function : MsrFunction) (scalar value : ℚ) : Prop :=
  match function with
  | .scale => 0 ≤ value
  | .sevenBitFloat => scalar ≤ value
  | _ => False

/-- How much less than the setting the field may stand for. -/
def MsrFunction.quantum (function : MsrFunction) (scalar value : ℚ) : ℚ :=
  match function with
  | .sevenBitFloat => value / 4
  | _ => scalar

/-- An encoded setting has no bits outside the field, and the signal of the field is near the setting
and not above it. -/
def FieldBits.Encodes (bits : FieldBits) (function : MsrFunction) (scalar value : ℚ)
    (encoded : Except GroupError Word) : Prop :=
  ∀ word, encoded = .ok word → word &&& ~~~bits.mask = 0 ∧
    (FieldSignal.new bits function scalar).read word ≤ value ∧
    value - (FieldSignal.new bits function scalar).read word ≤ function.quantum scalar value

/-- The field is wide enough for a setting in units of the scalar. A float of which the power of two is
out of range is not encoded; with fewer than seven bits the quarters are lost, at the top first. -/
def FieldBits.Holds (bits : FieldBits) (function : MsrFunction) (units : ℚ) : Prop :=
  match function with
  | .sevenBitFloat =>
      let floatY := Nat.log 2 ⌊units⌋₊
      31 ≤ floatY ∨ (floatY < 2 ^ bits.numBit ∧
        (7 ≤ bits.numBit ∨ (bits.numBit = 6 ∧ units < 3 / 2 * 2 ^ floatY) ∨
          (bits.numBit ≤ 5 ∧ units ≤ 4 / 3 * 2 ^ floatY)))
  | _ => units < 2 ^ bits.numBit

/-- What the float format stands for. -/
def quarterFloat (code : Nat) : ℚ := 2 ^ (code % 32) * (1 + (code / 32 : Nat) / 4)

section

variable {toUInt64 : ℚ → Word} {bits : FieldBits} {scalar value units : ℚ} {field raw : Word}
  {floatY floatZ cpu offset code : Nat} {function : MsrFunction}

theorem read_scale : (FieldSignal.new bits .scale scalar).read field = (bits.subfield field).toNat * scalar :=
  rfl

theorem read_sevenBitFloat : (FieldSignal.new bits .sevenBitFloat scalar).read field =
    quarterFloat (bits.subfield field).toNat * scalar := by
  have low : (bits.subfield field &&& 0x1F).toNat = (bits.subfield field).toNat % 32 := by
    rw [BitVec.toNat_and]
    exact Nat.and_two_pow_sub_one_eq_mod _ 5
  have high : (bits.subfield field >>> 5).toNat = (bits.subfield field).toNat / 32 := by
    rw [BitVec.toNat_ushiftRight, Nat.shiftRight_eq_div_pow]
  have small : (bits.subfield field).toNat % 32 < 64 := by omega
  have power : ((1 : Word) <<< ((bits.subfield field).toNat % 32)).toNat =
      2 ^ ((bits.subfield field).toNat % 32) := by
    rw [BitVec.toNat_shiftLeft, show (1 : Word).toNat = 1 from rfl, Nat.one_shiftLeft,
      Nat.mod_eq_of_lt (Nat.pow_lt_pow_right (by omega) small)]
  change (_ * _ : ℚ) = _
  simp only [FieldSignal.new, low, high, power, quarterFloat]
  push_cast
  rfl

/-- Every encoded word lies within the field, and of what it encodes the field holds the low bits. -/
theorem encode_ofBits : (FieldControl.ofBits toUInt64 cpu offset bits function scalar).encode value =
    (encodeRaw toUInt64 function scalar value).map fun (raw : Word) => (raw <<< bits.beginBit) &&& bits.mask :=
  rfl

theorem outside_field : ((raw <<< bits.beginBit) &&& bits.mask) &&& ~~~bits.mask = 0 :=
  WordField.place_outside

theorem log_bounds (large : 1 ≤ units) : Int.log 2 units = Nat.log 2 ⌊units⌋₊ ∧
    2 ^ Nat.log 2 ⌊units⌋₊ ≤ units ∧ units < 2 ^ (Nat.log 2 ⌊units⌋₊ + 1) := by
  have whole : Int.log 2 units = Nat.log 2 ⌊units⌋₊ := Int.log_of_one_le_right 2 large
  have low := @Int.zpow_log_le_self ℚ _ _ _ _ 2 units (by decide) (lt_of_lt_of_le one_pos large)
  have high := @Int.lt_zpow_succ_log_self ℚ _ _ _ _ 2 (by decide) units
  rw [whole] at low high
  refine ⟨whole, ?_, ?_⟩
  · simpa using low
  · exact_mod_cast high

theorem shiftedOne_small (small : floatY < 31) : shiftedOne floatY = 2 ^ floatY := by
  have below : 2 ^ floatY < 2 ^ 31 := Nat.pow_lt_pow_right (by omega) small
  have power : ((1 : BitVec 32) <<< floatY).toNat = 2 ^ floatY := by
    rw [BitVec.toNat_shiftLeft, show (1 : BitVec 32).toNat = 1 from rfl, Nat.one_shiftLeft,
      Nat.mod_eq_of_lt (by omega)]
  rw [shiftedOne, BitVec.toInt_eq_toNat_of_lt (by omega), power]
  push_cast
  rfl

theorem shiftedOne_last : shiftedOne 31 = -2 ^ 31 := by decide

theorem shiftedOne_lt : shiftedOne floatY < 2 ^ 31 := BitVec.toInt_lt

/-- A word has bits from a position on just when it is not less than the power. -/
theorem carries_iff {position : Nat} : (raw ≠ 0 ∧ raw >>> position ≠ 0) ↔ 2 ^ position ≤ raw.toNat := by
  have shifted : raw >>> position = 0 ↔ raw.toNat < 2 ^ position := by
    rw [← BitVec.toNat_inj, BitVec.toNat_ushiftRight, Nat.shiftRight_eq_div_pow]
    exact Nat.div_eq_zero_iff_lt (Nat.two_pow_pos position)
  constructor
  · rintro ⟨_, carries⟩
    exact Nat.le_of_not_lt fun less => carries (shifted.mpr less)
  · intro large
    refine ⟨?_, fun gone => absurd (shifted.mp gone) (Nat.not_lt.mpr large)⟩
    rintro rfl
    have positive := Nat.two_pow_pos position
    simp only [BitVec.ofNat_eq_ofNat, BitVec.toNat_ofNat, Nat.zero_mod] at large
    omega

theorem Converts.natCast (converts : Converts toUInt64) (small : code < 2 ^ 64) :
    (toUInt64 (code : ℚ)).toNat = code := by
  rw [converts code (lt_of_lt_of_le (by norm_num) (Nat.cast_nonneg code)) (by exact_mod_cast small),
    Nat.floor_natCast]

/-- The inferred value is far below a number from the power of two on that an `int` cannot hold. -/
theorem far_below {power : ℤ} (fits : floatY < 32) (quarters : floatZ < 4)
    (power_eq : power = shiftedOne floatY) (large : floatY = 31 ∧ 0 < units ∨ 2 ^ 33 ≤ units) :
    units * (1 / 4) < units - power * (1 + floatZ / 4) := by
  have few : (floatZ : ℚ) ≤ 3 := by exact_mod_cast Nat.le_of_lt_succ quarters
  have some_quarter : (0 : ℚ) ≤ floatZ := Nat.cast_nonneg floatZ
  rcases large with ⟨rfl, positive⟩ | large
  · rw [power_eq, shiftedOne_last]
    push_cast
    linarith
  · have bounded : (power : ℚ) ≤ 2 ^ 31 := by
      rw [power_eq]
      exact_mod_cast (@shiftedOne_lt floatY).le
    have product := mul_le_mul_of_nonneg_right bounded (show (0 : ℚ) ≤ 1 + floatZ / 4 by linarith)
    linarith

/-- A power of two that an `int` cannot hold is not encoded, whatever the shift and the conversions
result in. -/
theorem encodeRaw_throws (converts : Converts toUInt64) (positive : 0 < value)
    (large : 1 ≤ value * (1 / scalar)) (beyond : 31 ≤ Nat.log 2 ⌊value * (1 / scalar)⌋₊) :
    ∃ reason, encodeRaw toUInt64 .sevenBitFloat scalar value = .error reason := by
  obtain ⟨whole, low, _⟩ := log_bounds large
  simp only [encodeRaw, if_pos positive, whole, carries_iff]
  generalize value * (1 / scalar) = units at large beyond low ⊢
  generalize Nat.log 2 ⌊units⌋₊ = exponent at beyond low ⊢
  have exponent_eq : exponent < 2 ^ 64 → (toUInt64 (exponent : ℚ)).toNat = exponent :=
    fun small => converts.natCast small
  rw [Int.cast_natCast]
  generalize toUInt64 (exponent : ℚ) = floatY at exponent_eq ⊢
  generalize toUInt64 (4 * (units / (shiftedOne floatY.toNat : ℚ) - 1)) = floatZ
  split
  case isTrue => exact ⟨_, rfl⟩
  case isFalse fits =>
      rw [not_or, Nat.not_le, Nat.not_le] at fits
      rw [if_pos]
      · exact ⟨_, rfl⟩
      · apply far_below fits.1 fits.2 rfl
        by_cases small : exponent < 2 ^ 64
        · have same := exponent_eq small
          exact .inl ⟨by omega, by linarith⟩
        · have grows : (2 : ℚ) ^ 33 ≤ 2 ^ exponent :=
            pow_le_pow_right₀ (by norm_num) (by omega)
          exact .inr (grows.trans low)

/-- Any other float is the power of two and the number of quarters. -/
theorem encodeRaw_sevenBitFloat (converts : Converts toUInt64) (positive : 0 < value)
    (units_eq : value * (1 / scalar) = units) (large : 1 ≤ units) (within : Nat.log 2 ⌊units⌋₊ < 31) :
    ∃ raw quarters, encodeRaw toUInt64 .sevenBitFloat scalar value = .ok raw ∧ quarters < 4 ∧
      raw.toNat = Nat.log 2 ⌊units⌋₊ + 32 * quarters ∧
      2 ^ Nat.log 2 ⌊units⌋₊ * (1 + (quarters : ℚ) / 4) ≤ units ∧
      units < 2 ^ Nat.log 2 ⌊units⌋₊ * (1 + ((quarters : ℚ) + 1) / 4) := by
  obtain ⟨whole, low, high⟩ := log_bounds large
  simp only [encodeRaw, if_pos positive, units_eq, whole, carries_iff, Int.cast_natCast]
  generalize Nat.log 2 ⌊units⌋₊ = exponent at within low high ⊢
  have power_pos : (0 : ℚ) < 2 ^ exponent := by positivity
  have exponent_eq : (toUInt64 (exponent : ℚ)).toNat = exponent := converts.natCast (by omega)
  have power_eq : (shiftedOne exponent : ℚ) = 2 ^ exponent := by
    rw [shiftedOne_small within]
    push_cast
    rfl
  rw [exponent_eq, power_eq]
  have quarters_low : 0 ≤ 4 * (units / 2 ^ exponent - 1) := by
    have ratio := (one_le_div₀ power_pos).mpr low
    linarith
  have quarters_high : 4 * (units / 2 ^ exponent - 1) < 4 := by
    rw [pow_succ] at high
    have ratio := (div_lt_iff₀ power_pos).mpr (show units < 2 * 2 ^ exponent by linarith)
    linarith
  have quarters_eq := converts _ (by linarith : -1 < 4 * (units / 2 ^ exponent - 1)) (by linarith)
  have floor_low := Nat.floor_le quarters_low
  have floor_high := Nat.lt_floor_add_one (4 * (units / 2 ^ exponent - 1))
  rw [← quarters_eq] at floor_low floor_high
  generalize toUInt64 (4 * (units / 2 ^ exponent - 1)) = floatZ at floor_low floor_high ⊢
  have few : floatZ.toNat < 4 := by
    have bound : (floatZ.toNat : ℚ) < 4 := by linarith
    exact_mod_cast bound
  have inferred_low : 2 ^ exponent * (1 + (floatZ.toNat : ℚ) / 4) ≤ units := by
    have scaled : 1 + (floatZ.toNat : ℚ) / 4 ≤ units / 2 ^ exponent := by linarith
    rw [le_div_iff₀ power_pos] at scaled
    linarith
  have inferred_high : units < 2 ^ exponent * (1 + ((floatZ.toNat : ℚ) + 1) / 4) := by
    have scaled : units / 2 ^ exponent < 1 + ((floatZ.toNat : ℚ) + 1) / 4 := by linarith
    rw [div_lt_iff₀ power_pos] at scaled
    linarith
  refine ⟨toUInt64 (exponent : ℚ) ||| (floatZ <<< 5), floatZ.toNat, ?_, few, ?_, inferred_low, inferred_high⟩
  · rw [if_neg (by omega), if_neg (by linarith)]
  · have moved : (floatZ <<< 5).toNat = 2 ^ 5 * floatZ.toNat := by
      rw [BitVec.toNat_shiftLeft, Nat.shiftLeft_eq, Nat.mod_eq_of_lt (by omega), Nat.mul_comm]
    rw [BitVec.toNat_or, moved, exponent_eq, Nat.or_comm, ← Nat.two_pow_add_eq_or_of_lt (by omega),
      Nat.add_comm]

/-- What is left of a float in a field. -/
theorem quarterFloat_add (small : floatY < 32) : quarterFloat (floatY + 32 * floatZ) = 2 ^ floatY * (1 + floatZ / 4) := by
  rw [quarterFloat, show (floatY + 32 * floatZ) % 32 = floatY by omega,
    show (floatY + 32 * floatZ) / 32 = floatZ by omega]

theorem quarterFloat_small (small : floatY < 32) : quarterFloat floatY = 2 ^ floatY := by
  have alone := @quarterFloat_add floatY 0 small
  simpa using alone

/-- Near the setting and not above it, in units of the scalar. -/
def Near (units decoded : ℚ) : Prop := decoded ≤ units ∧ units - decoded ≤ units / 4

theorem near_power_iff (low : 2 ^ floatY ≤ units) : Near units (2 ^ floatY) ↔ units ≤ 4 / 3 * 2 ^ floatY := by
  constructor
  · rintro ⟨_, near⟩
    linarith
  · intro near
    exact ⟨low, by linarith⟩

/-- Of a float that loses bits in the field, the power of two has to remain, and the quarters may be lost
only while they make no more than a third. -/
theorem near_iff {size : Nat} (within : floatY < 31) (quarters : floatZ < 4)
    (low : 2 ^ floatY * (1 + (floatZ : ℚ) / 4) ≤ units)
    (high : units < 2 ^ floatY * (1 + ((floatZ : ℚ) + 1) / 4)) :
    Near units (quarterFloat ((floatY + 32 * floatZ) % 2 ^ size)) ↔ floatY < 2 ^ size ∧
      (7 ≤ size ∨ (size = 6 ∧ units < 3 / 2 * 2 ^ floatY) ∨ (size ≤ 5 ∧ units ≤ 4 / 3 * 2 ^ floatY)) := by
  have power_pos : (0 : ℚ) < 2 ^ floatY := by positivity
  have some_quarter : (0 : ℚ) ≤ floatZ := Nat.cast_nonneg floatZ
  have base : 2 ^ floatY ≤ units := by
    have product := mul_nonneg power_pos.le some_quarter
    linarith
  rcases Nat.lt_or_ge size 6 with narrow | wide
  · have lost : (floatY + 32 * floatZ) % 2 ^ size = floatY % 2 ^ size := by
      have divides : 2 ^ size ∣ 32 * floatZ :=
        Dvd.dvd.mul_right (pow_dvd_pow 2 (Nat.le_of_lt_succ narrow) : 2 ^ size ∣ 2 ^ 5) floatZ
      obtain ⟨multiple, equal⟩ := divides
      rw [equal, Nat.add_mul_mod_self_left]
    rw [lost]
    by_cases kept : floatY < 2 ^ size
    · rw [Nat.mod_eq_of_lt kept, quarterFloat_small (by omega), near_power_iff base]
      have never : ¬7 ≤ size := by omega
      have other : size ≠ 6 := by omega
      simp [kept, never, other, Nat.le_of_lt_succ narrow]
    · have rest := Nat.mod_lt floatY (Nat.two_pow_pos size)
      have lower : (2 : ℚ) ^ (floatY % 2 ^ size) * 2 ≤ 2 ^ floatY := by
        rw [← pow_succ]
        exact pow_le_pow_right₀ (by norm_num) (by omega)
      rw [quarterFloat_small (by omega)]
      simp only [kept, false_and, iff_false]
      rintro ⟨_, near⟩
      linarith
  · rcases Nat.eq_or_lt_of_le wide with rfl | whole
    · have kept : floatY < 2 ^ 6 := by omega
      by_cases few : floatZ < 2
      · have some : (floatZ : ℚ) ≤ 1 := by exact_mod_cast Nat.le_of_lt_succ few
        have product := mul_le_mul_of_nonneg_left some power_pos.le
        have below : units < 3 / 2 * 2 ^ floatY := by linarith
        rw [Nat.mod_eq_of_lt (by omega), quarterFloat_add (by omega)]
        simp only [Nat.reduceLeDiff, kept, below, and_self, false_or, true_or, iff_true]
        exact ⟨low, by linarith⟩
      · have many : (2 : ℚ) ≤ floatZ := by exact_mod_cast Nat.le_of_not_lt few
        have product := mul_le_mul_of_nonneg_left many power_pos.le
        have above : ¬units < 3 / 2 * 2 ^ floatY := by linarith
        have left : (floatY + 32 * floatZ) % 2 ^ 6 = floatY + 32 * (floatZ - 2) := by omega
        rw [left, quarterFloat_add (by omega)]
        simp only [Nat.reduceLeDiff, kept, above, and_false, false_and, false_or, iff_false]
        rintro ⟨_, near⟩
        have less : ((floatZ - 2 : Nat) : ℚ) = floatZ - 2 := by
          rw [Nat.cast_sub (Nat.le_of_not_lt few)]
          rfl
        rw [less] at near
        have few : (floatZ : ℚ) ≤ 3 := by exact_mod_cast Nat.le_of_lt_succ quarters
        have product := mul_le_mul_of_nonneg_left few power_pos.le
        linarith
    · have room : 2 ^ 7 ≤ 2 ^ size := Nat.pow_le_pow_right (by omega) whole
      have kept : floatY < 2 ^ size := by omega
      rw [Nat.mod_eq_of_lt (by omega), quarterFloat_add (by omega)]
      have enough : 7 ≤ size := whole
      simp only [kept, enough, true_or, and_self, iff_true]
      exact ⟨low, by linarith⟩

theorem encodes_error {reason : GroupError} (thrown : encodeRaw toUInt64 function scalar value = .error reason) :
    bits.Encodes function scalar value
      ((FieldControl.ofBits toUInt64 cpu offset bits function scalar).encode value) := by
  rw [encode_ofBits, thrown]
  intro word encoded
  cases encoded

theorem encodes_ok (done : encodeRaw toUInt64 function scalar value = .ok raw) :
    bits.Encodes function scalar value
        ((FieldControl.ofBits toUInt64 cpu offset bits function scalar).encode value) ↔
      (FieldSignal.new bits function scalar).read ((raw <<< bits.beginBit) &&& bits.mask) ≤ value ∧
        value - (FieldSignal.new bits function scalar).read ((raw <<< bits.beginBit) &&& bits.mask) ≤
          function.quantum scalar value := by
  rw [encode_ofBits, done]
  constructor
  · intro encodes
    exact (encodes _ rfl).2
  · rintro near word encoded
    cases encoded
    exact ⟨outside_field, near⟩

/-- A whole number of units that wraps is off by two units or more. -/
theorem within_unit_iff (converts : Converts toUInt64) (nonnegative : 0 ≤ units) :
    (((toUInt64 units).toNat % 2 ^ bits.numBit : Nat) : ℚ) ≤ units ∧
        units - ((toUInt64 units).toNat % 2 ^ bits.numBit : Nat) ≤ 1 ↔ units < 2 ^ bits.numBit := by
  have two_le : 2 ≤ 2 ^ bits.numBit := by
    rw [FieldBits.numBit, Nat.pow_succ]
    have positive := Nat.two_pow_pos (bits.endBit - bits.beginBit)
    omega
  have room : 2 ^ bits.numBit + 2 ≤ 2 ^ 64 := by
    have below : 2 ^ bits.numBit ≤ 2 ^ 63 := Nat.pow_le_pow_right (by omega) (Nat.le_of_lt_succ bits.supported)
    omega
  have rest := Nat.mod_lt (toUInt64 units).toNat (Nat.two_pow_pos bits.numBit)
  by_cases small : units < 2 ^ 64
  · have floor_eq := converts units (by linarith) small
    have floor_low := Nat.floor_le nonnegative
    have floor_high := Nat.lt_floor_add_one units
    rw [← floor_eq] at floor_low floor_high
    constructor
    · rintro ⟨_, near⟩
      by_contra wide
      rw [not_lt] at wide
      have large : 2 ^ bits.numBit ≤ (toUInt64 units).toNat := by
        rw [floor_eq]
        exact Nat.le_floor (by exact_mod_cast wide)
      have less : (toUInt64 units).toNat % 2 ^ bits.numBit + 2 ≤ (toUInt64 units).toNat := by
        rw [Nat.mod_eq_sub_mod large]
        have bound := Nat.mod_le ((toUInt64 units).toNat - 2 ^ bits.numBit) (2 ^ bits.numBit)
        omega
      have cast : (((toUInt64 units).toNat % 2 ^ bits.numBit : Nat) : ℚ) + 2 ≤ (toUInt64 units).toNat := by
        exact_mod_cast less
      linarith
    · intro fits
      have less : (toUInt64 units).toNat < 2 ^ bits.numBit := by
        rw [floor_eq, Nat.floor_lt nonnegative]
        exact_mod_cast fits
      rw [Nat.mod_eq_of_lt less]
      exact ⟨floor_low, by linarith⟩
  · rw [not_lt] at small
    have cast : (((toUInt64 units).toNat % 2 ^ bits.numBit : Nat) : ℚ) + 2 ≤ 2 ^ 64 := by
      exact_mod_cast Nat.le_trans (Nat.add_le_add_right rest.le 2) room
    have power : (2 : ℚ) ^ bits.numBit + 2 ≤ 2 ^ 64 := by exact_mod_cast room
    constructor
    · rintro ⟨_, near⟩
      linarith
    · intro fits
      linarith

theorem encodes_scale_iff (converts : Converts toUInt64) (positive : 0 < scalar) (nonnegative : 0 ≤ value) :
    bits.Encodes .scale scalar value
        ((FieldControl.ofBits toUInt64 cpu offset bits .scale scalar).encode value) ↔
      value / scalar < 2 ^ bits.numBit := by
  have done : encodeRaw toUInt64 .scale scalar value = .ok (toUInt64 (value / scalar)) := by
    rw [encodeRaw, one_div_mul_eq_div]
  rw [encodes_ok done, read_scale, FieldBits.toNat_subfield_place,
    ← within_unit_iff converts (div_nonneg nonnegative positive.le), le_div_iff₀ positive,
    show MsrFunction.quantum .scale scalar value = scalar from rfl]
  generalize (((toUInt64 (value / scalar)).toNat % 2 ^ bits.numBit : Nat) : ℚ) = decoded
  have scaled : value - decoded * scalar ≤ scalar ↔ value / scalar - decoded ≤ 1 := by
    rw [sub_le_iff_le_add, sub_le_iff_le_add, div_le_iff₀ positive, add_mul, one_mul]
  rw [scaled]

theorem encodes_sevenBitFloat_iff (converts : Converts toUInt64) (positive : 0 < scalar) (requested : scalar ≤ value) :
    bits.Encodes .sevenBitFloat scalar value
        ((FieldControl.ofBits toUInt64 cpu offset bits .sevenBitFloat scalar).encode value) ↔
      bits.Holds .sevenBitFloat (value / scalar) := by
  have value_pos : 0 < value := lt_of_lt_of_le positive requested
  have units_eq : value * (1 / scalar) = value / scalar := mul_one_div value scalar
  have large : 1 ≤ value / scalar := (one_le_div₀ positive).mpr requested
  rw [FieldBits.Holds]
  by_cases within : Nat.log 2 ⌊value / scalar⌋₊ < 31
  · obtain ⟨raw, quarters, done, few, code, low, high⟩ :=
      encodeRaw_sevenBitFloat converts value_pos units_eq large within
    have never : ¬31 ≤ Nat.log 2 ⌊value / scalar⌋₊ := Nat.not_le.mpr within
    simp only [never, false_or]
    rw [encodes_ok done, read_sevenBitFloat, FieldBits.toNat_subfield_place, code,
      ← near_iff within few low high, Near, le_div_iff₀ positive, MsrFunction.quantum]
    generalize quarterFloat ((Nat.log 2 ⌊value / scalar⌋₊ + 32 * quarters) % 2 ^ bits.numBit) = decoded
    have scaled : value - decoded * scalar ≤ value / 4 ↔ value / scalar - decoded ≤ value / scalar / 4 := by
      rw [sub_le_comm, sub_le_comm (b := decoded), div_right_comm, ← sub_div, div_le_iff₀ positive]
    rw [scaled]
  · rw [Nat.not_lt] at within
    rw [← units_eq] at large
    obtain ⟨reason, thrown⟩ := encodeRaw_throws converts value_pos large (by rwa [units_eq])
    simp only [within, true_or, iff_true]
    exact encodes_error thrown

/-- A setting is encoded as one that is near it and not above it, or an exception is thrown, just when the
field is wide enough. -/
theorem FieldBits.encodes_iff_holds (converts : Converts toUInt64) (positive : 0 < scalar)
    (requested : function.Requested scalar value) :
    bits.Encodes function scalar value
        ((FieldControl.ofBits toUInt64 cpu offset bits function scalar).encode value) ↔
      bits.Holds function (value / scalar) := by
  cases function with
  | scale => exact encodes_scale_iff converts positive requested
  | sevenBitFloat => exact encodes_sevenBitFloat_iff converts positive requested
  | logHalf => exact requested.elim
  | overflow => exact requested.elim

end

/-- A conversion that reduces what is out of range. -/
def truncated (number : ℚ) : Word := BitVec.ofNat 64 ⌊number⌋₊

theorem truncated_converts : Converts truncated := by
  intro number _ below
  rw [truncated, BitVec.toNat_ofNat, Nat.mod_eq_of_lt]
  rcases le_or_gt 0 number with nonnegative | negative
  · rw [Nat.floor_lt nonnegative]
    exact_mod_cast below
  · rw [Nat.floor_of_nonpos negative.le]
    decide

/-- A field of one byte. -/
def byteField : FieldBits := ⟨8, 15, by decide, by decide, by decide⟩

theorem encodes_six : byteField.Encodes .sevenBitFloat (1 / 8) 6
    ((FieldControl.ofBits truncated 0 0x610 byteField .sevenBitFloat (1 / 8)).encode 6) :=
  (FieldBits.encodes_iff_holds truncated_converts (by norm_num) (by norm_num [MsrFunction.Requested])).mpr
    (.inr ⟨by norm_num [byteField, FieldBits.numBit], .inl (by decide)⟩)

/-- A setting of 256 units in a byte comes out as zero. -/
theorem not_encodes_byte : ¬ ∀ (toUInt64 : ℚ → Word), Converts toUInt64 →
    ∀ (cpu offset : Nat) (bits : FieldBits) (function : MsrFunction) (scalar value : ℚ), 0 < scalar →
      function.Requested scalar value → bits.Encodes function scalar value
        ((FieldControl.ofBits toUInt64 cpu offset bits function scalar).encode value) := by
  intro all
  have encodes := all truncated truncated_converts 0 0x610 byteField .scale 1 256 one_pos (by norm_num [MsrFunction.Requested])
  rw [encodes_scale_iff truncated_converts one_pos (by norm_num)] at encodes
  norm_num [byteField, FieldBits.numBit] at encodes

end Geopm
