import Geopm.EpochFilter.Stream
import Mathlib.Data.Rat.Defs
import Mathlib.Algebra.Order.Field.Rat

namespace Geopm

/-! `EditDistEpochRecordFilter::parse_name`: the filter that a name tells, and the one that is
made with the values in the name. -/

/-- A `double` that is read from a text, in exact arithmetic. -/
inductive ReadDouble where
  | finite (value : ℚ)
  | infinite (negative : Bool)
  | nan
deriving DecidableEq

/-- `isspace`. -/
def isSpace (letter : Char) : Bool := letter = ' ' ∨ (9 ≤ letter.toNat ∧ letter.toNat ≤ 13)

/-- A text without its sign, and whether that is a minus. -/
def signed : List Char → Bool × List Char
  | '-' :: rest => (true, rest)
  | '+' :: rest => (false, rest)
  | text => (false, text)

def digitOf (base : Nat) (letter : Char) : Option Nat :=
  let value :=
    if letter.isDigit then letter.toNat - '0'.toNat
    else if letter.isAlpha then letter.toLower.toNat - 'a'.toNat + 10
    else base
  if value < base then some value else none

/-- The digits that a text starts with, and the rest. -/
def digitsOf (base : Nat) : List Char → List Nat × List Char
  | [] => ([], [])
  | letter :: rest =>
      match digitOf base letter with
      | none => ([], letter :: rest)
      | some value => ((value :: (digitsOf base rest).1), (digitsOf base rest).2)

def numeral (base : Nat) (digits : List Nat) : Nat :=
  digits.foldl (fun number digit => number * base + digit) 0

/-- A decimal number with a sign. -/
def wholeNumber (text : List Char) : Option Int :=
  let (negative, rest) := signed text
  match (digitsOf 10 rest).1 with
  | [] => none
  | digits => some (if negative then -(numeral 10 digits : Int) else numeral 10 digits)

/-- `std::stoi`, where nothing stands for an exception. What follows the digits is ignored. -/
def stoi (text : List Char) : Option Int :=
  (wholeNumber (text.dropWhile isSpace)).filter fun value => -2 ^ 31 ≤ value ∧ value < 2 ^ 31

/-- Digits with a point among them or without one, and the rest. -/
def mantissa (base : Nat) (text : List Char) : Option (ℚ × List Char) :=
  let (whole, rest) := digitsOf base text
  let (fraction, left) :=
    match rest with
    | '.' :: after => digitsOf base after
    | _ => ([], rest)
  if whole ++ fraction = [] then none
  else some (numeral base (whole ++ fraction) / base ^ fraction.length, left)

/-- The exponent behind a mantissa, if there is one. -/
def exponent (marker : Char) : List Char → Int
  | [] => 0
  | letter :: rest => if letter.toLower = marker then (wholeNumber rest).getD 0 else 0

/-- A number without a sign, decimal or hexadecimal. -/
def realNumber (text : List Char) : Option ℚ :=
  let decimal := (mantissa 10 text).map fun (value, rest) => value * 10 ^ exponent 'e' rest
  match text with
  | '0' :: letter :: rest =>
      if letter.toLower = 'x' then
        match mantissa 16 rest with
        | none => some 0
        | some (value, rest) => some (value * 2 ^ exponent 'p' rest)
      else decimal
  | _ => decimal

/-- `std::stod`, where nothing stands for an exception. -/
def stod (text : List Char) : Option ReadDouble :=
  let (negative, rest) := signed (text.dropWhile isSpace)
  let letters := rest.map Char.toLower
  if "inf".toList.isPrefixOf letters then some (.infinite negative)
  else if "nan".toList.isPrefixOf letters then some .nan
  else
    match realNumber rest with
    | none => none
    | some value =>
        -- `strtod` reports what a normal number cannot hold
        if value ≠ 0 ∧ (value < 1 / 2 ^ 1022 ∨ 2 ^ 1024 ≤ value) then none
        else some (.finite (if negative then -value else value))

example : stod " -1.25e+1 watts".toList = some (.finite (-25 / 2)) := by decide +kernel

example : stod "0x1.8p1".toList = some (.finite 3) := by decide +kernel

inductive NameError where
  /-- No exception of the source: "string_split() failed." is an assertion. -/
  | noPieces
  /-- "Unknown filter name" -/
  | unknownName
  /-- "EditDistEpochRecordFilter::parse_name(): invalid buffer size" -/
  | invalidBufferSize
  /-- "EditDistEpochRecordFilter::parse_name(): invalid hysteresis base period" -/
  | invalidBasePeriod
  /-- "EditDistEpochRecordFilter::parse_name(): invalid minimum detectable period" -/
  | invalidDetectablePeriod
  /-- "EditDistEpochRecordFilter::parse_name(): invalid stable hysteresis" -/
  | invalidStableHysteresis
  /-- "EditDistEpochRecordFilter::parse_name(): invalid unstable hysteresis" -/
  | invalidUnstableHysteresis
  /-- "Too many commas in filter name" -/
  | tooManyCommas
  /-- The constructor with the values throws. -/
  | filter (reason : FilterError)
deriving DecidableEq

/-- What `parse_name` sets. -/
structure NamedValues where
  historyBufferSize : Int
  minHysteresisBasePeriod : Int
  minDetectablePeriod : Int
  stablePeriodHysteresis : ReadDouble
  unstablePeriodHysteresis : ReadDouble
deriving DecidableEq

/-- `string_split` at commas. -/
def stringSplit (text : List Char) : List (List Char) :=
  if text.isEmpty then [] else text.splitOn ','

section

variable {α : Type}

/-- A piece that is there replaces the default value. -/
def parsePiece (read : List Char → Option α) (default : α) (invalid : NameError)
    (piece : Option (List Char)) : Except NameError α :=
  match piece with
  | none => .ok default
  | some text =>
      match read text with
      | none => .error invalid
      | some value => .ok value

/-- What a field of a name stands for, the default one if there is no such field. -/
def StandsFor (read : List Char → Option α) (default : α) (field : Option (List Char))
    (value : α) : Prop :=
  match field with
  | none => value = default
  | some text => read text = some value

instance [DecidableEq α] (read : List Char → Option α) (default : α) (value : α) :
    ∀ field, Decidable (StandsFor read default field value)
  | none => inferInstanceAs (Decidable (value = default))
  | some text => inferInstanceAs (Decidable (read text = some value))

theorem parsePiece_ok_iff {read : List Char → Option α} {default value : α} {invalid : NameError}
    {piece : Option (List Char)} :
    parsePiece read default invalid piece = .ok value ↔ StandsFor read default piece value := by
  cases piece with
  | none => exact ⟨fun same => (Except.ok.inj same).symm, fun same => congrArg Except.ok same.symm⟩
  | some text =>
      simp only [parsePiece, StandsFor]
      cases read text with
      | none => simp
      | some read => simp

end

namespace EditDistEpochRecordFilter

/-- `parse_name`. -/
def parseName (name : List Char) : Except NameError NamedValues :=
  match stringSplit name with
  | [] => .error .noPieces
  | title :: fields =>
      if title ≠ "edit_distance".toList then .error .unknownName
      else do
        let historyBufferSize ← parsePiece stoi 50 .invalidBufferSize fields[0]?
        let minHysteresisBasePeriod ← parsePiece stoi 4 .invalidBasePeriod fields[1]?
        let minDetectablePeriod ← parsePiece stoi 3 .invalidDetectablePeriod fields[2]?
        let stablePeriodHysteresis ←
          parsePiece stod (.finite 1) .invalidStableHysteresis fields[3]?
        let unstablePeriodHysteresis ←
          parsePiece stod (.finite (3 / 2)) .invalidUnstableHysteresis fields[4]?
        if fields.length > 5 then .error .tooManyCommas
        else .ok { historyBufferSize, minHysteresisBasePeriod, minDetectablePeriod,
                   stablePeriodHysteresis, unstablePeriodHysteresis }

/-- The values that the fields of a name and the defaults of the documentation give. -/
structure Given (fields : List (List Char)) (values : NamedValues) : Prop where
  atMost : fields.length ≤ 5
  historyBufferSize : StandsFor stoi 50 fields[0]? values.historyBufferSize
  minHysteresisBasePeriod : StandsFor stoi 4 fields[1]? values.minHysteresisBasePeriod
  minDetectablePeriod : StandsFor stoi 3 fields[2]? values.minDetectablePeriod
  stablePeriodHysteresis :
    StandsFor stod (.finite 1) fields[3]? values.stablePeriodHysteresis
  unstablePeriodHysteresis :
    StandsFor stod (.finite (3 / 2)) fields[4]? values.unstablePeriodHysteresis

/-- The values that are written in a name. -/
def Writes (name : List Char) (values : NamedValues) : Prop :=
  ∃ fields, (∀ field ∈ fields, ',' ∉ field) ∧
    name = [','].intercalate ("edit_distance".toList :: fields) ∧ Given fields values

section

variable {name text : List Char} {values : NamedValues}

theorem not_mem_of_mem_splitOn {piece : List Char} (member : piece ∈ text.splitOn ',') :
    ',' ∉ piece := by
  induction text generalizing piece with
  | nil =>
      rw [List.splitOn_nil, List.mem_singleton] at member
      simp [member]
  | cons letter rest ih =>
      rw [List.splitOn_cons_eq_if_modifyHead] at member
      split at member
      · cases member with
        | head => simp
        | tail _ later => exact ih later
      · rename_i other
        obtain ⟨first, others, pieces⟩ := List.exists_cons_of_ne_nil (List.splitOn_ne_nil ',' rest)
        rw [pieces] at member
        cases member with
        | head =>
            have apart := ih (pieces ▸ List.mem_cons_self)
            simp only [List.mem_cons, not_or]
            exact ⟨fun same => other (by simp [← same]), apart⟩
        | tail _ later => exact ih (pieces ▸ List.mem_cons_of_mem first later)

theorem stringSplit_eq_cons_iff {title : List Char} {fields : List (List Char)}
    (nonempty : title ≠ []) :
    stringSplit text = title :: fields ↔
      (∀ piece ∈ title :: fields, ',' ∉ piece) ∧ text = [','].intercalate (title :: fields) := by
  constructor
  · intro split
    have filled : text.isEmpty = false := by
      cases empty : text.isEmpty with
      | false => rfl
      | true => simp [stringSplit, empty] at split
    rw [stringSplit, filled, if_neg (by simp)] at split
    rw [← split]
    constructor
    · exact fun piece member => not_mem_of_mem_splitOn member
    · exact (List.intercalate_splitOn ',').symm
  · rintro ⟨apart, rfl⟩
    have filled : ([','].intercalate (title :: fields)).isEmpty = false := by
      cases title with
      | nil => exact absurd rfl nonempty
      | cons letter rest => cases fields <;> rfl
    rw [stringSplit, filled, if_neg (by simp)]
    exact List.splitOn_intercalate ',' apart (by simp)

/-- A name is accepted with the values that are written in it. -/
theorem parseName_ok_iff : parseName name = .ok values ↔ Writes name values := by
  have title : "edit_distance".toList ≠ [] := by decide
  have plain : ',' ∉ "edit_distance".toList := by decide
  have written : ∀ fields, stringSplit name = "edit_distance".toList :: fields ↔
      (∀ field ∈ fields, ',' ∉ field) ∧
        name = [','].intercalate ("edit_distance".toList :: fields) := by
    intro fields
    rw [stringSplit_eq_cons_iff title, List.forall_mem_cons, and_iff_right plain]
  constructor
  · intro parsed
    rw [parseName] at parsed
    cases pieces : stringSplit name with
    | nil => simp [pieces] at parsed
    | cons first fields =>
        simp only [pieces] at parsed
        split at parsed
        · simp at parsed
        · rename_i known
          obtain rfl := not_not.mp known
          obtain ⟨size, sized, parsed⟩ := Transition.ok_of_bind parsed
          obtain ⟨base, based, parsed⟩ := Transition.ok_of_bind parsed
          obtain ⟨detectable, detected, parsed⟩ := Transition.ok_of_bind parsed
          obtain ⟨stable, settled, parsed⟩ := Transition.ok_of_bind parsed
          obtain ⟨unstable, unsettled, parsed⟩ := Transition.ok_of_bind parsed
          split at parsed
          · simp at parsed
          · obtain rfl := Except.ok.inj parsed
            obtain ⟨apart, joined⟩ := (written fields).mp pieces
            exact ⟨fields, apart, joined, by omega, parsePiece_ok_iff.mp sized,
              parsePiece_ok_iff.mp based, parsePiece_ok_iff.mp detected,
              parsePiece_ok_iff.mp settled, parsePiece_ok_iff.mp unsettled⟩
  · rintro ⟨fields, apart, joined, given⟩
    rw [parseName, (written fields).mpr ⟨apart, joined⟩]
    have few := given.atMost
    simp only [ne_eq, not_true_eq_false, if_false, parsePiece_ok_iff.mpr given.historyBufferSize,
      parsePiece_ok_iff.mpr given.minHysteresisBasePeriod,
      parsePiece_ok_iff.mpr given.minDetectablePeriod,
      parsePiece_ok_iff.mpr given.stablePeriodHysteresis,
      parsePiece_ok_iff.mpr given.unstablePeriodHysteresis, bind, Except.bind]
    exact if_neg (by omega)

end

end EditDistEpochRecordFilter

end Geopm
