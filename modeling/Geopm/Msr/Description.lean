import Geopm.Json
import Geopm.Msr.Control
import Geopm.PlatformTopo

namespace Geopm

/-! The checks of `MSRIOGroup` on the JSON descriptions of MSRs. -/

inductive DescriptionError where
  /-- "detected a malformed json string: " -/
  | malformed
  /-- "unexpected key " .. " found " -/
  | unexpectedKey (key locMessage : String)
  /-- " key is required " -/
  | keyRequired (key locMessage : String)
  | invalidValue (key message locMessage : String)
  /-- "data for msr " .. " must be an object" -/
  | msrNotObject (msrName : String)
  /-- " field within msr " .. " must be an object" -/
  | fieldNotObject (fieldName msrName : String)
  /-- `std::out_of_range` of `std::stoull` -/
  | offsetOutOfRange
  /-- "PlatformTopo::domain_name_to_type(): unrecognized domain_name: " -/
  | unrecognizedDomain (domainName : String)
  /-- "MSR::string_to_function(): invalid function string" -/
  | invalidFunction
  /-- "IOGroup::string_to_units(): invalid units string" -/
  | invalidUnits
  /-- "IOGroup::string_to_behavior(): invalid behavior string" -/
  | invalidBehavior
  /-- "Agg::name_to_function(): unknown aggregation function: " -/
  | unknownAggregation (name : String)
  /-- "MSRFieldControl: unsupported encode function." -/
  | unsupportedFunction
  /-- "MSRFieldControl: begin bit must be <= end bit" -/
  | beginAfterEnd
  | topo (reason : TopoError)
deriving Repr, DecidableEq

namespace MsrDescription

/-- `json_checker`. -/
structure JsonChecker where
  jsonType : JsonType
  isValid : Json → Except DescriptionError Bool
  message : String

/-- A check of the value of a key. -/
def checkValue (root : Json) (locMessage : String) (check : String × JsonChecker) :
    Except DescriptionError Unit := do
  let obj := root.get check.1
  if obj.type ≠ check.2.jsonType then throw (.invalidValue check.1 check.2.message locMessage)
  else if ← check.2.isValid obj then pure ()
  else throw (.invalidValue check.1 check.2.message locMessage)

/-- `check_expected_key_values`. -/
def checkExpectedKeyValues (root : Json) (requiredKeyMap optionalKeyMap : List (String × JsonChecker))
    (locMessage : String) : Except DescriptionError Unit := do
  root.objectItems.forM fun obj =>
    if requiredKeyMap.any (·.1 = obj.1) || optionalKeyMap.any (·.1 = obj.1) then pure ()
    else throw (.unexpectedKey obj.1 locMessage)
  requiredKeyMap.forM fun keyCheck =>
    if root.has keyCheck.1 then checkValue root locMessage keyCheck
    else throw (.keyRequired keyCheck.1 locMessage)
  optionalKeyMap.forM fun keyCheck =>
    if root.has keyCheck.1 then checkValue root locMessage keyCheck else pure ()

/-- `json_check_null_func`. -/
def jsonCheckNullFunc (_ : Json) : Except DescriptionError Bool := pure true

/-- The value of a hexadecimal digit. -/
def hexDigit (digit : Char) : Option Nat :=
  if '0' ≤ digit ∧ digit ≤ '9' then some (digit.toNat - '0'.toNat)
  else if 'a' ≤ digit ∧ digit ≤ 'f' then some (digit.toNat - 'a'.toNat + 10)
  else if 'A' ≤ digit ∧ digit ≤ 'F' then some (digit.toNat - 'A'.toNat + 10)
  else none

/-- The number that is written at the start. -/
def hexValue : List Char → Nat → Nat
  | [], value => value
  | digit :: rest, value =>
      match hexDigit digit with
      | none => value
      | some other => hexValue rest (value * 16 + other)

/-- `std::stoull` of a string that begins with "0x". -/
def stoull (text : String) : Except DescriptionError Nat :=
  let value := hexValue (text.toList.drop 2) 0
  if value < 2 ^ 64 then pure value else throw .offsetOutOfRange

/-- `json_check_is_hex_string`. -/
def jsonCheckIsHexString (obj : Json) : Bool := obj.stringValue.toList.take 2 = ['0', 'x']

/-- `json_check_is_valid_offset`. -/
def jsonCheckIsValidOffset (obj : Json) : Except DescriptionError Bool :=
  if jsonCheckIsHexString obj then (stoull obj.stringValue).map (· ≠ 0) else pure false

/-- `PlatformTopo::domain_types`. -/
def domainTypes : List (String × Domain) :=
  [("board", .board), ("package", .package), ("core", .core), ("cpu", .cpu),
    ("board_memory", .boardMemory), ("package_memory", .packageMemory), ("board_nic", .boardNic),
    ("package_nic", .packageNic), ("board_accelerator", .boardAccelerator),
    ("package_accelerator", .packageAccelerator)]

/-- `PlatformTopo::domain_name_to_type`. -/
def domainNameToType (domainName : String) : Except DescriptionError Domain :=
  match domainTypes.find? fun entry => entry.1 = domainName with
  | none => throw (.unrecognizedDomain domainName)
  | some entry => pure entry.2

/-- `json_check_is_valid_domain`. -/
def jsonCheckIsValidDomain (domain : Json) : Except DescriptionError Bool :=
  pure (domainNameToType domain.stringValue).isOk

/-- `json_check_is_integer`. -/
def jsonCheckIsInteger (num : Json) : Except DescriptionError Bool :=
  pure (num.numberValue.den = 1 ∧ -2 ^ 31 ≤ num.numberValue ∧ num.numberValue < 2 ^ 31)

/-- The names of the functions of `Agg`. -/
def aggNames : List String :=
  ["sum", "average", "median", "logical_and", "logical_or", "region_hash", "region_hint", "min", "max",
    "stddev", "select_first", "expect_same"]

/-- `Agg::name_to_function`, where a function is told by its name. -/
def nameToFunction (name : String) : Except DescriptionError String :=
  if name ∈ aggNames then pure name else throw (.unknownAggregation name)

/-- `json_check_is_valid_aggregation`. -/
def jsonCheckIsValidAggregation (obj : Json) : Except DescriptionError Bool :=
  pure (nameToFunction obj.stringValue).isOk

/-- `check_top_level`. -/
def checkTopLevel (root : Json) : Except DescriptionError Unit :=
  checkExpectedKeyValues root [("msrs", ⟨.object, jsonCheckNullFunc, "must be an object"⟩)] [] "at top level"

/-- `check_msr_root`. -/
def checkMsrRoot (msrRoot : Json) (msrName : String) : Except DescriptionError Unit :=
  if msrRoot.type ≠ .object then throw (.msrNotObject msrName)
  else checkExpectedKeyValues msrRoot
    [("domain", ⟨.string, jsonCheckIsValidDomain, "must be a valid domain string"⟩),
      ("fields", ⟨.object, jsonCheckNullFunc, "must be an object"⟩),
      ("offset", ⟨.string, jsonCheckIsValidOffset, "must be a hex string and non-zero"⟩)] []
    ("in msr \"" ++ msrName ++ "\"")

/-- `check_msr_field`. -/
def checkMsrField (msrField : Json) (msrName fieldName : String) : Except DescriptionError Unit :=
  if msrField.type ≠ .object then throw (.fieldNotObject fieldName msrName)
  else checkExpectedKeyValues msrField
    [("begin_bit", ⟨.number, jsonCheckIsInteger, "must be an integer"⟩),
      ("behavior", ⟨.string, jsonCheckNullFunc, "must be a valid behavior string"⟩),
      ("end_bit", ⟨.number, jsonCheckIsInteger, "must be an integer"⟩),
      ("function", ⟨.string, jsonCheckNullFunc, "must be a valid function string"⟩),
      ("scalar", ⟨.number, jsonCheckNullFunc, "must be a number"⟩),
      ("units", ⟨.string, jsonCheckNullFunc, "must be a string"⟩),
      ("writeable", ⟨.bool, jsonCheckNullFunc, "must be a bool"⟩)]
    [("aggregation", ⟨.string, jsonCheckIsValidAggregation, "must be a valid aggregation function name"⟩),
      ("description", ⟨.string, jsonCheckNullFunc, "must be a string"⟩)]
    ("in \"" ++ msrName ++ ":" ++ fieldName ++ "\"")

end MsrDescription

end Geopm
