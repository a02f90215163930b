import Geopm.Library.Assoc
import Geopm.Library.Run
import Geopm.Msr.Description
import Geopm.Record

namespace Geopm

/-! `MSRIOGroup`: the signals and controls that are made from descriptions of MSRs, and the list of the
writable bits for the kernel. -/

namespace MsrDescription

open FieldControl (fieldMask)

/-- `m_function_e`. -/
inductive MsrFunction where
  | scale
  | logHalf
  | sevenBitFloat
  | overflow
deriving Repr, DecidableEq

/-- `m_units_e`. -/
inductive Units where
  | none
  | seconds
  | hertz
  | watts
  | joules
  | celsius
deriving Repr, DecidableEq

/-- `m_signal_behavior_e`. -/
inductive Behavior where
  | constant
  | monotone
  | varying
  | label
deriving Repr, DecidableEq

/-- A field within an MSR and how it is decoded. -/
structure MsrField where
  beginBit : Int
  endBit : Int
  function : MsrFunction
  scalar : ℚ
deriving Repr, DecidableEq

/-- An entry of `m_signal_available`, with the offset of the MSR of its signals. -/
structure SignalEntry where
  offset : Nat
  field : Option MsrField
  domain : Domain
  units : Units
  aggFunction : String
  description : String
  behavior : Behavior
deriving Repr, DecidableEq

/-- An entry of `m_control_available`, with the offset of the MSR of its controls. -/
structure ControlEntry where
  offset : Nat
  field : MsrField
  domain : Domain
  units : Units
  description : String
deriving Repr, DecidableEq

/-- The mask of the bits of a field. -/
def maskOf (beginBit endBit : Int) : Word := fieldMask beginBit.toNat endBit.toNat

/-- `MSRIOGroup`, as far as descriptions are added to it. -/
structure Registered where
  signalAvailable : List (String × SignalEntry)
  controlAvailable : List (String × ControlEntry)
deriving Repr, DecidableEq

/-- `MSR::string_to_function`. -/
def stringToFunction (str : String) : Except DescriptionError MsrFunction :=
  match Assoc.lookup str [("scale", .scale), ("log_half", .logHalf), ("7_bit_float", .sevenBitFloat),
    ("overflow", .overflow)] with
  | none => throw .invalidFunction
  | some function => pure function

/-- `IOGroup::string_to_units`. -/
def stringToUnits (str : String) : Except DescriptionError Units :=
  match Assoc.lookup str [("none", .none), ("seconds", .seconds), ("hertz", .hertz), ("watts", .watts),
    ("joules", .joules), ("celsius", .celsius)] with
  | none => throw .invalidUnits
  | some units => pure units

/-- `IOGroup::string_to_behavior`. -/
def stringToBehavior (str : String) : Except DescriptionError Behavior :=
  match Assoc.lookup str [("constant", .constant), ("monotone", .monotone), ("variable", .varying),
    ("label", .label)] with
  | none => throw .invalidBehavior
  | some behavior => pure behavior

/-- `M_DEFAULT_DESCRIPTION`. -/
def defaultDescription : String :=
  "Refer to the Intel(R) 64 and IA-32 Architectures Software Developer's Manual for information about this MSR"

/-- `M_NAME_PREFIX`. -/
def namePrefix : String := "MSR::"

section Definitions

variable (parse : String → Option Json) (topo : PlatformTopo)

/-- The CPUs of each domain of a type. -/
def nestedCpus (domainType : Domain) : Except DescriptionError (List (Finset Int)) :=
  (List.range (topo.numDomain domainType)).mapM fun domainIdx =>
    (topo.domainNested .cpu domainType domainIdx).mapError .topo

/-- `add_raw_msr_signal`. -/
def addRawMsrSignal (msrName : String) (domainType : Domain) (msrOffset : Nat) (group : Registered) :
    Except DescriptionError Registered := do
  let _ ← nestedCpus topo domainType
  pure { group with signalAvailable := Assoc.assign (namePrefix ++ msrName ++ "#") {
    offset := msrOffset
    field := none
    domain := domainType
    units := .none
    aggFunction := "select_first"
    description := defaultDescription
    behavior := .label } group.signalAvailable }

/-- `add_msr_field_signal`. -/
def addMsrFieldSignal (msrName msrFieldName : String) (domainType : Domain) (field : MsrField)
    (units : Units) (aggFunction description : String) (behavior : Behavior) (group : Registered) :
    Except DescriptionError Registered := do
  match Assoc.lookup (namePrefix ++ msrName ++ "#") group.signalAvailable with
  | none => throw (.keyRequired msrName "m_signal_available")
  | some rawMsr =>
      let aggFunction ← nameToFunction aggFunction
      pure { group with signalAvailable := Assoc.assign msrFieldName {
        offset := rawMsr.offset
        field := some field
        domain := domainType
        units := units
        aggFunction := aggFunction
        description := description
        behavior := behavior } group.signalAvailable }

/-- What the constructor of `MSRFieldControl` throws. -/
def newFieldControl (field : MsrField) : Except DescriptionError Unit :=
  if field.function = .overflow then throw .unsupportedFunction
  else if field.endBit < field.beginBit then throw .beginAfterEnd
  else pure ()

/-- `add_msr_field_control`, which makes a control for each CPU of each domain. -/
def addMsrFieldControl (msrFieldName : String) (domainType : Domain) (msrOffset : Nat) (field : MsrField)
    (units : Units) (description : String) (group : Registered) : Except DescriptionError Registered := do
  let cpus ← nestedCpus topo domainType
  if cpus.any (·.card ≠ 0) then newFieldControl field
  pure { group with controlAvailable := Assoc.assign msrFieldName {
    offset := msrOffset
    field := field
    domain := domainType
    units := units
    description := description } group.controlAvailable }

/-- The loop over the fields in `parse_json_msrs`. -/
def parseField (msrName : String) (msrOffset : Nat) (domainType : Domain) (group : Registered)
    (field : String × Json) : Except DescriptionError Registered := do
  let sigCtlName := namePrefix ++ (msrName ++ ":" ++ field.1)
  checkMsrField field.2 msrName field.1
  let fieldData := field.2
  let function ← stringToFunction (fieldData.get "function").stringValue
  let units ← stringToUnits (fieldData.get "units").stringValue
  let behavior ← stringToBehavior (fieldData.get "behavior").stringValue
  let msrField : MsrField := {
    beginBit := truncate (fieldData.get "begin_bit").numberValue
    endBit := truncate (fieldData.get "end_bit").numberValue
    function
    scalar := (fieldData.get "scalar").numberValue }
  let aggFunction :=
    if fieldData.has "aggregation" then (fieldData.get "aggregation").stringValue else "select_first"
  let description :=
    if fieldData.has "description" then (fieldData.get "description").stringValue else defaultDescription
  let group ← addMsrFieldSignal msrName sigCtlName domainType msrField units aggFunction description
    behavior group
  if (fieldData.get "writeable").boolValue then
    addMsrFieldControl topo sigCtlName domainType msrOffset msrField units description group
  else pure group

/-- The loop over the MSRs in `parse_json_msrs`. -/
def parseMsr (group : Registered) (msr : String × Json) : Except DescriptionError Registered := do
  checkMsrRoot msr.2 msr.1
  let msrOffset ← stoull (msr.2.get "offset").stringValue
  let domainType ← domainNameToType (msr.2.get "domain").stringValue
  let group ← addRawMsrSignal topo msr.1 domainType msrOffset group
  (msr.2.get "fields").objectItems.foldlM (parseField topo msr.1 msrOffset domainType) group

/-- The start of both functions that parse a description. -/
def parseRoot (str : String) : Except DescriptionError Json :=
  match parse str with
  | some (.object items) => pure (.object items)
  | _ => throw .malformed

/-- `parse_json_msrs`. -/
def parseJsonMsrs (group : Registered) (str : String) : Except DescriptionError Registered := do
  let root ← parseRoot parse str
  checkTopLevel root
  (root.get "msrs").objectItems.foldlM (parseMsr topo) group

/-- The mask that a field adds in `parse_json_msrs_allowlist`. -/
def allowField (msrName : String) (combinedWriteMask : Word) (field : String × Json) :
    Except DescriptionError Word := do
  checkMsrField field.2 msrName field.1
  let beginBit := truncate (field.2.get "begin_bit").numberValue
  let endBit := truncate (field.2.get "end_bit").numberValue
  if (field.2.get "writeable").boolValue then pure (combinedWriteMask ||| maskOf beginBit endBit)
  else pure combinedWriteMask

/-- The loop over the MSRs in `parse_json_msrs_allowlist`. -/
def allowMsr (allowlistData : List (Nat × Word × String)) (msr : String × Json) :
    Except DescriptionError (List (Nat × Word × String)) := do
  checkMsrRoot msr.2 msr.1
  let msrOffset ← stoull (msr.2.get "offset").stringValue
  let combinedWriteMask ← (msr.2.get "fields").objectItems.foldlM (allowField msr.1) 0
  pure (Assoc.assign msrOffset (combinedWriteMask, msr.1) allowlistData)

/-- `parse_json_msrs_allowlist`. -/
def parseJsonMsrsAllowlist (allowlistData : List (Nat × Word × String)) (str : String) :
    Except DescriptionError (List (Nat × Word × String)) := do
  let root ← parseRoot parse str
  checkTopLevel root
  (root.get "msrs").objectItems.foldlM allowMsr allowlistData

/-- The descriptions for a platform: two that are built in, and the files that `msr_data_files` has
found, by their names with what they contain. -/
structure MsrFiles where
  archMsrJson : String
  platformData : String
  custom : List (String × String)
  named : ∀ file ∈ custom, ".json".toList <:+ file.1.toList

/-- The constructor of `MSRIOGroup`. -/
def register (files : MsrFiles) : Except DescriptionError Registered := do
  let group ← parseJsonMsrs parse topo ⟨[], []⟩ files.archMsrJson
  let group ← parseJsonMsrs parse topo group files.platformData
  files.custom.foldlM (fun group file => parseJsonMsrs parse topo group file.2) group

/-- `msr_allowlist` before it is formatted. -/
def msrAllowlistData (files : MsrFiles) : Except DescriptionError (List (Nat × Word × String)) := do
  let allowlistData ← parseJsonMsrsAllowlist parse [] files.archMsrJson
  let allowlistData ← parseJsonMsrsAllowlist parse allowlistData files.platformData
  files.custom.foldlM (fun allowlistData file => parseJsonMsrsAllowlist parse allowlistData file.1)
    allowlistData

/-- A number in hexadecimal digits with zeros before them. -/
def hexDigits (width value : Nat) : String :=
  let digits := Nat.toDigits 16 value
  String.ofList (List.replicate (width - digits.length) '0' ++ digits)

/-- `format_allowlist`. -/
def formatAllowlist (allowlistData : List (Nat × Word × String)) : String :=
  "# MSR        Write Mask           # Comment\n" ++
    String.join ((allowlistData.insertionSort fun left right => left.1 ≤ right.1).map fun entry =>
      "0x" ++ hexDigits 8 entry.1 ++ "   " ++ "0x" ++ hexDigits 16 entry.2.1.toNat ++ "   # " ++
        "\"" ++ entry.2.2 ++ "\"\n")

/-- `msr_allowlist`. -/
def msrAllowlist (files : MsrFiles) : Except DescriptionError String :=
  (msrAllowlistData parse files).map formatAllowlist

end Definitions

end MsrDescription

end Geopm
