import Mathlib.Data.Rat.Defs

namespace Geopm

/-! The values of `json11`. -/

/-- `Json`. The items of an object are in the order of their keys. -/
inductive Json where
  | null
  | number (value : ℚ)
  | bool (value : Bool)
  | string (value : String)
  | array (items : List Json)
  | object (items : List (String × Json))

/-- `Json::Type`. -/
inductive JsonType where
  | null
  | number
  | bool
  | string
  | array
  | object
deriving Repr, DecidableEq

namespace Json

/-- `type`. -/
def type : Json → JsonType
  | .null => .null
  | .number _ => .number
  | .bool _ => .bool
  | .string _ => .string
  | .array _ => .array
  | .object _ => .object

/-- `object_items`. -/
def objectItems : Json → List (String × Json)
  | .object items => items
  | _ => []

/-- `string_value`. -/
def stringValue : Json → String
  | .string value => value
  | _ => ""

/-- `number_value`. -/
def numberValue : Json → ℚ
  | .number value => value
  | _ => 0

/-- `bool_value`. -/
def boolValue : Json → Bool
  | .bool value => value
  | _ => false

/-- The item of a key, which is null where there is none. -/
def get (json : Json) (key : String) : Json :=
  ((json.objectItems.find? fun item => item.1 = key).map Prod.snd).getD .null

/-- An item has the key. -/
def has (json : Json) (key : String) : Bool := json.objectItems.any fun item => item.1 = key

theorem eq_object {json : Json} (typed : json.type = .object) : json = .object json.objectItems := by
  cases json with
  | object items => rfl
  | null | number | bool | string | array => cases typed

end Json

end Geopm
