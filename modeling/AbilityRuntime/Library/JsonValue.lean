import AbilityRuntime.Library.SortedMap

/-! JSON values and the readers of a member that ask for its kind first. -/

inductive JsonValue where
  | null
  | bool (value : Bool)
  | integer (value : Int)
  | float (mantissa exponent : Int)
  | string (value : String)
  | array (elements : List JsonValue)
  | object (fields : List (String × JsonValue))

namespace JsonValue

def find? (key : String) : JsonValue → Option JsonValue
  | .object fields => KeyList.find? key fields
  | _ => none

def items : JsonValue → List JsonValue
  | .null => []
  | .array elements => elements
  | .object fields => fields.map Prod.snd
  | value => [value]

def string? : JsonValue → Option String
  | .string value => some value
  | _ => none

def integer? : JsonValue → Option Int
  | .integer value => some value
  | _ => none

def array? : JsonValue → Option (List JsonValue)
  | .array elements => some elements
  | _ => none

def stringAt (key : String) (object : JsonValue) : Option String := (object.find? key).bind string?

def arrayAt (key : String) (object : JsonValue) : Option (List JsonValue) :=
  (object.find? key).bind array?

def number? : JsonValue → Option Int
  | .integer value => some value
  | .float mantissa exponent =>
    some ((mantissa * Int.pow 10 exponent.toNat).tdiv (Int.pow 10 (-exponent).toNat))
  | _ => none

def bool? : JsonValue → Option Bool
  | .bool value => some value
  | _ => none

def numberAt (key : String) (object : JsonValue) : Option Int := (object.find? key).bind number?

def boolAt (key : String) (object : JsonValue) : Option Bool := (object.find? key).bind bool?

end JsonValue
