import BatchRun.SortedMap

/-!
# JSON values

Signals travel between workers and the control node as JSON values, and settings are stored as
such. A whole number is kept apart from a number with a fractional part: `2` and `2.0` are
different values. The fields of an object are in increasing order of their names.

## Main definitions

* `Json`: the values
* `Json.record`: an object from fields in any order
* `Json.same`: equality of values, with numbers compared as numbers
-/

namespace BatchRun

/-- A JSON value. -/
inductive Json where
  | null
  | bool (value : Bool)
  | int (value : Int)
  | real (value : Float)
  | text (value : String)
  | list (items : List Json)
  | object (fields : List (String × Json))
  deriving Inhabited

namespace Json

/-- An object with the given fields; of two with one name the later one stays. -/
def record (fields : List (String × Json)) : Json :=
  .object (SortedMap.ofList fields).entries

/-- The value of a field of an object. -/
def field? (name : String) : Json → Option Json
  | .object fields => SortedMap.lookup name fields
  | _ => none

/-- The value with a field set, if it is an object. -/
def setField (j : Json) (name : String) (value : Json) : Json :=
  match j with
  | .object fields => .object (SortedMap.insertEntry name value fields)
  | j => j

/-- The value without a field. -/
def dropField (j : Json) (name : String) : Json :=
  match j with
  | .object fields => .object (fields.filter (·.1 != name))
  | j => j

/-- The text that a value is. -/
def text? : Json → Option String
  | .text s => some s
  | _ => none

mutual

/-- Whether two values are equal. Numbers with a fractional part are compared as numbers, so
that the two zeros are equal. -/
def same : Json → Json → Bool
  | .null, .null => true
  | .bool a, .bool b => a == b
  | .int a, .int b => a == b
  | .real a, .real b => a == b
  | .text a, .text b => a == b
  | .list a, .list b => sameItems a b
  | .object a, .object b => sameFields a b
  | _, _ => false

/-- Whether two lists hold equal values. -/
def sameItems : List Json → List Json → Bool
  | [], [] => true
  | a :: as, b :: bs => same a b && sameItems as bs
  | _, _ => false

/-- Whether two lists of fields have the same names and equal values. -/
def sameFields : List (String × Json) → List (String × Json) → Bool
  | [], [] => true
  | (name, a) :: as, (name', b) :: bs => name == name' && same a b && sameFields as bs
  | _, _ => false

end

end Json

end BatchRun
