import BatchRun.Json.Basic

/-!
# Looking into JSON values

Lenient access to values whose shape is taken for granted, as in scripts: what is missing is
null, and a value of another kind counts as empty, zero or false. Numbers that JSON has no text
for are written as texts.
-/

namespace BatchRun.Json

/-- Whether a value is null. -/
def isNull : Json → Bool
  | .null => true
  | _ => false

/-- The value of a field; a missing one is null. -/
def get (j : Json) (name : String) : Json := (j.field? name).getD .null

/-- Whether a field is there and not null. -/
def has (j : Json) (name : String) : Bool := !(j.get name).isNull

/-- What a value stands for, unless it is null. -/
def given {α : Type} (f : Json → α) (j : Json) : Option α := if j.isNull then none else some (f j)

/-- The items of a list. -/
def items : Json → List Json
  | .list items => items
  | _ => []

/-- The item at a position of a list. -/
def item (j : Json) (position : Nat) : Json := (j.items[position]?).getD .null

/-- The fields of an object. -/
def members : Json → List (String × Json)
  | .object fields => fields
  | _ => []

/-- The pairs of names and values that a list of lists holds. -/
def pairs (j : Json) : List (String × Json) :=
  j.items.map fun pair => ((pair.item 0).text?.getD "", pair.item 1)

/-- A truth value. -/
def asBool : Json → Bool
  | .bool b => b
  | _ => false

/-- A field that is a truth value. -/
def flag (j : Json) (name : String) : Bool := (j.get name).asBool

/-- A text. -/
def asText (j : Json) : String := j.text?.getD ""

/-- A field that is a text. -/
def textOf (j : Json) (name : String) : String := (j.get name).asText

/-- A list of texts. -/
def asTexts (j : Json) : List String := j.items.map asText

/-- A whole number; a large one may be written as a text. -/
def asInt : Json → Int
  | .int n => n
  | .text s => s.toInt?.getD 0
  | _ => 0

/-- A whole number that is not negative. -/
def asNat (j : Json) : Nat := j.asInt.toNat

/-- A field that is a whole number and not negative. -/
def natOf (j : Json) (name : String) : Nat := (j.get name).asNat

/-- A number with a fractional part. -/
def asFloat : Json → Float
  | .int n => Float.ofInt n
  | .real x => x
  | .text "NaN" => 0.0 / 0.0
  | .text "inf" => 1.0 / 0.0
  | .text "-inf" => -1.0 / 0.0
  | .text "-0" => -0.0
  | _ => 0.0

/-- A field that is a number with a fractional part. -/
def floatOf (j : Json) (name : String) : Float := (j.get name).asFloat

end BatchRun.Json
