import BatchRun.Json.Basic
import BatchRun.Number.Layout
import BatchRun.Text.Quoted

/-!
# Decoding JSON values

Decoders turn a JSON value into a value of the library, or say why they cannot. A record may be
an object, whose unknown fields are ignored, or a list of its fields in the order of their
declaration. The fields of an object are visited in the order of their names, and the first one
that cannot be decoded is reported; what is missing is looked for afterwards.

## Main definitions

* `DecodeError`: why a value cannot be decoded, and `DecodeError.message`
* `whole64`, `number`, `boolean`, `string`, `optional`, `variant`: decoders of plain values
* `RecordShape.decode`: the decoder of a record
-/

namespace BatchRun.Json

/-- Why a value cannot be decoded. -/
inductive DecodeError where
  /-- A value of another kind. -/
  | wrongKind (found : Json) (expected : String)
  /-- A value of the right kind that is out of range. -/
  | wrongValue (found : Json) (expected : String)
  /-- A list with too few or too many items. -/
  | wrongLength (length : Nat) (expected : String)
  | missingField (name : String)
  | unknownVariant (name : String) (known : List String)
  /-- A text that does not say what it should. -/
  | badText (reason : String)

/-- What a value is called in messages. -/
def describe : Json → String
  | .null => "null"
  | .bool b => "boolean `" ++ (if b then "true" else "false") ++ "`"
  | .int n => "integer `" ++ toString n ++ "`"
  | .real x => "floating point `" ++ Number.float64Text .json x ++ "`"
  | .text s => "string " ++ Text.quoted s
  | .list _ => "sequence"
  | .object _ => "map"

private def ticked (name : String) : String := "`" ++ name ++ "`"

/-- The names of variants in messages. -/
def expectedVariants : List String → String
  | [] => "there are no variants"
  | [a] => "expected " ++ ticked a
  | [a, b] => "expected " ++ ticked a ++ " or " ++ ticked b
  | names => "expected one of " ++ ", ".intercalate (names.map ticked)

/-- The wording of a decoding error. -/
def DecodeError.message : DecodeError → String
  | .wrongKind found expected => "invalid type: " ++ describe found ++ ", expected " ++ expected
  | .wrongValue found expected => "invalid value: " ++ describe found ++ ", expected " ++ expected
  | .wrongLength length expected =>
    "invalid length " ++ toString length ++ ", expected " ++ expected
  | .missingField name => "missing field " ++ ticked name
  | .unknownVariant name [] => "unknown variant " ++ ticked name ++ ", there are no variants"
  | .unknownVariant name known =>
    "unknown variant " ++ ticked name ++ ", " ++ expectedVariants known
  | .badText reason => reason

/-- A decoder of `α`. -/
abbrev Decoder (α : Type) := Json → Except DecodeError α

/-- A non-negative whole number of 64 bits. -/
def whole64 (expected : String) : Decoder Nat
  | .int n =>
    if 0 ≤ n ∧ n < UInt64.size then .ok n.toNat else .error (.wrongValue (.int n) expected)
  | found => .error (.wrongKind found expected)

/-- A number; whole numbers count. -/
def number (expected : String) : Decoder Float
  | .real x => .ok x
  | .int n => .ok (Float.ofInt n)
  | found => .error (.wrongKind found expected)

/-- A truth value. -/
def boolean : Decoder Bool
  | .bool b => .ok b
  | found => .error (.wrongKind found "a boolean")

/-- A text. -/
def string : Decoder String
  | .text s => .ok s
  | found => .error (.wrongKind found "a string")

/-- Any object, as its fields. -/
def fields : Decoder (List (String × Json))
  | .object fields => .ok fields
  | found => .error (.wrongKind found "a map")

/-- A value that may be null. -/
def optional {α : Type} (decode : Decoder α) : Decoder (Option α)
  | .null => .ok none
  | found => (decode found).map some

/-- One of several named variants: its name, or an object with that name over null. -/
def variant {α : Type} (known : List (String × α)) : Decoder α
  | .text name => named name
  | .object [(name, content)] =>
    match named name, content with
    | .ok a, .null => .ok a
    | .ok _, content => .error (.wrongKind content "unit")
    | .error e, _ => .error e
  | .object fields => .error (.wrongValue (.object fields) "map with a single key")
  | found => .error (.wrongKind found "string or map")
where
  /-- The variant of a name. -/
  named (name : String) : Except DecodeError α :=
    match known.lookup name with
    | some a => .ok a
    | none => .error (.unknownVariant name (known.map Prod.fst))

/-- A field of a record of type `ρ`: its name, whether it must be there, and how its value goes
into the record. -/
structure FieldShape (ρ : Type) where
  name : String
  required : Bool
  store : Json → ρ → Except DecodeError ρ

/-- A field that is decoded and then stored. -/
def FieldShape.of {ρ α : Type} (name : String) (required : Bool) (decode : Decoder α)
    (set : α → ρ → ρ) : FieldShape ρ :=
  ⟨name, required, fun value r => (decode value).map (set · r)⟩

/-- How a record is read: its name in messages, its fields in the order of their declaration,
and the record that the fields are stored into. -/
structure RecordShape (ρ : Type) where
  name : String
  fields : List (FieldShape ρ)
  blank : ρ

namespace RecordShape

variable {ρ : Type}

/-- The field with a given name. -/
def field? (shape : RecordShape ρ) (name : String) : Option (FieldShape ρ) :=
  shape.fields.find? (·.name == name)

/-- Store the fields of an object, in their order. -/
def storeFields (shape : RecordShape ρ) : List (String × Json) → ρ → Except DecodeError ρ
  | [], r => .ok r
  | (name, value) :: rest, r =>
    match shape.field? name with
    | none => storeFields shape rest r
    | some field =>
      match field.store value r with
      | .ok r => storeFields shape rest r
      | .error e => .error e

/-- Store the items of a list into the fields, in the order of declaration. A required field
without an item makes the list too short, at the position of that field. -/
def storeItems (shape : RecordShape ρ) :
    List (FieldShape ρ) → List Json → Nat → ρ → Except DecodeError ρ
  | [], _, _, r => .ok r
  | field :: fields, [], position, r =>
    if field.required then
      .error (.wrongLength position
        ("struct " ++ shape.name ++ " with " ++ toString shape.fields.length ++ " elements"))
    else storeItems shape fields [] (position + 1) r
  | field :: fields, item :: items, position, r =>
    match field.store item r with
    | .ok r => storeItems shape fields items (position + 1) r
    | .error e => .error e

/-- The first required field, in the order of declaration, that an object does not have. -/
def missing? (shape : RecordShape ρ) (given : List (String × Json)) : Option String :=
  (shape.fields.find? fun field =>
    field.required && !given.any (·.1 == field.name)).map (·.name)

/-- Decode a record. -/
def decode (shape : RecordShape ρ) : Decoder ρ
  | .object given =>
    match shape.storeFields given shape.blank with
    | .error e => .error e
    | .ok r =>
      match shape.missing? given with
      | some name => .error (.missingField name)
      | none => .ok r
  | .list items =>
    match shape.storeItems shape.fields items 0 shape.blank with
    | .error e => .error e
    | .ok r =>
      if shape.fields.length < items.length then
        .error (.wrongLength items.length "fewer elements in array")
      else .ok r
  | found => .error (.wrongKind found ("struct " ++ shape.name))

end RecordShape

end BatchRun.Json
