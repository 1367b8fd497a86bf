import BatchRun.Text.Quoted

/-!
# Descriptions of records

The one-line description of a record: its name, and its fields with their values between braces.
-/

namespace BatchRun.Text

/-- A record with the descriptions of its fields. -/
def record (name : String) (fields : List (String × String)) : String :=
  name ++ " \x7b " ++ ", ".intercalate (fields.map fun f => f.1 ++ ": " ++ f.2) ++ " \x7d"

/-- A value that may be missing. -/
def optional {α : Type} (describe : α → String) : Option α → String
  | none => "None"
  | some a => "Some(" ++ describe a ++ ")"

end BatchRun.Text
