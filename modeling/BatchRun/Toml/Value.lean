/-!
# TOML values

The values of a settings file. A date or a time counts as the text that it is written as in its
canonical form. The entries of a table are in increasing order of their keys. A place in a list
that was never filled is `absent`; no file writes it.
-/

namespace BatchRun.Toml

/-- A value of a settings file. -/
inductive Value where
  | absent
  | bool (value : Bool)
  | int (value : Int)
  | real (value : Float)
  | text (value : String)
  | list (items : List Value)
  | table (entries : List (String × Value))
  deriving Inhabited

end BatchRun.Toml
