import BatchRun.Number.Layout
import BatchRun.Text.Quoted
import BatchRun.Workload

/-!
# Group keys

Keys by which items are grouped, of any of several kinds. Keys of different kinds are different.
Keys that are numbers with a fractional part compare as numbers do: the two zeros are the same
key, and what is not a number is the same key as nothing, not even as itself.
-/

namespace BatchRun

/-- A key of a group of items. -/
inductive GroupKey where
  | unit
  | bool (value : Bool)
  | int (value : Int)
  | text (value : String)
  | list (items : List GroupKey)
  | real (value : Float)
  | char (value : Char)
  | some (key : GroupKey)
  | none
  deriving Inhabited

namespace GroupKey

mutual

/-- Whether two keys are the same. -/
def same : GroupKey → GroupKey → Bool
  | .unit, .unit => true
  | .bool a, .bool b => a == b
  | .int a, .int b => a == b
  | .text a, .text b => a == b
  | .list a, .list b => sameItems a b
  | .real a, .real b => a == b
  | .char a, .char b => a == b
  | .some a, .some b => same a b
  | .none, .none => true
  | _, _ => false

/-- Whether two lists hold the same keys. -/
def sameItems : List GroupKey → List GroupKey → Bool
  | [], [] => true
  | a :: as, b :: bs => same a b && sameItems as bs
  | _, _ => false

end

instance : BEq GroupKey := ⟨same⟩

mutual

/-- The text of a key. -/
def describe : GroupKey → String
  | .unit => "()"
  | .bool b => if b then "true" else "false"
  | .int n => toString n
  | .text s => Text.quoted s
  | .list items => "[" ++ ", ".intercalate (describeItems items) ++ "]"
  | .real x => Number.float64Text .debug x
  | .char c => Text.quotedChar c
  | .some key => "Some(" ++ describe key ++ ")"
  | .none => "None"

/-- The texts of the keys of a list. -/
def describeItems : List GroupKey → List String
  | [] => []
  | key :: rest => describe key :: describeItems rest

end

instance : Described GroupKey := ⟨describe⟩

end GroupKey

end BatchRun
