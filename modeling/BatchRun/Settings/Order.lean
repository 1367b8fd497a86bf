import BatchRun.Toml.Value

/-!
# The order of keys

A table has no order of its own. Whenever it is gone through its keys come up in some order, and it
may be another one the next time. What comes of settings should not depend on that order, and where
it does, any order is possible.

## Main definitions

* `Order`: the order in which the keys of tables come up
* `arranged`: a value with the keys of its tables in that order
-/

namespace BatchRun.Settings

open BatchRun.Toml (Value)

/-- In which order the keys of a table and of the tables in it come up. Each table is named by the
keys that lead to it, and gives its keys ranks: of two keys, that of the lower rank comes first. -/
abbrev Order := List String → String → Nat

/-- Entries with another one in front of those that have no lower rank. -/
def insertRanked (rank : String → Nat) (e : String × Value) :
    List (String × Value) → List (String × Value)
  | [] => [e]
  | next :: rest =>
    if rank e.1 ≤ rank next.1 then e :: next :: rest else next :: insertRanked rank e rest

/-- Entries by the ranks of their keys. -/
def ranked (rank : String → Nat) (entries : List (String × Value)) : List (String × Value) :=
  entries.foldr (insertRanked rank) []

mutual

/-- A value with the keys of its tables as they come up. Tables in lists are never gone through. -/
def arranged (order : Order) (place : List String) : Value → Value
  | .table entries => .table (ranked (order place) (allArranged order place entries))
  | v => v

/-- Entries with their values arranged. -/
def allArranged (order : Order) (place : List String) :
    List (String × Value) → List (String × Value)
  | [] => []
  | (key, v) :: rest => (key, arranged order (place ++ [key]) v) :: allArranged order place rest

end

end BatchRun.Settings
