import BatchRun.SortedMap
import BatchRun.Toml.Moment
import BatchRun.Toml.Value

/-!
# Tables of TOML while a file is read

A table may be spread over a file, but never be defined twice. While a file is read, a table
therefore remembers how it came about: under a header of its own, on the way to the header of
another table, or on the way to a key with points. It also remembers the order of its keys,
because the first one can mark a table as a date or time.

## Main definitions

* `Node`, `Entries`: what is read so far
* `setKey`, `openTable`, `openRow`: a key with its value, a header, and a header of a list of tables
* `Node.finish`: the value that was read
-/

namespace BatchRun.Toml

/-- What is read of a value so far. -/
inductive Node where
  /-- A text between quotes. -/
  | text (text : String)
  /-- A value of any other kind that has no parts. -/
  | single (value : Value)
  | list (items : List Node)
  /-- A table between braces, which nothing extends. -/
  | closed (entries : List (String × Node))
  /-- `onTheWay`: no header names the table; `pointed`: it came about from a key with points. -/
  | table (onTheWay pointed : Bool) (entries : List (String × Node))
  | rows (tables : List (List (String × Node)))

/-- The entries of a table under construction, in the order in which their keys came up. -/
abbrev Entries := List (String × Node)

/-- Put a node in the place of the one with its key, or at the end if there is none. -/
def put (key : String) (node : Node) : Entries → Entries
  | [] => [(key, node)]
  | (k, n) :: rest => if k == key then (k, node) :: rest else (k, n) :: put key node rest

/-- Change the table at the end of a path; tables that are missing on the way come about, pointed
or not. The change learns whether the table at the end is a pointed one. -/
def changeAt (pointed : Bool) (change : Bool → Entries → Option Entries) :
    List String → Bool → Entries → Option Entries
  | [], isPointed, entries => change isPointed entries
  | key :: path, _, entries =>
    match entries.lookup key with
    | none =>
      (changeAt pointed change path pointed []).map fun inner =>
        put key (.table true pointed inner) entries
    | some (.table onTheWay isPointed inner) =>
      -- keys with points do not extend a table that has a header of its own
      if pointed && !onTheWay then none
      else
        (changeAt pointed change path isPointed inner).map fun inner =>
          put key (.table onTheWay isPointed inner) entries
    | some (.rows tables) =>
      match tables.reverse with
      | [] => none
      | last :: before =>
        (changeAt pointed change path false last).map fun last =>
          put key (.rows (last :: before).reverse) entries
    | some _ => none

/-- Give a key with points a value. It must be new, and its table must be one that only such keys
define. -/
def setKey (path : List String) (key : String) (node : Node) (entries : Entries) :
    Option Entries :=
  changeAt true
    (fun isPointed entries =>
      if isPointed == path.isEmpty then none
      else
        match entries.lookup key with
        | none => some (put key node entries)
        | some _ => none)
    path false entries

/-- Open the table of a header. It must be new, or so far only have been on the way; then its key
comes up again. -/
def openTable (path : List String) (key : String) (root : Entries) : Option Entries :=
  changeAt false
    (fun _ entries =>
      match entries.lookup key with
      | none => some (put key (.table false false []) entries)
      | some (.table true false inner) =>
        some (put key (.table false false inner) (entries.filter (·.1 != key)))
      | some _ => none)
    path false root

/-- Open one more table of a list of tables. -/
def openRow (path : List String) (key : String) (root : Entries) : Option Entries :=
  changeAt false
    (fun _ entries =>
      match entries.lookup key with
      | none => some (put key (.rows [[]]) entries)
      | some (.rows tables) => some (put key (.rows (tables ++ [[]])) entries)
      | some _ => none)
    path false root

/-- The key that comes first in a table that stands for a date or time. -/
def momentKey : String := "$__toml_private_datetime"

mutual

/-- The value of a finished node. -/
def Node.finish : Node → Option Value
  | .text s => some (.text s)
  | .single v => some v
  | .list items => (finishItems items).map .list
  | .closed entries => finishTable entries
  | .table _ _ entries => finishTable entries
  | .rows tables => (finishRows tables).map .list

/-- The value of a finished table. One that stands for a date or time has to hold its text; no
other key of it counts. -/
def finishTable : List (String × Node) → Option Value
  | [] => some (.table [])
  | (key, node) :: rest =>
    -- only the key that comes first makes a table a date or time
    if key == momentKey then
      match node with
      | .text s => (momentOf? s).map .text
      | _ => none
    else do
      let v ← node.finish
      let entries ← finishEntries rest
      some (.table (SortedMap.insertEntry key v entries))

/-- The values of finished entries, in increasing order of their keys. -/
def finishEntries : List (String × Node) → Option (List (String × Value))
  | [] => some []
  | (key, node) :: rest => do
    let v ← node.finish
    let entries ← finishEntries rest
    some (SortedMap.insertEntry key v entries)

/-- The values of finished items. -/
def finishItems : List Node → Option (List Value)
  | [] => some []
  | item :: rest => do some ((← item.finish) :: (← finishItems rest))

/-- The values of finished tables. -/
def finishRows : List (List (String × Node)) → Option (List Value)
  | [] => some []
  | entries :: rest => do some ((← finishTable entries) :: (← finishRows rest))

end

end BatchRun.Toml
