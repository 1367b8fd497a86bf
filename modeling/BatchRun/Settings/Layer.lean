import BatchRun.Fault
import BatchRun.SortedMap
import BatchRun.Text.Lowercase
import BatchRun.Number.Reading
import BatchRun.Settings.Order

/-!
# Layers of settings

Settings come in layers, and a higher layer is merged over the lower ones: tables key by key,
anything else in place of what was there. The keys of a layer are paths: a name, followed by
names of inner tables behind points and by positions in lists between brackets. A key that is no
path stands for itself. All keys are taken in lower case, and one that is a path only in lower case
is followed when all layers are in. A position in front of a list, or so far behind it that no list
could be that long, is a fault.

A layer is a table, so that its keys may come up in any order, and so may those of the tables in it.
What they come to depends on that order if one of them gives what another one gives as well.

## Main definitions

* `Layer`: the keys and values of one source
* `mergeLayer`: a layer over a table
* `settle`: the keys of a merged table, followed once more
* `ofVariables`: the layer of the environment variables
-/

namespace BatchRun.Settings

open BatchRun.Number
open BatchRun.Toml (Value)

/-- The keys and values of one source of settings. -/
abbrev Layer := List (String × Value)

/-- A layer with its keys as they come up. -/
def Layer.arranged (layer : Layer) (order : Order) : Layer :=
  ranked (order []) (allArranged order [] layer)

/-- A step from a value to a part of it. -/
inductive Step where
  | name (key : String)
  | position (index : Int)

/-- A name and the steps from its value to the part that is meant. -/
structure Path where
  name : String
  steps : List Step

private def isNameChar (c : Char) : Bool := c.isAlphanum || c == '_' || c == '-' || c == ' '

private def skipPadding (cs : List Char) : List Char := cs.dropWhile fun c => c == ' ' || c == '\t'

/-- A position behind its opening bracket, and the characters behind the closing one. -/
def readPosition (cs : List Char) : Option (Int × List Char) := do
  let (negative, cs) := match skipPadding cs with
    | '-' :: rest => (true, rest)
    | cs => (false, cs)
  let size ← natural? (cs.takeWhile isDigit)
  let index : Int := if negative then -size else size
  match skipPadding (cs.dropWhile isDigit) with
  | ']' :: rest => if int64Least ≤ index ∧ index ≤ int64Greatest then some (index, rest) else none
  | _ => none

/-- The steps that are written behind a name, with their names in lower case. -/
def readSteps : Nat → List Char → Option (List Step)
  | 0, _ => none
  | _ + 1, [] => some []
  | bound + 1, '.' :: rest =>
    let key := rest.takeWhile isNameChar
    if key.isEmpty then none
    else
      let step := Step.name (Text.lowercase (String.ofList key))
      (readSteps bound (rest.dropWhile isNameChar)).map (step :: ·)
  | bound + 1, '[' :: rest =>
    match readPosition rest with
    | some (index, rest) => (readSteps bound rest).map (.position index :: ·)
    | none => none
  | _ + 1, _ => none

/-- The path that a key is, with its names in lower case. -/
def Path.ofKey (key : String) : Path :=
  let cs := key.toList
  let name := cs.takeWhile isNameChar
  let steps :=
    if name.isEmpty then none else readSteps (cs.length + 1) (cs.dropWhile isNameChar)
  match steps with
  | some steps => ⟨Text.lowercase (String.ofList name), steps⟩
  | none => ⟨Text.lowercase key, []⟩

/-- The entries of a table; any other value has none. -/
def entriesOf : Value → List (String × Value)
  | .table entries => entries
  | _ => []

/-- The items of a list; any other value has none. -/
def itemsOf : Value → List Value
  | .list items => items
  | _ => []

mutual

/-- Merge a value into the entry of a table. What is no table becomes one. -/
def mergeEntry (key : String) : Value → Value → Value
  | .table incoming, root =>
    let entries := entriesOf root
    let key := Text.lowercase key
    let target := (SortedMap.lookup key entries).getD (.table [])
    .table (SortedMap.insertEntry key (mergeEntries incoming target) entries)
  | v, root => .table (SortedMap.insertEntry (Text.lowercase key) v (entriesOf root))

/-- Merge entries into a table, one after the other. -/
def mergeEntries : List (String × Value) → Value → Value
  | [], root => root
  | (key, v) :: rest, root => mergeEntries rest (mergeEntry key v root)

end

/-- The place in a list that a position means; negative positions count from the end, and may not
go beyond the first item. -/
def placeOf (index : Int) (size : Nat) : Except Fault Nat :=
  -- a position in front of the first item would be a difference below zero
  if 0 ≤ index then .ok index.toNat
  else if index.natAbs ≤ size then .ok (size - index.natAbs)
  else .error .difference

/-- The bytes of an item. -/
def itemBytes : Nat := 96

/-- The list, with as many absent items at its end as it takes to have a place. -/
def extended (place : Nat) (items : List Value) : Except Fault (List Value) :=
  if place < items.length then .ok items
  else if addressableBytes < (place + 1) * itemBytes then .error .size
  else .ok (items ++ List.replicate (place + 1 - items.length) .absent)

/-- Merge a value in at the end of some steps. -/
def mergeSteps (v : Value) : List Step → Value → Except Fault Value
  | [], _ => .ok v
  | [.name key], root => .ok (mergeEntry key v root)
  | .name key :: steps, root => do
    let entries := entriesOf root
    let inner ← mergeSteps v steps ((SortedMap.lookup key entries).getD .absent)
    .ok (.table (SortedMap.insertEntry key inner entries))
  | .position index :: steps, root => do
    let place ← placeOf index (itemsOf root).length
    let items ← extended place (itemsOf root)
    let item ← mergeSteps v steps (items[place]?.getD .absent)
    .ok (.list (items.set place item))

/-- Merge a value in at a path. -/
def mergePath (path : Path) (v root : Value) : Except Fault Value :=
  mergeSteps v (.name path.name :: path.steps) root

/-- Merge keys with their values over a table, one after the other. -/
def mergeKeys (keys : List (String × Value)) (root : Value) : Except Fault Value :=
  keys.foldlM (fun root e => mergePath (Path.ofKey e.1) e.2 root) root

/-- Merge a layer over a table, key by key as they come up. -/
def mergeLayer (order : Order) (layer : Layer) (root : Value) : Except Fault Value :=
  mergeKeys (layer.arranged order) root

/-- Follow the keys of a merged table once more, as they come up. They are in lower case now, so
that a key which was no path as it was written may have become one. -/
def settle (order : Order) (root : Value) : Except Fault Value :=
  mergeLayer order (entriesOf root) (.table [])

/-- The value of a variable: a truth value, a whole number, a decimal number, or else its text. -/
def variableValue (text : String) : Value :=
  let word := Text.lowercase text
  if word == "true" then .bool true
  else if word == "false" then .bool false
  else
    match wholeNumber? int64Least int64Greatest text with
    | some n => .int n
    | none =>
      match decimal? text with
      | some x => .real x
      | none => .text text

/-- The start of the names of variables that are settings. -/
def variableMark : List Char := "dispatch__".toList

/-- A name with points in place of pairs of underscores. -/
def pointed : List Char → List Char
  | '_' :: '_' :: rest => '.' :: pointed rest
  | c :: rest => c :: pointed rest
  | [] => []

/-- The key that a variable sets, if it is a setting. -/
def variableKey? (name : String) : Option String :=
  let cs := (Text.lowercase name).toList
  if variableMark.isPrefixOf cs then
    some (String.ofList (pointed (cs.drop variableMark.length)))
  else none

/-- The last of the entries with one key, for each key that there is. -/
def lastOfEach : List (String × Value) → List (String × Value)
  | [] => []
  | e :: rest => if rest.any (·.1 == e.1) then lastOfEach rest else e :: lastOfEach rest

/-- The layer of the environment variables. A variable takes the place of an earlier one that sets
the same key. -/
def ofVariables (bindings : List (String × String)) : Layer :=
  lastOfEach (bindings.filterMap fun v =>
    (variableKey? v.1).map fun key => (key, variableValue v.2))

end BatchRun.Settings
