import BatchRun.Toml.Moment
import BatchRun.Toml.Number
import BatchRun.Toml.Table
import BatchRun.Toml.Text

/-!
# Reading TOML files

A file is read line by line. Each line is blank, opens a table, or gives a key its value; a value
may go over several lines. A file with any line that is none of these has no value at all.

## Main definitions

* `Toml.read?`: the entries of the table that a file stands for
-/

namespace BatchRun.Toml

private def afterWord? (word : List Char) (cs : List Char) : Option (List Char) :=
  if word.isPrefixOf cs then some (cs.drop word.length) else none

mutual

/-- A value, and the characters behind it. At most `room` lists and tables may be within one
another. -/
def readValue : Nat → Nat → List Char → Option (Node × List Char)
  | 0, _, _ => none
  | bound + 1, room, cs =>
    match cs, room with
    | '"' :: _, _ => (quotedText cs).map fun (s, rest) => (.text s, rest)
    | '\'' :: _, _ => (quotedText cs).map fun (s, rest) => (.text s, rest)
    -- no room is left for another list or table
    | '[' :: _, 0 => none
    | '[' :: rest, room + 1 =>
      (readItems bound room rest []).map fun (items, rest) => (.list items, rest)
    | '\x7b' :: _, 0 => none
    | '\x7b' :: rest, room + 1 =>
      match skipSpace rest with
      | '\x7d' :: rest => some (.closed [], rest)
      | rest => (readPairs bound room rest []).map fun (entries, rest) => (.closed entries, rest)
    | 't' :: rest, _ =>
      (afterWord? ['r', 'u', 'e'] rest).map fun rest => (.single (.bool true), rest)
    | 'f' :: rest, _ =>
      (afterWord? ['a', 'l', 's', 'e'] rest).map fun rest => (.single (.bool false), rest)
    | cs, _ =>
      match moment? cs with
      | some (s, rest) => some (.single (.text s), rest)
      | none => (number? cs).map fun (v, rest) => (.single v, rest)

/-- The items of a list behind its opening bracket, newest first in `done`. Items may stand on
lines of their own, and a comma may follow the last one. -/
def readItems : Nat → Nat → List Char → List Node → Option (List Node × List Char)
  | 0, _, _, _ => none
  | bound + 1, room, cs, done =>
    match skipLines bound cs with
    | ']' :: rest => some (done.reverse, rest)
    | cs =>
      match readValue bound room cs with
      | none => none
      | some (item, rest) =>
        match skipLines bound rest with
        | ',' :: rest => readItems bound room rest (item :: done)
        | ']' :: rest => some ((item :: done).reverse, rest)
        | _ => none

/-- The keys and values of a table on one line, up to its closing brace. -/
def readPairs : Nat → Nat → List Char → Entries → Option (Entries × List Char)
  | 0, _, _, _ => none
  | bound + 1, room, cs, entries =>
    match key bound (skipSpace cs) with
    | none => none
    | some (parts, rest) =>
      match skipSpace rest with
      | '=' :: rest =>
        match readValue bound room (skipSpace rest) with
        | none => none
        | some (v, rest) =>
          match setKey parts.dropLast (parts.getLastD "") v entries with
          | none => none
          | some entries =>
            match skipSpace rest with
            | ',' :: rest => readPairs bound room rest entries
            | '\x7d' :: rest => some (entries, rest)
            | _ => none
      | _ => none

end

/-- A file that is being read: what is read so far, and the header of the table that keys go
into. -/
structure Progress where
  root : Entries
  header : List String

/-- Give a key a value in the table of the header. -/
def Progress.set (p : Progress) (parts : List String) (v : Node) : Option Progress :=
  (changeAt false (fun _ entries => setKey parts.dropLast (parts.getLastD "") v entries)
    p.header false p.root).map ({ p with root := · })

private def readHeader (bound : Nat) (row : Bool) (cs : List Char) (p : Progress) :
    Option (Progress × List Char) := do
  let (parts, rest) ← key bound (skipSpace cs)
  let rest ←
    match row, skipSpace rest with
    | true, ']' :: ']' :: rest => some rest
    | false, ']' :: rest => some rest
    | _, _ => none
  let change := if row then openRow else openTable
  let root ← change parts.dropLast (parts.getLastD "") p.root
  some (⟨root, parts⟩, rest)

private def readPair (bound : Nat) (cs : List Char) (p : Progress) :
    Option (Progress × List Char) := do
  let (parts, rest) ← key bound cs
  match skipSpace rest with
  | '=' :: rest =>
    let (v, rest) ← readValue bound deepest (skipSpace rest)
    some (← p.set parts v, rest)
  | _ => none

/-- Read lines up to the end of the file. -/
def readLines : Nat → List Char → Progress → Option Progress
  | 0, _, _ => none
  | bound + 1, cs, p =>
    let line : Option (Progress × List Char) :=
      match skipSpace cs with
      | '[' :: '[' :: rest => readHeader bound true rest p
      | '[' :: rest => readHeader bound false rest p
      | rest =>
        match restOfLine? rest with
        -- nothing on the line: its end is read together with those of other lines
        | some _ => some (p, rest)
        | none => readPair bound rest p
    match line with
    | none => none
    | some (p, rest) =>
      match restOfLine? rest with
      | none => none
      | some [] => some p
      | some rest => readLines bound rest p

/-- The entries of the table that a file stands for. A byte order mark in front is skipped. -/
def read? (file : String) : Option (List (String × Value)) := do
  let cs := match file.toList with
    | '\uFEFF' :: rest => rest
    | cs => cs
  let p ← readLines (cs.length + 1) cs ⟨[], []⟩
  match finishTable p.root with
  | some (.table entries) => some entries
  | _ => none

end BatchRun.Toml
