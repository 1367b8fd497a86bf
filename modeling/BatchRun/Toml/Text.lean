import BatchRun.Number.Reading

/-!
# Texts, keys and comments of TOML

Readers for the parts of a file that consist of characters: white space, comments, the four kinds
of quoted text, and keys. Each reader takes the characters that are left and hands back those it
did not need.
-/

namespace BatchRun.Toml

open BatchRun.Number

/-- White space within a line. -/
def isSpace (c : Char) : Bool := c == ' ' || c == '\t'

/-- The characters behind white space. -/
def skipSpace (cs : List Char) : List Char := cs.dropWhile isSpace

/-- A character that may stand in a comment or a text: no control character but the tab. -/
def isPlain (c : Char) : Bool := c == '\t' || (0x20 ≤ c.toNat && c.toNat ≠ 0x7f)

/-- A character of a key that is not quoted. -/
def isBareKey (c : Char) : Bool := c.isAlphanum || c == '_' || c == '-'

/-- The characters behind a comment, if one begins here. -/
def skipComment : List Char → List Char
  | '#' :: rest => rest.dropWhile isPlain
  | cs => cs

/-- The characters behind the end of a line; the end of the file ends a line as well. -/
def endOfLine? : List Char → Option (List Char)
  | [] => some []
  | '\n' :: rest => some rest
  | '\x0d' :: '\n' :: rest => some rest
  | _ => none

/-- The rest of a line that holds nothing more than a comment. -/
def restOfLine? (cs : List Char) : Option (List Char) := endOfLine? (skipComment (skipSpace cs))

/-- The characters behind any white space, comments and ends of lines. -/
def skipLines : Nat → List Char → List Char
  | 0, cs => cs
  | bound + 1, cs =>
    match skipComment (skipSpace cs) with
    | '\n' :: rest => skipLines bound rest
    | '\x0d' :: '\n' :: rest => skipLines bound rest
    | cs => cs

private def hexValue? (c : Char) : Option Nat :=
  if isDigit c then some (digitValue c)
  else if 'a' ≤ c && c ≤ 'f' then some (c.toNat - 'a'.toNat + 10)
  else if 'A' ≤ c && c ≤ 'F' then some (c.toNat - 'A'.toNat + 10)
  else none

/-- The character with a number given by exactly so many hexadecimal digits. -/
def numbered? (count : Nat) (cs : List Char) : Option (Char × List Char) := do
  let digits := cs.take count
  if digits.length < count then none
  let values ← digits.mapM hexValue?
  let code := values.foldl (fun n d => 16 * n + d) 0
  -- half of a pair of code units is no character
  if code < 0xd800 || (0xe000 ≤ code && code < 0x110000) then
    some (Char.ofNat code, cs.drop count)
  else none

/-- The character that an escape stands for, behind its backslash. -/
def escape? : List Char → Option (Char × List Char)
  | 'b' :: rest => some ('\x08', rest)
  | 't' :: rest => some ('\t', rest)
  | 'n' :: rest => some ('\n', rest)
  | 'f' :: rest => some ('\x0c', rest)
  | 'r' :: rest => some ('\r', rest)
  | '"' :: rest => some ('"', rest)
  | '\\' :: rest => some ('\\', rest)
  | 'u' :: rest => numbered? 4 rest
  | 'U' :: rest => numbered? 8 rest
  | _ => none

/-- A text on one line with escapes, behind its opening quote; newest first in `done`. -/
def basic : Nat → List Char → List Char → Option (List Char × List Char)
  | 0, _, _ => none
  | bound + 1, cs, done =>
    match cs with
    | '"' :: rest => some (done.reverse, rest)
    | '\\' :: rest =>
      match escape? rest with
      | some (c, rest) => basic bound rest (c :: done)
      | none => none
    | c :: rest => if isPlain c then basic bound rest (c :: done) else none
    | [] => none

/-- A text on one line without escapes, behind its opening quote. -/
def literal (cs : List Char) : Option (List Char × List Char) :=
  match cs.dropWhile fun c => isPlain c && c != '\'' with
  | '\'' :: rest => some (cs.takeWhile (fun c => isPlain c && c != '\''), rest)
  | _ => none

/-- White space and ends of lines behind a backslash at the end of a line. -/
def skipFold (cs : List Char) : Option (List Char) :=
  match skipSpace cs with
  | '\n' :: rest => some (trim rest)
  | '\x0d' :: '\n' :: rest => some (trim rest)
  | _ => none
where
  /-- The characters behind white space and ends of lines. -/
  trim : List Char → List Char
    | '\x0d' :: '\n' :: rest => trim rest
    | c :: rest => if isSpace c || c == '\n' then trim rest else c :: rest
    | [] => []

/-- A text over several lines, behind its three opening quotes. One or two quotes may stand
anywhere, also right in front of the three that close the text. -/
def multiline (escapes : Bool) (quote : Char) :
    Nat → List Char → List Char → Option (List Char × List Char)
  | 0, _, _ => none
  | bound + 1, cs, done =>
    let quotes := (cs.takeWhile (· == quote)).length
    if 3 ≤ quotes then
      -- up to two quotes in front of the three belong to the text
      let kept := min quotes 5 - 3
      some (done.reverse ++ List.replicate kept quote, cs.drop (kept + 3))
    else
      match cs with
      | '\n' :: rest => multiline escapes quote bound rest ('\n' :: done)
      | '\x0d' :: '\n' :: rest => multiline escapes quote bound rest ('\n' :: done)
      | c :: rest =>
        -- a backslash at the end of a line takes the white space behind it along
        if escapes && c == '\\' then
          match skipFold rest with
          | some rest => multiline escapes quote bound rest done
          | none =>
            match escape? rest with
            | some (c, rest) => multiline escapes quote bound rest (c :: done)
            | none => none
        else if isPlain c then multiline escapes quote bound rest (c :: done)
        else none
      | [] => none

private def dropFirstLineEnd : List Char → List Char
  | '\n' :: rest => rest
  | '\x0d' :: '\n' :: rest => rest
  | cs => cs

/-- A quoted text of any of the four kinds. -/
def quotedText (cs : List Char) : Option (String × List Char) :=
  let read : Option (List Char × List Char) :=
    match cs with
    | '"' :: '"' :: '"' :: rest => multiline true '"' (cs.length + 1) (dropFirstLineEnd rest) []
    | '"' :: rest => basic (cs.length + 1) rest []
    | '\'' :: '\'' :: '\'' :: rest =>
      multiline false '\'' (cs.length + 1) (dropFirstLineEnd rest) []
    | '\'' :: rest => literal rest
    | _ => none
  read.map fun (chars, rest) => (String.ofList chars, rest)

/-- One part of a key. -/
def keyPart (cs : List Char) : Option (String × List Char) :=
  match cs with
  | '"' :: rest => (basic (cs.length + 1) rest []).map fun (k, rest) => (String.ofList k, rest)
  | '\'' :: rest => (literal rest).map fun (k, rest) => (String.ofList k, rest)
  | _ =>
    let part := cs.takeWhile isBareKey
    if part.isEmpty then none else some (String.ofList part, cs.dropWhile isBareKey)

/-- The parts of a key, with points between them. -/
def keyParts : Nat → List Char → Option (List String × List Char)
  | 0, _ => none
  | bound + 1, cs =>
    match keyPart cs with
    | none => none
    | some (part, rest) =>
      match skipSpace rest with
      | '.' :: rest =>
        (keyParts bound (skipSpace rest)).map fun (parts, rest) => (part :: parts, rest)
      | _ => some ([part], rest)

/-- How many parts a key has at most, and how many lists and tables a value has within one
another. -/
def deepest : Nat := 79

/-- A key of one or more parts. -/
def key (bound : Nat) (cs : List Char) : Option (List String × List Char) :=
  (keyParts bound cs).filter fun found => found.1.length ≤ deepest

end BatchRun.Toml
