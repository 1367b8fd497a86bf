import BatchRun.Text.Shown

/-!
# Quoted text

The quoted form of texts and characters in descriptions of values: between quotes, with a
backslash in front of the closing quote and of itself, names for the common control characters
and a numbered escape for every other character that is not shown.

## Main definitions

* `quoted`: a text between double quotes
* `quotedChar`: a character between single quotes
-/

namespace BatchRun.Text

private def numbered (c : Char) : String :=
  "\\u\x7b" ++ String.ofList (Nat.toDigits 16 c.toNat) ++ "\x7d"

/-- One character of a quoted text whose closing quote is `quote`. -/
def escaped (quote : Char) (c : Char) : String :=
  if c == quote then "\\" ++ c.toString
  else
    match c with
    | '\x00' => "\\0"
    | '\t' => "\\t"
    | '\r' => "\\r"
    | '\n' => "\\n"
    | '\\' => "\\\\"
    | c => if isShown c then c.toString else numbered c

/-- A text between double quotes. -/
def quoted (s : String) : String :=
  "\"" ++ String.join (s.toList.map (escaped '"')) ++ "\""

/-- A character between single quotes. -/
def quotedChar (c : Char) : String := "'" ++ escaped '\'' c ++ "'"

end BatchRun.Text
