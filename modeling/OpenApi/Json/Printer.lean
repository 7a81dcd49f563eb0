-- SUMMARY: The text of a JSON value, on one line and indented.
import OpenApi.Json
import OpenApi.Text.Quoted

/-!
# JSON text

`compact` writes a value without any blank; `pretty` puts each item and member on
a line of its own, two spaces further in than its container, and leaves an empty
container on one line. In strings only the quotation mark, the backslash and the
control characters below the space are escaped.
-/

namespace OpenApi.Json

/-! ## Strings -/

/-- One character of a string literal. -/
def literalChar (c : Char) : String :=
  match c with
  | '"' => "\\\""
  | '\\' => "\\\\"
  | '\x08' => "\\b"
  | '\x0c' => "\\f"
  | '\n' => "\\n"
  | '\r' => "\\r"
  | '\t' => "\\t"
  | c =>
    if c.toNat < 0x10 then "\\u000" ++ Text.hex c.toNat
    else if c.toNat < 0x20 then "\\u00" ++ Text.hex c.toNat
    else c.toString

/-- A string literal. -/
def literal (text : String) : String :=
  "\"" ++ String.join (text.toList.map literalChar) ++ "\""

/-! ## One line -/

mutual

/-- The text of a value without blanks. -/
def compact : Json → String
  | .null => "null"
  | .bool true => "true"
  | .bool false => "false"
  | .num value => value.text
  | .str value => literal value
  | .arr items => "[" ++ String.intercalate "," (compactItems items) ++ "]"
  | .obj members => "\x7b" ++ String.intercalate "," (compactMembers members) ++ "\x7d"

/-- The texts of items. -/
def compactItems : List Json → List String
  | [] => []
  | x :: xs => compact x :: compactItems xs

/-- The texts of members. -/
def compactMembers : List (String × Json) → List String
  | [] => []
  | (key, value) :: rest => (literal key ++ ":" ++ compact value) :: compactMembers rest

end

/-! ## Indented -/

/-- Entries on lines of their own between two brackets at the given depth. -/
def block (left right : String) (depth : Nat) (entries : List String) : String :=
  if entries.isEmpty then left ++ right
  else
    let inner := "\n" ++ "".pushn ' ' (2 * (depth + 1))
    left ++ inner ++ String.intercalate ("," ++ inner) entries
      ++ "\n" ++ "".pushn ' ' (2 * depth) ++ right

mutual

/-- The indented text of a value inside `depth` containers. -/
def prettyAt (depth : Nat) : Json → String
  | .null => "null"
  | .bool true => "true"
  | .bool false => "false"
  | .num value => value.text
  | .str value => literal value
  | .arr items => block "[" "]" depth (prettyItems (depth + 1) items)
  | .obj members => block "\x7b" "\x7d" depth (prettyMembers (depth + 1) members)

/-- The indented texts of items. -/
def prettyItems (depth : Nat) : List Json → List String
  | [] => []
  | x :: xs => prettyAt depth x :: prettyItems depth xs

/-- The indented texts of members. -/
def prettyMembers (depth : Nat) : List (String × Json) → List String
  | [] => []
  | (key, value) :: rest =>
    (literal key ++ ": " ++ prettyAt depth value) :: prettyMembers depth rest

end

/-- The indented text of a value. -/
def pretty (value : Json) : String := prettyAt 0 value

end OpenApi.Json
