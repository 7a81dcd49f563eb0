-- SUMMARY: Text between quotation marks, with everything that would not show spelled out.
import OpenApi.Text.Unprintable

/-!
# Quoted text

Messages show a text between quotation marks. A quotation mark, a backslash, the
three line and tab controls and the null character have a short escape; any
other character without a shape of its own is spelled by its code point in
hexadecimal digits.
-/

namespace OpenApi.Text

/-- The hexadecimal digits of a number, in lower case. -/
def hex (n : Nat) : String := String.ofList (Nat.toDigits 16 n)

/-- One character of a quoted text. -/
def quotedChar (c : Char) : String :=
  match c with
  | '"' => "\\\""
  | '\\' => "\\\\"
  | '\n' => "\\n"
  | '\r' => "\\r"
  | '\t' => "\\t"
  | '\x00' => "\\0"
  | c => if isUnprintable c then "\\u\x7b" ++ hex c.toNat ++ "\x7d" else c.toString

/-- A text between quotation marks. -/
def quoted (text : String) : String :=
  "\"" ++ String.join (text.toList.map quotedChar) ++ "\""

end OpenApi.Text
