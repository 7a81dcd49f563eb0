-- SUMMARY: The lines of a text.

/-!
# Lines

A line ends at a line feed, or at a carriage return followed by a line feed. A
line feed at the end of a text starts no further line.
-/

namespace OpenApi.Text

/-- The lines of a text. -/
def splitLines : List Char → List (List Char)
  | [] => []
  | '\n' :: rest => [] :: splitLines rest
  | '\r' :: '\n' :: rest => [] :: splitLines rest
  | c :: rest =>
    match splitLines rest with
    | line :: lines => (c :: line) :: lines
    | [] => [[c]]

/-- The lines of a text, as texts. -/
def lines (text : String) : List String := (splitLines text.toList).map String.ofList

end OpenApi.Text
