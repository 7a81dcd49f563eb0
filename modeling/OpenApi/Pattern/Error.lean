-- SUMMARY: What can be wrong with a pattern, and the message that points at it.
import OpenApi.Pattern.Syntax
import OpenApi.Text.Lines

/-!
# Errors of patterns

The message shows the pattern with marks below the part that is wrong, and below
the part that it clashes with if there are two. A pattern of several lines is
shown between two rules with its lines numbered; a part that spans lines is not
marked but named by its ends.
-/

namespace OpenApi.Pattern

/-- What is wrong with a pattern. -/
inductive Cause where
  | classEscape
  | classRangeOrder
  | classRangeBoundary
  | classUnclosed
  | decimalInvalid
  | hexEmpty
  | hexNoScalar
  | hexDigit
  | escapeUnfinished
  | escapeUnknown
  | flagDangling
  | flagRepeated (earlier : Span)
  | negationRepeated (earlier : Span)
  | flagUnfinished
  | flagUnknown
  | nameRepeated (earlier : Span)
  | nameEmpty
  | nameInvalid
  | nameUnfinished
  | groupUnclosed
  | groupUnopened
  | nestedTooDeep (limit : Nat)
  | countOrder
  | countEmpty
  | countUnclosed
  | repeatsNothing
  | boundaryUnclosed
  | boundaryUnknown
  | boundaryUnfinished
  | propertyEscape
  | backreference
  | lookAround
  | unicodeOff
  | notText
  | propertyUnknown
  | propertyValueUnknown
deriving DecidableEq, Repr

/-- The words for a cause. -/
def Cause.message : Cause → String
  | .classEscape => "invalid escape sequence found in character class"
  | .classRangeOrder => "invalid character class range, the start must be <= the end"
  | .classRangeBoundary => "invalid range boundary, must be a literal"
  | .classUnclosed => "unclosed character class"
  | .decimalInvalid => "decimal literal invalid"
  | .hexEmpty => "hexadecimal literal empty"
  | .hexNoScalar => "hexadecimal literal is not a Unicode scalar value"
  | .hexDigit => "invalid hexadecimal digit"
  | .escapeUnfinished => "incomplete escape sequence, reached end of pattern prematurely"
  | .escapeUnknown => "unrecognized escape sequence"
  | .flagDangling => "dangling flag negation operator"
  | .flagRepeated _ => "duplicate flag"
  | .negationRepeated _ => "flag negation operator repeated"
  | .flagUnfinished => "expected flag but got end of regex"
  | .flagUnknown => "unrecognized flag"
  | .nameRepeated _ => "duplicate capture group name"
  | .nameEmpty => "empty capture group name"
  | .nameInvalid => "invalid capture group character"
  | .nameUnfinished => "unclosed capture group name"
  | .groupUnclosed => "unclosed group"
  | .groupUnopened => "unopened group"
  | .nestedTooDeep limit =>
    "exceed the maximum number of nested parentheses/brackets (" ++ toString limit ++ ")"
  | .countOrder => "invalid repetition count range, the start must be <= the end"
  | .countEmpty => "repetition quantifier expects a valid decimal"
  | .countUnclosed => "unclosed counted repetition"
  | .repeatsNothing => "repetition operator missing expression"
  | .boundaryUnclosed =>
    "special word boundary assertion is either unclosed or contains an invalid character"
  | .boundaryUnknown =>
    "unrecognized special word boundary assertion, " ++
      "valid choices are: start, end, start-half or end-half"
  | .boundaryUnfinished =>
    "found either the beginning of a special word boundary or a bounded repetition on a \\b " ++
      "with an opening brace, but no closing brace"
  | .propertyEscape => "invalid Unicode character class"
  | .backreference => "backreferences are not supported"
  | .lookAround => "look-around, including look-ahead and look-behind, is not supported"
  | .unicodeOff => "Unicode not allowed here"
  | .notText => "pattern can match invalid UTF-8"
  | .propertyUnknown => "Unicode property not found"
  | .propertyValueUnknown => "Unicode property value not found"

/-- The part of a pattern that something else clashes with. -/
def Cause.earlier? : Cause → Option Span
  | .flagRepeated earlier | .negationRepeated earlier | .nameRepeated earlier => some earlier
  | _ => none

/-- A cause and the part of the pattern where it lies. -/
structure Error where
  span : Span
  cause : Cause
deriving DecidableEq, Repr

/-! ## Messages -/

/-- The order of spans: by start, then by end. -/
def Span.before (a b : Span) : Bool :=
  a.start.offset < b.start.offset
    || (a.start.offset = b.start.offset && a.stop.offset ≤ b.stop.offset)

/-- Marks below a line under the spans on it, from `column` on. -/
def marks : Nat → List Span → String
  | _, [] => ""
  | column, span :: rest =>
    let width := max 1 (span.stop.column - span.start.column)
    let gap := span.start.column - 1 - column
    "".pushn ' ' gap ++ "".pushn '^' width ++ marks (column + gap + width) rest

/-- The spans of an error, in order. -/
def Error.spans (error : Error) : List Span :=
  match error.cause.earlier? with
  | none => [error.span]
  | some earlier =>
    if earlier.before error.span then [earlier, error.span] else [error.span, earlier]

/-- The lines of a pattern with marks, each line behind its margin. -/
def annotate (width number : Nat) (spans : List Span) : List (List Char) → String
  | [] => ""
  | line :: lines =>
    let label := toString number
    let margin := if width = 0 then "    " else "".pushn ' ' (width - label.length) ++ label ++ ": "
    let here := spans.filter fun span => span.start.line = number
    let below :=
      if here.isEmpty then ""
      else "".pushn ' ' (if width = 0 then 4 else width + 2) ++ marks 0 here ++ "\n"
    margin ++ String.ofList line ++ "\n" ++ below ++ annotate width (number + 1) spans lines

/-- The note for a part that spans lines. -/
def Span.note (span : Span) : String :=
  "on line " ++ toString span.start.line ++ " (column " ++ toString span.start.column ++
    ") through line " ++ toString span.stop.line ++ " (column " ++
    toString (span.stop.column - 1) ++ ")"

/-- The message for an error of a pattern. -/
def Error.message (error : Error) (pattern : String) : String :=
  let chars := pattern.toList
  let lines := Text.splitLines chars
  let count := lines.length + (if chars.getLast? = some '\n' then 1 else 0)
  let width := if count ≤ 1 then 0 else (toString count).length
  let short := error.spans.filter fun span => span.start.line = span.stop.line
  let long := error.spans.filter fun span => span.start.line ≠ span.stop.line
  let body := annotate width 1 short lines
  if chars.contains '\n' then
    let rule := "".pushn '~' 79 ++ "\n"
    let notes :=
      if long.isEmpty then "" else String.intercalate "\n" (long.map Span.note) ++ "\n"
    "regex parse error:\n" ++ rule ++ body ++ rule ++ notes ++ "error: " ++ error.cause.message
  else "regex parse error:\n" ++ body ++ "error: " ++ error.cause.message

end OpenApi.Pattern
