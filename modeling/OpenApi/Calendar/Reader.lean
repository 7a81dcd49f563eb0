-- SUMMARY: Reading numbers and separators of dates and times from the front of a text.
import OpenApi.Decimal.Digits
import OpenApi.Text.Blank

/-!
# Reading dates and times

A reader takes characters from the front of a text and leaves the rest. Blanks
may stand before a number. A number takes as many digits as its width allows, and
a fraction of a second as many as there are, of which the first nine count.
-/

namespace OpenApi.Calendar

/-- Why a text is no date or time. -/
inductive Fault where
  | invalid
  | tooShort
  | tooLong
  | outOfRange
deriving DecidableEq, Repr

/-- The message for a fault. -/
def Fault.message : Fault → String
  | .invalid => "input contains invalid characters"
  | .tooShort => "premature end of input"
  | .tooLong => "trailing input"
  | .outOfRange => "input is out of range"

/-- A value taken from the front of a text, and the rest. -/
abbrev Taken (α : Type) := Except Fault (α × List Char)

/-- The text without blanks in front. -/
def trimStart (text : List Char) : List Char := text.dropWhile Text.isBlank

/-- A number of at least one and at most `width` digits. -/
def takeNumber (width : Nat) (text : List Char) : Except Fault (Nat × List Char) :=
  let digits := (text.take width).takeWhile Char.isDigit
  match digits, text with
  | [], [] => .error .tooShort
  | [], _ => .error .invalid
  | _, _ => .ok (Digits.value digits, text.drop digits.length)

/-- A number after blanks, between `low` and `high`. -/
def takeWithin (width low high : Nat) (text : List Char) : Except Fault (Nat × List Char) := do
  let (n, rest) ← takeNumber width (trimStart text)
  if low ≤ n ∧ n ≤ high then .ok (n, rest) else .error .outOfRange

/-- One given character. -/
def takeChar (expected : Char) : List Char → Except Fault (List Char)
  | [] => .error .tooShort
  | c :: rest => if c = expected then .ok rest else .error .invalid

/-- A year after blanks: four digits, or any number of digits behind a sign. -/
def takeYear (text : List Char) : Except Fault (Int × List Char) := do
  let text := trimStart text
  let (year, rest) ← (match text with
    | '-' :: rest => do
      let (n, rest) ← takeNumber rest.length rest
      .ok (-(n : Int), rest)
    | '+' :: rest => do
      let (n, rest) ← takeNumber rest.length rest
      .ok ((n : Int), rest)
    | _ => do
      let (n, rest) ← takeNumber 4 text
      .ok ((n : Int), rest) : Except Fault (Int × List Char))
  if -0x80000000 ≤ year ∧ year < 0x80000000 then .ok (year, rest) else .error .outOfRange

/-- Nanoseconds behind a point, if there is a point. -/
def takeFraction : List Char → Except Fault (Nat × List Char)
  | '.' :: text => do
    let (n, rest) ← takeNumber 9 text
    .ok (n * Nat.pow 10 (9 - (text.length - rest.length)), rest.dropWhile Char.isDigit)
  | text => .ok (0, text)

/-- Nothing may be left. -/
def finish {α : Type} : α × List Char → Except Fault α
  | (value, []) => .ok value
  | _ => .error .tooLong

end OpenApi.Calendar
