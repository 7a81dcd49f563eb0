-- SUMMARY: Dates with times and offsets from universal time, in the spellings of RFC 3339 and without a zone.
import OpenApi.Calendar.Date
import OpenApi.Calendar.Clock

/-!
# Moments

A moment is a date, a time of day and an offset from universal time in minutes.
The internet form has a year of four digits, two digits for every other number,
and a zone that is a `Z` or an offset with a sign. A text without a zone is read
as universal time.
-/

namespace OpenApi.Calendar

/-- How a zone was spelled. -/
inductive Zone where
  /-- A numeric offset. -/
  | offset
  /-- The letter `Z`. -/
  | zulu
  /-- No zone. -/
  | floating
deriving DecidableEq, Repr

/-- A date and time with an offset in minutes of less than a day. -/
structure Moment where
  date : Date
  clock : Clock
  offset : Int
  withinDay : -1440 < offset ∧ offset < 1440
deriving DecidableEq

namespace Moment

/-! ## The internet form -/

/-- A number of exactly `width` digits. -/
def takeFixed (width : Nat) (text : List Char) : Except Fault (Nat × List Char) :=
  let digits := text.take width
  if text.length < width then .error .tooShort
  else if digits.all Char.isDigit then .ok (Digits.value digits, text.drop width)
  else .error .invalid

/-- A number of two digits up to `high`. -/
def takeTwo (low high : Nat) (text : List Char) : Except Fault (Nat × List Char) := do
  let (n, rest) ← takeFixed 2 text
  if low ≤ n ∧ n ≤ high then .ok (n, rest) else .error .outOfRange

/-- A zone: `Z` in either case, or a sign, hours, a colon and minutes. The sign of a negative
offset may be the mathematical minus sign. -/
def takeZone (text : List Char) : Except Fault (Int × List Char) :=
  let unsigned (text : List Char) : Except Fault (Nat × List Char) := do
    let (hours, rest) ← takeTwo 0 23 text
    let rest ← takeChar ':' rest
    let (minutes, rest) ← takeTwo 0 59 rest
    .ok (60 * hours + minutes, rest)
  match text with
  | 'Z' :: rest | 'z' :: rest => .ok (0, rest)
  | '+' :: rest => do
    let (minutes, rest) ← unsigned rest
    .ok ((minutes : Int), rest)
  | '-' :: rest | '−' :: rest => do
    let (minutes, rest) ← unsigned rest
    .ok (-(minutes : Int), rest)
  | [] => .error .tooShort
  | _ => .error .invalid

/-- The mark between date and time. -/
def takeMark : List Char → Except Fault (List Char)
  | 'T' :: rest | 't' :: rest | ' ' :: rest => .ok rest
  | [] => .error .tooShort
  | _ => .error .invalid

/-- Read the internet form, which has to make up the whole text. -/
def readZoned (text : List Char) : Except Fault Moment := do
  let (year, rest) ← takeFixed 4 text
  let rest ← takeChar '-' rest
  let (month, rest) ← takeTwo 1 12 rest
  let rest ← takeChar '-' rest
  let (day, rest) ← takeTwo 1 31 rest
  let rest ← takeMark rest
  let (hour, rest) ← takeTwo 0 23 rest
  let rest ← takeChar ':' rest
  let (minute, rest) ← takeTwo 0 59 rest
  let rest ← takeChar ':' rest
  let (second, rest) ← takeTwo 0 60 rest
  let (nano, rest) ← takeFraction rest
  let offset ← (takeZone rest).bind finish
  let date ← Date.ofNumbers? year month day
  let clock ← Clock.ofNumbers? hour minute second nano
  if h : -1440 < offset ∧ offset < 1440 then .ok ⟨date, clock, offset, h⟩
  else .error .outOfRange

/-! ## Both forms -/

/-- Read a date and a time without a zone. -/
def readFloating (text : List Char) : Except Fault Moment := do
  let ((year, month, day), rest) ← Date.takeNumbers text
  let rest ← takeChar 'T' rest
  let clock ← (Clock.take rest).bind finish
  let date ← Date.ofNumbers? year month day
  .ok ⟨date, clock, 0, by decide⟩

/-- Whether a text ends in the letter `Z`. -/
def endsZulu (text : List Char) : Bool :=
  text.getLast? == some 'Z' || text.getLast? == some 'z'

/-- Read a moment and the spelling of its zone; the fault is that of the form without a zone. -/
def read (text : String) : Except Fault (Moment × Zone) :=
  let chars := text.toList
  match readZoned chars with
  | .ok moment => .ok (moment, if endsZulu chars then .zulu else .offset)
  | .error _ => (readFloating chars).map fun moment => (moment, .floating)

/-- A numeric offset. -/
def offsetText (offset : Int) : List Char :=
  (if offset < 0 then '-' else '+') ::
    (Digits.padded 2 (offset.natAbs / 60) ++ ':' :: Digits.padded 2 (offset.natAbs % 60))

/-- The zone in a given spelling; an offset other than zero is always written as a number. -/
def zoneText (offset : Int) : Zone → List Char
  | .offset => offsetText offset
  | .zulu => if offset = 0 then ['Z'] else offsetText offset
  | .floating => []

/-- Write a moment with its zone in the given spelling. -/
def text (moment : Moment) (zone : Zone) : String :=
  String.ofList (moment.date.chars ++ 'T' :: moment.clock.chars ++ zoneText moment.offset zone)

end Moment
end OpenApi.Calendar
