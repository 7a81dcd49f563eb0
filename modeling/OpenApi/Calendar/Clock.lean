-- SUMMARY: Times of day down to the nanosecond, read from and written as text.
import OpenApi.Calendar.Reader

/-!
# Times of day

A time of day has hours, minutes, seconds and nanoseconds; a sixtieth second is a
leap second, which any minute may have. Seconds may be left out when reading. A
fraction is written with three, six or nine digits, as many as it needs, and not
at all when it is zero.
-/

namespace OpenApi.Calendar

/-- A time of day. -/
structure Clock where
  hour : Nat
  minute : Nat
  second : Nat
  nano : Nat
  inRange : hour ≤ 23 ∧ minute ≤ 59 ∧ second ≤ 60 ∧ nano < 1000000000
deriving DecidableEq

namespace Clock

/-- The time with the given numbers, if there is one. -/
def ofNumbers? (hour minute second nano : Nat) : Except Fault Clock :=
  if h : hour ≤ 23 ∧ minute ≤ 59 ∧ second ≤ 60 ∧ nano < 1000000000 then
    .ok ⟨hour, minute, second, nano, h⟩
  else .error .outOfRange

/-! ## Text -/

/-- Hours and minutes at the front of a text. -/
def takeShort (text : List Char) : Except Fault (Clock × List Char) := do
  let (hour, rest) ← takeWithin 2 0 23 text
  let rest ← takeChar ':' rest
  let (minute, rest) ← takeWithin 2 0 59 rest
  .ok (← ofNumbers? hour minute 0 0, rest)

/-- Hours, minutes, seconds and perhaps a fraction at the front of a text. -/
def take (text : List Char) : Except Fault (Clock × List Char) := do
  let (hour, rest) ← takeWithin 2 0 23 text
  let rest ← takeChar ':' rest
  let (minute, rest) ← takeWithin 2 0 59 rest
  let rest ← takeChar ':' rest
  let (second, rest) ← takeWithin 2 0 60 rest
  let (nano, rest) ← takeFraction rest
  .ok (← ofNumbers? hour minute second nano, rest)

/-- Read a time that makes up the whole text; the fault is that of the form without seconds. -/
def read (text : List Char) : Except Fault Clock :=
  match (take text).bind finish with
  | .ok clock => .ok clock
  | .error _ => (takeShort text).bind finish

/-- A fraction of a second, in the fewest groups of three digits. -/
def fractionText (nano : Nat) : List Char :=
  if nano = 0 then []
  else if nano % 1000000 = 0 then '.' :: Digits.padded 3 (nano / 1000000)
  else if nano % 1000 = 0 then '.' :: Digits.padded 6 (nano / 1000)
  else '.' :: Digits.padded 9 nano

/-- The characters of a time. -/
def chars (clock : Clock) : List Char :=
  Digits.padded 2 clock.hour ++ ':' :: Digits.padded 2 clock.minute ++ ':' ::
    Digits.padded 2 clock.second ++ fractionText clock.nano

/-- Write a time. -/
def text (clock : Clock) : String := String.ofList clock.chars

end Clock
end OpenApi.Calendar
