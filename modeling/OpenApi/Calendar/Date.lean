-- SUMMARY: Days of the Gregorian calendar, read from and written as text.
import OpenApi.Calendar.Reader

/-!
# Dates

A date is a day of the proleptic Gregorian calendar within about 262 thousand
years of the year zero. It is read as year, month and day between dashes, where
month and day may have one digit, and written with two digits each; a year
outside 0 to 9999 has a sign.
-/

namespace OpenApi.Calendar

/-! ## The calendar -/

/-- Whether a year has a 29th of February. -/
def isLeapYear (year : Int) : Bool :=
  year % 4 = 0 && (year % 100 ≠ 0 || year % 400 = 0)

/-- The number of days of a month. -/
def daysInMonth (year : Int) : Nat → Nat
  | 2 => if isLeapYear year then 29 else 28
  | 4 | 6 | 9 | 11 => 30
  | _ => 31

/-- The days that the calendar has. -/
def IsDay (year : Int) (month day : Nat) : Prop :=
  (-262143 ≤ year ∧ year ≤ 262142) ∧ (1 ≤ month ∧ month ≤ 12) ∧
    (1 ≤ day ∧ day ≤ daysInMonth year month)

instance (year : Int) (month day : Nat) : Decidable (IsDay year month day) := by
  unfold IsDay; infer_instance

/-- A day of the calendar. -/
structure Date where
  year : Int
  month : Nat
  day : Nat
  isDay : IsDay year month day
deriving DecidableEq

namespace Date

/-- The day with the given numbers, if there is one. -/
def ofNumbers? (year : Int) (month day : Nat) : Except Fault Date :=
  if h : IsDay year month day then .ok ⟨year, month, day, h⟩ else .error .outOfRange

/-! ## Text -/

/-- The numbers of a date at the front of a text. -/
def takeNumbers (text : List Char) : Except Fault ((Int × Nat × Nat) × List Char) := do
  let (year, rest) ← takeYear text
  let rest ← takeChar '-' rest
  let (month, rest) ← takeWithin 2 1 12 rest
  let rest ← takeChar '-' rest
  let (day, rest) ← takeWithin 2 1 31 rest
  .ok ((year, month, day), rest)

/-- Read a date that makes up the whole text. -/
def read (text : String) : Except Fault Date := do
  let (year, month, day) ← (takeNumbers text.toList).bind finish
  ofNumbers? year month day

/-- A year with four digits, or with a sign and at least four digits. -/
def yearText (year : Int) : List Char :=
  if 0 ≤ year ∧ year ≤ 9999 then Digits.padded 4 year.toNat
  else (if year < 0 then '-' else '+') :: Digits.padded 4 year.natAbs

/-- The characters of a date. -/
def chars (date : Date) : List Char :=
  yearText date.year ++ '-' :: Digits.padded 2 date.month ++ '-' :: Digits.padded 2 date.day

/-- Write a date. -/
def text (date : Date) : String := String.ofList date.chars

end Date
end OpenApi.Calendar
