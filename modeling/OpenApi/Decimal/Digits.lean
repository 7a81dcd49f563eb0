-- SUMMARY: Decimal digits of a natural number, padded to a width, and their value.

/-!
# Digits

Dates, times and addresses write numbers with a least number of digits and read
them back digit by digit.
-/

namespace OpenApi.Digits

/-- The value of one digit. -/
def valueOf (d : Char) : Nat := d.toNat - '0'.toNat

/-- The value of a row of digits, the first one counting most. -/
def value (digits : List Char) : Nat :=
  digits.foldl (fun n d => 10 * n + valueOf d) 0

/-- The digits of a number, with zeros in front up to the given width. -/
def padded (width n : Nat) : List Char :=
  let digits := Nat.toDigits 10 n
  List.replicate (width - digits.length) '0' ++ digits

end OpenApi.Digits
