-- SUMMARY: The shortest decimal that reads back as a given double, and its text.
import OpenApi.Decimal.Double

/-!
# Shortest decimals

A double stands for every real number that rounds to it. Its text has the fewest
digits of any decimal in that interval; of two such decimals it is the nearer
one, and of two equally near ones the one with the even last digit.

The search goes from coarse to fine powers of ten. On a grid of multiples of
`10 ^ e` only the two neighbours of the value can lie in the interval while the
values beyond them do not, so two candidates are tried per grid.
-/

namespace OpenApi

/-- The number `digits * 10 ^ exponent`. -/
structure Decimal where
  digits : Nat
  exponent : Int
deriving DecidableEq, Repr

namespace Double

/-- The mantissas, in quarters of a unit, between which a real number rounds to `x`:
half a unit to either side, a quarter below a power of two. -/
def interval (x : Double) : Nat × Nat :=
  let m := x.mantissa
  let below := if m = 0x10000000000000 && x.biased > 1 then 1 else 2
  (4 * m - below, 4 * m + 2)

/-- The multiple of `10 ^ e` that reads back as `x` and is nearest to it, if there is one. -/
def onGrid? (x : Double) (e : Int) : Option Decimal :=
  let scale := x.exponent - 2
  let num := Nat.pow 10 (-e).toNat <<< scale.toNat
  let den := Nat.pow 10 e.toNat <<< (-scale).toNat
  let value := 4 * x.mantissa * num
  let (low, high) := (x.interval.1 * num, x.interval.2 * num)
  let inside (d : Nat) : Bool :=
    0 < d && if x.mantissa % 2 = 0 then low ≤ d * den && d * den ≤ high
      else low < d * den && d * den < high
  let floor := value / den
  let rest := 2 * (value % den)
  match inside floor, inside (floor + 1) with
  | true, true =>
    some ⟨if rest < den || (rest = den && floor % 2 = 0) then floor else floor + 1, e⟩
  | true, false => some ⟨floor, e⟩
  | false, true => some ⟨floor + 1, e⟩
  | false, false => none

/-- A power of ten above the absolute value of `x` by a factor of less than a thousand. -/
def topExponent (x : Double) : Int :=
  ((Nat.log2 x.mantissa : Int) + x.exponent) * 30103 / 100000 + 2

/-- The shortest decimal that reads back as the absolute value of `x`. At most seventeen
digits are needed, so the search ends within twenty-five grids. -/
def shortest (x : Double) : Decimal :=
  if x.isZero then ⟨0, 0⟩
  else
    ((List.range 25).findSome? fun (i : Nat) => x.onGrid? (x.topExponent - (i : Int))).getD ⟨0, 0⟩

/-! ## Text -/

end Double

namespace Decimal

/-- The places of the leading digit for which a number is written without an exponent:
from `10 ^ (-5)` up to, but not including, `10 ^ 16`. -/
def writtenPlainly (leading : Int) : Bool := -5 ≤ leading && leading < 16

private def zeros (n : Nat) : String := "".pushn '0' n

/-- Plain notation with at least one digit after the point, or scientific notation with a
signed exponent. -/
def text (d : Decimal) : String :=
  let digits := toString d.digits
  let count := digits.length
  let leading := d.exponent + count - 1
  if !writtenPlainly leading then
    let mantissa :=
      if count = 1 then digits
      else String.ofList (digits.toList.take 1) ++ "." ++ String.ofList (digits.toList.drop 1)
    let sign := if leading < 0 then "-" else "+"
    mantissa ++ "e" ++ sign ++ toString leading.natAbs
  else if 0 ≤ d.exponent then digits ++ zeros d.exponent.toNat ++ ".0"
  else if leading < 0 then "0." ++ zeros (-leading - 1).toNat ++ digits
  else
    let whole := leading.toNat + 1
    String.ofList (digits.toList.take whole) ++ "." ++ String.ofList (digits.toList.drop whole)

end Decimal

/-- The text of a double: its sign and its shortest decimal. -/
def Double.text (x : Double) : String :=
  (if x.isNegative then "-" else "") ++ (if x.isZero then "0.0" else x.shortest.text)

end OpenApi
