-- SUMMARY: Binary64 values by their bits, rounded from exact quotients of natural numbers.

/-!
# Doubles

A JSON number that is no integer literal is a binary64 value. It is kept by its
bits, so equality is decidable, and arithmetic goes through exact quotients:
`ofRatio?` rounds a quotient of naturals to the nearest double, ties to even,
and `mul?` and `div?` round the exact product and quotient.
-/

namespace OpenApi

/-- A binary64 value: one sign bit, eleven bits of exponent, fifty-two of fraction. -/
structure Double where
  bits : UInt64
deriving DecidableEq, Repr

namespace Double

/-! ## Parts -/

/-- The bits below the sign. -/
def magnitude (x : Double) : Nat := x.bits.toNat % 0x8000000000000000

/-- Whether the sign bit is set. -/
def isNegative (x : Double) : Bool := 0x8000000000000000 ≤ x.bits.toNat

/-- Either zero. -/
def isZero (x : Double) : Bool := x.magnitude == 0

/-- The biased exponent; zero for zeros and subnormal values. -/
def biased (x : Double) : Nat := x.magnitude / 0x10000000000000

/-- The mantissa of the absolute value, which is `mantissa * 2 ^ exponent`. -/
def mantissa (x : Double) : Nat :=
  if x.biased = 0 then x.magnitude else 0x10000000000000 + x.magnitude % 0x10000000000000

/-- The exponent that belongs to `mantissa`. -/
def exponent (x : Double) : Int :=
  if x.biased = 0 then -1074 else (x.biased : Int) - 1075

/-- Numeric equality of finite values: equal bits, or two zeros of either sign. -/
def same (x y : Double) : Bool :=
  x == y || (x.isZero && y.isZero)

/-! ## Rounding -/

def zero : Double := ⟨0⟩

/-- Flip the sign. -/
def neg (x : Double) : Double :=
  ⟨UInt64.ofNat (if x.isNegative then x.magnitude else x.magnitude + 0x8000000000000000)⟩

/-- The quotient rounded to the nearest natural, a tie to the even one. -/
def roundDiv (num den : Nat) : Nat :=
  let q := num / den
  let r := 2 * (num % den)
  if r < den then q else if den < r then q + 1 else q + q % 2

/-- The largest `e` with `2 ^ e ≤ num / den`, for positive `num` and `den`. -/
def ratioLog2 (num den : Nat) : Int :=
  let guess := (Nat.log2 num : Int) - Nat.log2 den
  if den <<< guess.toNat ≤ num <<< (-guess).toNat then guess else guess - 1

/-- The nearest double to `num / den`, a tie to the even mantissa; `none` if the quotient
rounds beyond the largest finite value. -/
def ofRatio? (num den : Nat) : Option Double :=
  if num = 0 then some zero
  else
    let e := max (ratioLog2 num den - 52) (-1074)
    let m := roundDiv (num <<< (-e).toNat) (den <<< e.toNat)
    let bits := (e + 1074).toNat <<< 52 + m
    if bits < 2047 <<< 52 then some ⟨UInt64.ofNat bits⟩ else none

/-- Numerator of the absolute value as a quotient of naturals. -/
def num (x : Double) : Nat := x.mantissa <<< x.exponent.toNat

/-- Denominator of the absolute value as a quotient of naturals. -/
def den (x : Double) : Nat := 1 <<< (-x.exponent).toNat

/-- The product of two absolute values; `none` if it is too large. -/
def mul? (x y : Double) : Option Double := ofRatio? (x.num * y.num) (x.den * y.den)

/-- The quotient of two absolute values, the second one positive; `none` if it is too large. -/
def div? (x y : Double) : Option Double := ofRatio? (x.num * y.den) (x.den * y.num)

/-- The nearest double to a natural number. -/
def ofNat? (n : Nat) : Option Double := ofRatio? n 1

end Double
end OpenApi
