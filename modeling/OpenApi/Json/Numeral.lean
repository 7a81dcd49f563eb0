-- SUMMARY: Number literals: their parts and the number they stand for.
import OpenApi.Json

/-!
# Numerals

A number literal has a sign, whole digits, perhaps a fraction and perhaps an
exponent. A literal of whole digits alone is an integer if it fits 64 bits. Any
other literal is a double, found in two roundings: as many leading digits as fit
64 bits make a significand, and the significand, as a double, is multiplied or
divided by a power of ten. Whole digits that no longer fit raise the exponent,
digits of the fraction that no longer fit are dropped.
-/

namespace OpenApi

/-! ## Scaling by powers of ten -/

namespace Double

/-- The nearest double to `10 ^ n`; `none` beyond `10 ^ 308`. -/
def tenPower? (n : Nat) : Option Double := if n ≤ 308 then ofRatio? (Nat.pow 10 n) 1 else none

/-- Scale by a power of ten, one factor of at most `10 ^ 308` at a time. Four steps down
reach zero from any value, and a step up beyond the table is out of range. -/
def scale? : Nat → Double → Int → Option Double
  | 0, x, _ => some x
  | steps + 1, x, e =>
    match tenPower? e.natAbs with
    | some p => if 0 ≤ e then x.mul? p else x.div? p
    | none =>
      if x.isZero then some x
      else if 0 ≤ e then none
      else
        match tenPower? 308 with
        | some p => (x.div? p).bind fun y => scale? steps y (e + 308)
        | none => none

end Double

/-! ## Literals -/

/-- The parts of a number literal, digits as numbers below ten. -/
structure Numeral where
  negative : Bool
  whole : List Nat
  fraction : List Nat
  /-- Whether there is a point. -/
  pointed : Bool
  /-- The sign and the digits of the exponent. -/
  power : Option (Bool × List Nat)
deriving DecidableEq, Repr

namespace Numeral

/-- Take digits into a significand while it stays below `2 ^ 64`; the rest is left over. -/
def absorb : Nat → List Nat → Nat × List Nat
  | significand, [] => (significand, [])
  | significand, d :: ds =>
    if 10 * significand + d < 0x10000000000000000 then absorb (10 * significand + d) ds
    else (significand, d :: ds)

/-- An exponent below `2 ^ 31`, or the digits that follow the one at which it grew too large. -/
def exponent : Nat → List Nat → Except (List Nat) Nat
  | value, [] => .ok value
  | value, d :: ds => if 10 * value + d < 0x80000000 then exponent (10 * value + d) ds else .error ds

/-- A double with the sign of the literal. -/
def signed (n : Numeral) (x : Double) : Number := .float (if n.negative then x.neg else x)

/-- The number a literal stands for. One that is too large fails with the count of characters
at its end that were not looked at. -/
def value (n : Numeral) : Except Nat Number :=
  let (significand, surplus) := absorb 0 n.whole
  if surplus.isEmpty && !n.pointed && n.power.isNone then
    if !n.negative then .ok (.int significand)
    else if 0 < significand && significand ≤ 0x8000000000000000 then .ok (.int (-significand))
    else .ok (n.signed ((Double.ofNat? significand).getD Double.zero))
  else
    let (significand, unread) := absorb significand n.fraction
    let start : Int := (surplus.length : Int) - ((n.fraction.length - unread.length : Nat) : Int)
    let scaled (e : Int) : Except Nat Number :=
      match (Double.ofNat? significand).bind fun x => x.scale? 4 e with
      | some x => .ok (n.signed x)
      | none => .error 0
    match n.power with
    | none => scaled start
    | some (down, digits) =>
      match exponent 0 digits with
      | .ok e => scaled (if down then start - e else start + e)
      | .error rest =>
        if significand ≠ 0 && !down then .error rest.length else .ok (n.signed Double.zero)

end Numeral
end OpenApi
