-- SUMMARY: Internet addresses of both families, read from and written as text.
import OpenApi.Decimal.Digits
import OpenApi.Text.Quoted

/-!
# Internet addresses

An address of version four is four decimal numbers below 256 between points,
none with a zero in front. One of version six is eight groups of up to four
hexadecimal digits between colons; one run of groups may be left out at a double
colon, where at least one group is missing, and the last two groups may be
written as an address of version four.

Written, the longest run of at least two zero groups is left out, the first one
of equal length, and an address that maps one of version four shows it.
-/

namespace OpenApi

/-- An internet address. -/
inductive Ip where
  | v4 (a b c d : Fin 256)
  | v6 (groups : Vector (Fin 65536) 8)
deriving DecidableEq

namespace Ip

/-! ## Numbers -/

/-- The value of a digit in a base up to sixteen. -/
def digit? (base : Nat) (c : Char) : Option Nat :=
  let value :=
    if '0' ≤ c ∧ c ≤ '9' then c.toNat - '0'.toNat
    else if 'a' ≤ c ∧ c ≤ 'f' then c.toNat - 'a'.toNat + 10
    else if 'A' ≤ c ∧ c ≤ 'F' then c.toNat - 'A'.toNat + 10
    else base
  if value < base then some value else none

/-- The digits at the front of a text, and the rest. -/
def spanDigits (base : Nat) (text : List Char) : List Nat × List Char :=
  let digits := text.takeWhile fun c => (digit? base c).isSome
  (digits.filterMap (digit? base), text.drop digits.length)

/-- The value of digits in a base. -/
def ofDigits (base : Nat) (digits : List Nat) : Nat :=
  digits.foldl (fun n d => base * n + d) 0

/-- A decimal number below 256 without a zero in front. -/
def takeOctet (text : List Char) : Option (Fin 256 × List Char) :=
  let (digits, rest) := spanDigits 10 text
  let n := ofDigits 10 digits
  if h : n < 256 then
    if digits.isEmpty || 3 < digits.length || (digits.head? == some 0 && 1 < digits.length) then none
    else some (⟨n, h⟩, rest)
  else none

/-- A group of one to four hexadecimal digits. -/
def takeGroup (text : List Char) : Option (Fin 65536 × List Char) :=
  let (digits, rest) := spanDigits 16 text
  let n := ofDigits 16 digits
  if h : n < 65536 then
    if digits.isEmpty || 4 < digits.length then none else some (⟨n, h⟩, rest)
  else none

/-- A given character. -/
def takeChar (expected : Char) : List Char → Option (List Char)
  | c :: rest => if c = expected then some rest else none
  | [] => none

/-! ## Reading -/

/-- An address of version four at the front of a text. -/
def takeV4 (text : List Char) : Option ((Fin 256 × Fin 256 × Fin 256 × Fin 256) × List Char) := do
  let (a, rest) ← takeOctet text
  let (b, rest) ← takeOctet (← takeChar '.' rest)
  let (c, rest) ← takeOctet (← takeChar '.' rest)
  let (d, rest) ← takeOctet (← takeChar '.' rest)
  some ((a, b, c, d), rest)

/-- The group of two octets. -/
def pair (high low : Fin 256) : Fin 65536 :=
  ⟨256 * high.val + low.val, by omega⟩

/-- Up to `limit` groups at the front of a text, each but the first behind a colon; the last
two may be an address of version four. Tells whether they are. -/
def takeGroups (first : Bool) : Nat → List Char → List (Fin 65536) × Bool × List Char
  | 0, text => ([], false, text)
  | limit + 1, text =>
    match if first then some text else takeChar ':' text with
    | none => ([], false, text)
    | some start =>
      match if 0 < limit then takeV4 start else none with
      | some ((a, b, c, d), rest) => ([pair a b, pair c d], true, rest)
      | none =>
        match takeGroup start with
        | none => ([], false, text)
        | some (group, rest) =>
          let (groups, embedded, rest) := takeGroups false limit rest
          (group :: groups, embedded, rest)

/-- Eight groups, with zeros between the two parts. -/
def assemble (front back : List (Fin 65536)) : Vector (Fin 65536) 8 :=
  Vector.ofFn fun i =>
    if h : i.val < front.length then front[i.val]
    else if 8 ≤ i.val + back.length then back.getD (i.val + back.length - 8) 0 else 0

/-- An address of version six at the front of a text. -/
def takeV6 (text : List Char) : Option (Vector (Fin 65536) 8 × List Char) :=
  let (front, embedded, rest) := takeGroups true 8 text
  if front.length = 8 then some (assemble front [], rest)
  else if embedded then none
  else do
    let rest ← takeChar ':' (← takeChar ':' rest)
    let (back, _, rest) := takeGroups true (7 - front.length) rest
    some (assemble front back, rest)

/-- Read an address that makes up the whole text. -/
def read (text : List Char) : Option Ip :=
  match takeV4 text with
  | some ((a, b, c, d), rest) => if rest.isEmpty then some (.v4 a b c d) else none
  | none =>
    match takeV6 text with
    | some (groups, rest) => if rest.isEmpty then some (.v6 groups) else none
    | none => none

/-! ## Writing -/

/-- Four decimal numbers between points. -/
def v4Text (a b c d : Nat) : String :=
  String.intercalate "." ([a, b, c, d].map toString)

/-- Groups in hexadecimal digits between colons. -/
def groupsText (groups : List (Fin 65536)) : String :=
  String.intercalate ":" (groups.map fun group => Text.hex group.val)

/-- The number of zeros at the front. -/
def zeroRun (groups : List (Fin 65536)) : Nat := (groups.takeWhile (· == 0)).length

/-- Start and length of the longest run of zeros, the first one of equal length. -/
def longestZeroRun (groups : List (Fin 65536)) : Nat × Nat :=
  (List.range groups.length).foldl (fun best start =>
    let length := zeroRun (groups.drop start)
    if best.2 < length then (start, length) else best) (0, 0)

/-- Write an address. -/
def text : Ip → String
  | .v4 a b c d => v4Text a.val b.val c.val d.val
  | .v6 groups =>
    match groups.toList with
    | [0, 0, 0, 0, 0, ⟨0xffff, _⟩, high, low] =>
      "::ffff:" ++ v4Text (high.val / 256) (high.val % 256) (low.val / 256) (low.val % 256)
    | groups =>
      let (start, length) := longestZeroRun groups
      if 1 < length then
        groupsText (groups.take start) ++ "::" ++ groupsText (groups.drop (start + length))
      else groupsText groups

/-- Whether the address is of version six. -/
def isV6 : Ip → Bool
  | .v4 .. => false
  | .v6 _ => true

end Ip
end OpenApi
