-- SUMMARY: JSON values: numbers, kinds, equality up to the order of members.
import OpenApi.Keyed
import OpenApi.Decimal.Shortest

/-!
# JSON values

An object keeps the order of its members. Two values are the `same` when they
differ in the order of members only; an integer is never the same as a number
with a fraction or an exponent, and the two zeros with a sign are the same.
-/

namespace OpenApi

/-! ## Numbers -/

/-- A JSON number: an integer literal within 64 bits, or a double. -/
inductive Number where
  | int (value : Int)
  | float (value : Double)
deriving DecidableEq, Repr

namespace Number

/-- Numeric equality within one kind; an integer and a double are never equal. -/
def same : Number → Number → Bool
  | .int a, .int b => a == b
  | .float a, .float b => a.same b
  | _, _ => false

/-- The literal of a number. -/
def text : Number → String
  | .int value => toString value
  | .float value => value.text

end Number

/-! ## Values -/

/-- A JSON value. The keys of an object are distinct. -/
inductive Json where
  | null
  | bool (value : Bool)
  | num (value : Number)
  | str (value : String)
  | arr (items : List Json)
  | obj (members : List (String × Json))
deriving Repr

/-- What a value looks like from outside; the word used in messages is `Kind.name`. -/
inductive Kind where
  | null | boolean | integer | number | string | array | object
deriving DecidableEq, Repr

/-- The word for a kind. -/
def Kind.name : Kind → String
  | .null => "null"
  | .boolean => "boolean"
  | .integer => "integer"
  | .number => "number"
  | .string => "string"
  | .array => "array"
  | .object => "object"

namespace Json

/-- The kind of a value. -/
def kind : Json → Kind
  | .null => .null
  | .bool _ => .boolean
  | .num (.int _) => .integer
  | .num (.float _) => .number
  | .str _ => .string
  | .arr _ => .array
  | .obj _ => .object

/-- Whether a value is the given string. -/
def isString (text : String) : Json → Bool
  | .str value => value == text
  | _ => false

/-! ## Equality -/

mutual

/-- Equality up to the order of the members of objects. -/
def same : Json → Json → Bool
  | .null, .null => true
  | .bool a, .bool b => a == b
  | .num a, .num b => a.same b
  | .str a, .str b => a == b
  | .arr xs, .arr ys => sameItems xs ys
  | .obj ms, .obj ns => ms.length == ns.length && sameMembers ms ns
  | _, _ => false

/-- Items are compared place by place. -/
def sameItems : List Json → List Json → Bool
  | [], [] => true
  | x :: xs, y :: ys => same x y && sameItems xs ys
  | _, _ => false

/-- Every member on the left has the same value under its key on the right. -/
def sameMembers : List (String × Json) → List (String × Json) → Bool
  | [], _ => true
  | (key, value) :: rest, ns =>
    (match Keyed.get? ns key with
      | some other => same value other
      | none => false) && sameMembers rest ns

end

/-! ## Size -/

mutual

/-- The number of values inside a value, itself included. -/
def size : Json → Nat
  | .arr items => 1 + sizeItems items
  | .obj members => 1 + sizeMembers members
  | _ => 1

/-- The values in a list of items. -/
def sizeItems : List Json → Nat
  | [] => 0
  | x :: xs => size x + sizeItems xs

/-- The values in a list of members. -/
def sizeMembers : List (String × Json) → Nat
  | [] => 0
  | (_, value) :: rest => size value + sizeMembers rest

end

end Json
end OpenApi
