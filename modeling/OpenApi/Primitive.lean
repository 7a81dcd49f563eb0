-- SUMMARY: The primitive types that a schema may declare.

/-!
# Primitive types

A schema declares at most one of six types by its tag. Four of them are scalar:
their values have no parts.
-/

namespace OpenApi

/-- A type that a schema may declare. -/
inductive Primitive where
  | string | integer | number | boolean | array | object
deriving DecidableEq, Repr

namespace Primitive

/-- The tag of a type. -/
def tag : Primitive → String
  | .string => "string"
  | .integer => "integer"
  | .number => "number"
  | .boolean => "boolean"
  | .array => "array"
  | .object => "object"

/-- The type with a tag. -/
def ofTag? (tag : String) : Option Primitive :=
  [string, integer, number, boolean, array, object].find? (·.tag == tag)

/-- Whether values of the type have no parts. -/
def isScalar : Primitive → Bool
  | .array | .object => false
  | _ => true

end Primitive
end OpenApi
