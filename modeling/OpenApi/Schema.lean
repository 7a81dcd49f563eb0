-- SUMMARY: Schemas and their edges to other schemas.
import OpenApi.Json
import OpenApi.Primitive
import OpenApi.Reference

/-!
# Schemas

A schema points at the schemas of its properties, items and members by edges into
the arena of its document, so schemas may refer to each other in cycles. What a
document of one dialect says about required properties stands on the edges, in
another dialect in a set of names on the owner.
-/

namespace OpenApi

/-- The kinds of documents. -/
inductive Dialect where
  | swagger2 | openApi30 | openApi31
deriving DecidableEq, Repr

/-- Whether required-ness stands on the edges of properties. -/
def Dialect.isLegacy : Dialect → Bool
  | .swagger2 => true
  | _ => false

/-- The index of a schema in the arena of its document. -/
abbrev SchemaId := Nat

/-- An edge to a child schema. -/
structure Edge where
  id : SchemaId
  /-- The text of the reference, if the child is referred to and not written in place. -/
  reference : Option String := none
  /-- Whether a property is required; only legacy documents look at it. -/
  required : Bool := false
deriving DecidableEq, Repr

/-- A schema. -/
structure Schema where
  dialect : Dialect
  /-- The name of a named schema, or the place of one written inside another. -/
  identity : Option String := none
  title : Option String := none
  type : Option Primitive := none
  format : Option String := none
  properties : Keyed Edge := []
  /-- The names of required properties; legacy documents do not look at them. -/
  required : List String := []
  items : Option Edge := none
  allOf : List Edge := []
  anyOf : List Edge := []
  oneOf : List Edge := []
  discriminator : Option Discriminator := none
  enum : Option (List Json) := none
  default : Option Json := none

/-- The keyword that makes up a schema from others. -/
inductive Combination where
  | allOf (members : List Edge)
  | anyOf (members : List Edge)
  | oneOf (members : List Edge)
  | none
deriving DecidableEq, Repr

namespace Schema

/-- The combination of a schema: `allOf` goes before `anyOf`, and that before `oneOf`. -/
def combination (schema : Schema) : Combination :=
  if !schema.allOf.isEmpty then .allOf schema.allOf
  else if !schema.anyOf.isEmpty then .anyOf schema.anyOf
  else if !schema.oneOf.isEmpty then .oneOf schema.oneOf
  else .none

/-- Whether a schema has neither type nor combination nor properties, so that it exists for the
sake of its variants alone. -/
def isAnchor (schema : Schema) : Bool :=
  schema.type.isNone && schema.combination == .none && schema.properties.isEmpty

/-- Whether a property is required. -/
def isRequired (schema : Schema) (name : String) (edge : Edge) : Bool :=
  if schema.dialect.isLegacy then edge.required else schema.required.contains name

/-- What a schema is called in messages. -/
def label (schema : Schema) : String :=
  (schema.title.or schema.identity).getD "<anonymous>"

end Schema
end OpenApi
