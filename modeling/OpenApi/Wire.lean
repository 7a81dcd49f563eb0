-- SUMMARY: Schema documents as they are written, before references are resolved.
import OpenApi.Primitive
import OpenApi.Schema

/-!
# Documents as written

A document as written is a tree: schemas hold other schemas, and references are
texts. What later depends on the dialect or on other schemas is kept in the form
in which it was found.
-/

namespace OpenApi.Wire

/-- The type of a schema: one tag or several. -/
inductive TypeTag where
  | one (tag : String)
  | many (tags : List String)
deriving DecidableEq, Repr

/-- What a schema says to be required: itself, or properties by name. -/
inductive Required where
  | flag (value : Bool)
  | names (names : List String)
deriving DecidableEq, Repr

/-- A schema as written. -/
structure Schema where
  reference : Option String := none
  type : Option TypeTag := none
  format : Option String := none
  title : Option String := none
  properties : List (String × Schema) := []
  required : Option Required := none
  items : Option Schema := none
  allOf : List Schema := []
  anyOf : List Schema := []
  oneOf : List Schema := []
  discriminator : Option Discriminator := none
  enum : Option (List Json) := none
  default : Option Json := none

/-- A document as written: its versions, and the places where either dialect keeps named
schemas. -/
structure Document where
  swagger : Option String := none
  openapi : Option String := none
  definitions : List (String × Schema) := []
  components : List (String × Schema) := []

end OpenApi.Wire
