-- SUMMARY: Models: the types of values that a document describes, and the tables to find them by.
import OpenApi.Format
import OpenApi.Schema

/-!
# Models

A model is an object with fields or a union of alternatives. Types refer to models
by their index in a model set, so models may contain each other. An anchor is no
model: it stands for its variants, which are models of their own.
-/

namespace OpenApi

/-! ## Types -/

/-- The index of a model in its model set. -/
abbrev ModelId := Nat

/-- A type of values. -/
inductive Ty where
  | scalar (type : ScalarType)
  | array (item : Ty)
  | model (id : ModelId)
  /-- The one tag by which a union selects the model around it. -/
  | literal (tag : String)
  /-- Any variant of the anchor that this schema makes. -/
  | anchor (schema : SchemaId)
deriving DecidableEq, Repr

/-- The number of types inside a type, itself included. -/
def Ty.size : Ty → Nat
  | .array item => 1 + item.size
  | _ => 1

/-! ## Models -/

/-- A field of an object. -/
structure Field where
  name : String
  type : Ty
  required : Bool := false
  /-- What the field holds when an instance leaves it out. -/
  default : Option Json := none
  /-- The values that it is restricted to. -/
  enum : Option (List Json) := none

/-- What the values of a model look like. -/
inductive Shape where
  | object (fields : List Field)
  /-- The values of several types. `tags` says which alternative a tag selects; without a mapping,
  the first alternative that fits is taken. -/
  | union (alternatives : List Ty) (discriminator : Option Discriminator) (tags : Keyed Nat)

/-- A model and the schema that it was made from. -/
structure Model where
  name : String
  schema : SchemaId
  shape : Shape

namespace Model

/-- The fields of an object; a union has none. -/
def fields (model : Model) : List Field :=
  match model.shape with
  | .object fields => fields
  | .union .. => []

/-- The field with a name. -/
def field (model : Model) (name : String) : Option Field :=
  model.fields.find? (·.name == name)

/-- The discriminator of a union that tells its values apart by their tags. -/
def taggedBy (model : Model) : Option Discriminator :=
  match model.shape with
  | .union _ discriminator _ => discriminator.filter (·.isTagged)
  | .object _ => none

end Model

/-- A schema that stands for others, and the models of those. -/
structure Anchor where
  name : String
  variants : List ModelId := []
deriving DecidableEq, Repr

/-! ## Model sets -/

/-- The models of a document. -/
structure ModelSet where
  models : Array Model := #[]
  /-- The model that was made from each schema. -/
  bySchema : List (SchemaId × ModelId) := []
  /-- The types of named schemas; an anchor has none of its own. -/
  roots : Keyed (Option Ty) := []
  anchors : List (SchemaId × Anchor) := []

namespace ModelSet

/-- The model at an index; one without fields where there is none. -/
def model (set : ModelSet) (id : ModelId) : Model :=
  set.models.getD id { name := "", schema := 0, shape := .object [] }

/-- The first model with a name; several may have it. -/
def find (set : ModelSet) (name : String) : Option ModelId :=
  set.models.toList.findIdx? (·.name == name)

/-- The model of a schema. -/
def forSchema (set : ModelSet) (schema : SchemaId) : Option ModelId :=
  List.lookup schema set.bySchema

/-- The type of a named schema. -/
def root (set : ModelSet) (name : String) : Option Ty := (set.roots.get? name).join

/-- The anchor that a schema makes. -/
def anchor (set : ModelSet) (schema : SchemaId) : Option Anchor :=
  List.lookup schema set.anchors

/-- The anchors in the order of their names. -/
def anchorsByName (set : ModelSet) : List Anchor :=
  (set.anchors.map (·.2)).mergeSort fun a b => decide (a.name ≤ b.name)

/-- What a type is called in messages. -/
def typeName (set : ModelSet) : Ty → String
  | .scalar type => type.name
  | .array item => "list[" ++ set.typeName item ++ "]"
  | .model id => (set.model id).name
  | .literal tag => "literal " ++ Text.quoted tag
  | .anchor schema => ((set.anchor schema).map (·.name)).getD "<anchor>"

end ModelSet
end OpenApi
