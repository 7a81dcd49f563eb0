-- SUMMARY: The view of a model set as a JSON value.
import OpenApi.Model

/-!
# Views

The view shows every model once, in the order of the set. Elsewhere models are
shown as links by their index, so the view of recursive models is finite.
-/

namespace OpenApi

/-- Whether a scalar type is the one that a primitive type has without a format. -/
def ScalarType.isPlain : ScalarType → Bool
  | .boolean | .integer | .float | .text => true
  | _ => false

namespace ModelSet

/-! ## Types -/

/-- The members of a link to a model. -/
def linkMembers (set : ModelSet) (id : ModelId) : List (String × Json) :=
  [("$model", .num (.int id)), ("title", .str (set.model id).name)]

/-- A link to a model. -/
def link (set : ModelSet) (id : ModelId) : Json := .obj (set.linkMembers id)

/-- The members of the view of a type. -/
def typeMembers (set : ModelSet) : Ty → List (String × Json)
  | .scalar type =>
    ("type", .str type.primitive.tag) ::
      if type.isPlain then [] else [("format", .str type.name)]
  | .array item => [("type", .str "array"), ("items", .obj (set.typeMembers item))]
  | .model id => set.linkMembers id
  | .literal tag => [("type", .str "string"), ("const", .str tag)]
  | .anchor schema =>
    match set.anchor schema with
    | some anchor => [("anchor", .str anchor.name), ("oneOf", .arr (anchor.variants.map set.link))]
    | none => [("type", .str "any")]

/-- The view of a type. -/
def viewType (set : ModelSet) (type : Ty) : Json := .obj (set.typeMembers type)

/-! ## Models -/

/-- The view of a field: that of its type, with its restriction and its default. -/
def viewField (set : ModelSet) (field : Field) : Json :=
  .obj (set.typeMembers field.type ++
    (field.enum.map fun values => ("enum", .arr values)).toList ++
    (field.default.map fun value => ("default", value)).toList)

/-- The view of a discriminator with the alternatives that its tags select. -/
def viewDiscriminator (discriminator : Discriminator) (tags : Keyed Nat) : Json :=
  .obj (("propertyName", .str discriminator.property) ::
    if tags.isEmpty then []
    else [("mapping", .obj (tags.map fun (tag, index) => (tag, .num (.int index))))])

/-- The members of the view of a shape. -/
def shapeMembers (set : ModelSet) : Shape → List (String × Json)
  | .object fields =>
    let required := (fields.filter (·.required)).map fun field => Json.str field.name
    let properties := fields.map fun field => (field.name, set.viewField field)
    [("type", .str "object"), ("properties", .obj (Keyed.ofList properties))] ++
      if required.isEmpty then [] else [("required", .arr required)]
  | .union alternatives discriminator tags =>
    ("oneOf", .arr (alternatives.map set.viewType)) ::
      (discriminator.map fun d => ("discriminator", viewDiscriminator d tags)).toList

/-- The view of a model at its index. -/
def viewModel (set : ModelSet) (id : ModelId) (model : Model) : Json :=
  .obj (set.shapeMembers model.shape ++ [("title", .str model.name), ("$id", .num (.int id))])

/-! ## Model sets -/

/-- The view of the type of a root; an anchor has none. -/
def viewRoot (set : ModelSet) (type : Option Ty) : Json := (type.map set.viewType).getD .null

/-- The view of a model set: its roots, its models, and its anchors in the order of their
names. -/
def view (set : ModelSet) : Json :=
  let anchors := set.anchorsByName.map fun anchor =>
    (anchor.name, Json.arr (anchor.variants.map set.link))
  .obj
    [("roots", .obj (set.roots.map fun (name, type) => (name, set.viewRoot type))),
     ("models", .arr (set.models.toList.zipIdx.map fun (model, id) => set.viewModel id model)),
     ("anchors", .obj (Keyed.ofList anchors))]

end ModelSet
end OpenApi
