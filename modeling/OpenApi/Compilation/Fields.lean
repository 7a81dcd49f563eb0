-- SUMMARY: The fields of objects: their types, narrowed tags, and the merging of members.
import OpenApi.Compilation

/-!
# Fields

The fields of an object are its properties. A property that an enclosing
discriminator names is narrowed to the tag that selects the object. An object made
with `allOf` has the fields of its members and its own: fields of one name become
one, the first giving the place.
-/

namespace OpenApi

/-! ## Contexts -/

/-- How a schema was reached through unions and anchors. Fields and items start anew. -/
structure Context where
  /-- The members followed, the outermost first. -/
  path : List String := []
  /-- The discriminators on the way, the outermost first. -/
  discriminators : List Discriminator := []

namespace Context

/-- The context behind one more member. -/
def follow (context : Context) (discriminator : Option Discriminator) (step : String) : Context :=
  { path := context.path ++ [step]
    discriminators := context.discriminators ++ discriminator.toList }

/-- The tag that a property is narrowed to. The outermost discriminator of that name decides; if
it maps tags, one of them has to lie on the path. -/
def narrow (context : Context) (name : String) : Except SchemaError (Option String) :=
  match context.discriminators.find? (·.property == name) with
  | none => .ok none
  | some discriminator =>
    if discriminator.isTagged then
      match discriminator.tagForPath context.path with
      | some tag => .ok (some tag)
      | none => .error (.uncoveredDiscriminator name context.path)
    else .ok none

end Context

/-! ## Absorbing fields -/

/-- A field that is declared again with the same type: required if either is, and with the first
default and the first restriction there is. -/
def Field.combine (field other : Field) : Field :=
  { field with
    required := field.required || other.required
    default := field.default.or other.default
    enum := field.enum.or other.enum }

/-- Add a field of an object, or combine it with the one of its name. -/
def absorbField (model : String) : List Field → Field → Except SchemaError (List Field)
  | [], field => .ok [field]
  | first :: rest, field =>
    if first.name = field.name then
      if first.type = field.type then .ok (first.combine field :: rest)
      else .error (.conflictingField model field.name)
    else (absorbField model rest field).map (first :: ·)

/-- Add fields one after another. -/
def absorb (model : String) (merged fields : List Field) : Except SchemaError (List Field) :=
  fields.foldlM (absorbField model) merged

/-! ## Fields of a schema -/

/-- What the compilation of one schema asks of others: the type that a schema has in a context,
and the merged fields that it contributes to a model. -/
structure Requests where
  type : Context → SchemaId → Compile (Option Ty)
  merged : Context → String → SchemaId → Compile (List Field)

variable (doc : Document) (ask : Requests)

/-- The type of a field or an item. It does not depend on how its owner was reached. -/
def elementType (edge : Edge) : Compile Ty := do
  let unions := (← get).unions
  let type ← Compile.between ({ · with unions := [] }) ({ · with unions := unions })
    (ask.type {} edge.id)
  return type.getD (.anchor edge.id)

/-- The field for a property of a schema. -/
def fieldOf (context : Context) (schema : Schema) (name : String) (edge : Edge) :
    Compile Field := do
  let type ← match ← Compile.ofExcept (context.narrow name) with
    | some tag => pure (.literal tag)
    | none => elementType ask edge
  let child := doc.schema edge.id
  return { name, type, required := schema.isRequired name edge,
           default := child.default, enum := child.enum }

/-- The fields for the properties of a schema. -/
def fieldsOf (context : Context) (schema : Schema) : Compile (List Field) :=
  schema.properties.mapM fun (name, edge) => fieldOf doc ask context schema name edge

/-! ## Merging -/

/-- The fields that a member contributes: an object or another `allOf` has some, and nothing else
can be merged. -/
def contribution (context : Context) (model : String) (owner : Schema) (member : Edge) :
    Compile (List Field) :=
  let part := doc.schema member.id
  let unmergeable : Compile (List Field) :=
    throw (.failed (.unmergeableMember owner.label (member.reference.getD part.label)))
  match part.combination with
  | .allOf _ => ask.merged context model member.id
  | .none =>
    match part.type with
    | none | some .object => fieldsOf doc ask context part
    | some _ => unmergeable
  | .anyOf _ | .oneOf _ => unmergeable

/-- Make the fields required that a schema requires, also those that only its members declare. A
legacy document says so on the properties themselves. -/
def requireOwn (schema : Schema) (fields : List Field) : List Field :=
  if schema.dialect.isLegacy then fields
  else fields.map fun field =>
    { field with required := field.required || schema.required.contains field.name }

/-- The fields of the members of a schema and its own, merged. -/
def mergeMembers (context : Context) (model : String) (schema : Schema) :
    Compile (List Field) := do
  let inherited ← schema.allOf.foldlM (fun merged member => do
    let fields ← contribution doc ask context model schema member
    Compile.ofExcept (absorb model merged fields)) []
  let own ← fieldsOf doc ask context schema
  let merged ← Compile.ofExcept (absorb model inherited own)
  return requireOwn schema merged

/-- The merged fields of a schema, which must not be a member of itself. -/
def mergedFields (context : Context) (model : String) (id : SchemaId) :
    Compile (List Field) := do
  let schema := doc.schema id
  if (← get).merging.contains id then throw (.failed (.cyclicAllOf schema.label))
  else
    Compile.between (fun state => { state with merging := id :: state.merging })
      (fun state => { state with merging := state.merging.erase id })
      (mergeMembers doc ask context model schema)

end OpenApi
