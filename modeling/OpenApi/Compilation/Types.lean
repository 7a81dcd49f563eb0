-- SUMMARY: The types of schemas, and the compilation of a whole document.
import OpenApi.Compilation.Fields

/-!
# Types

A schema with a scalar type is that type, and an array is an array of its items.
A schema without type, combination and properties is an anchor: it has no type of
its own, only the variants that its discriminator maps to. Every other schema is a
model, built once: an object, or a union of its members.

A schema is asked for with a bound on how deeply schemas may ask for others. No
document comes near the bound unless one of its arrays holds itself through arrays
alone.
-/

namespace OpenApi

variable (doc : Document) (registry : Registry) (ask : Requests)

/-! ## Unions -/

/-- What a member of a union is called on a path. -/
def memberStep (member : Edge) : String :=
  member.reference.getD (doc.schema member.id).label

/-- Whether a mapping target means a member: it refers to the same schema, or by the same words. -/
def memberMatches (member : Edge) (target : String) : Bool :=
  doc.resolve target == some member.id ||
    member.reference.any fun reference => Reference.isTarget target reference

/-- The members that have a type of their own, with their types. -/
def alternativesOf (context : Context) (schema : Schema) (members : List Edge) :
    Compile (List (Edge × Ty)) :=
  members.foldlM (fun found member => do
    let inner := context.follow schema.discriminator (memberStep doc member)
    match ← ask.type inner member.id with
    | some type => return found ++ [(member, type)]
    | none => return found) []

/-- The alternative that each tag of a mapping selects; a tag that means no member is left out. -/
def tagsOf (mapping : Keyed String) (members : List Edge) : Keyed Nat :=
  mapping.filterMap fun (tag, target) =>
    (members.findIdx? (memberMatches doc · target)).map fun place => (tag, place)

/-- The union of the members of a schema. -/
def unionOf (context : Context) (id : SchemaId) (members : List Edge) : Compile Shape := do
  let schema := doc.schema id
  let found ← Compile.between (fun state => { state with unions := id :: state.unions })
    (fun state => { state with unions := state.unions.tail })
    (alternativesOf doc ask context schema members)
  let mapping := (schema.discriminator.bind (·.mapping)).getD []
  return .union (found.map (·.2)) schema.discriminator (tagsOf doc mapping (found.map (·.1)))

/-! ## Anchors -/

/-- The models that the targets of a mapping mean, each once. -/
def variantsOf (context : Context) (schema : Schema) (targets : List String) :
    Compile (List ModelId) :=
  targets.foldlM (fun variants target => do
    match doc.resolve target with
    | none => throw (.failed (.unresolvedReference target))
    | some id =>
      match ← ask.type (context.follow schema.discriminator target) id with
      | some (.model model) =>
        return if variants.contains model then variants else variants ++ [model]
      | _ => return variants) []

/-- Register an anchor with its variants, unless it is registered. -/
def registerAnchor (context : Context) (id : SchemaId) : Compile Unit := do
  let schema := doc.schema id
  if ((← get).anchor? id).isSome then return
  modify (·.addAnchor id schema.label)
  match schema.discriminator.bind (·.mapping) with
  | none => return
  | some mapping =>
    let variants ← variantsOf doc ask context schema (mapping.map (·.2))
    modify (·.setVariants id variants)

/-! ## Models and types -/

/-- The name of the model for a schema; one without title and identity is numbered. -/
def modelName (schema : Schema) : Compile String := do
  match schema.title.or schema.identity with
  | some name => return name
  | none =>
    modify fun state => { state with anonymous := state.anonymous + 1 }
    return "Anonymous" ++ toString (← get).anonymous

/-- What the values of a schema look like. -/
def shapeOf (context : Context) (name : String) (id : SchemaId) : Compile Shape :=
  let schema := doc.schema id
  match schema.combination with
  | .allOf _ => return .object (← mergedFields doc ask context name id)
  | .anyOf members | .oneOf members => unionOf doc ask context id members
  | .none => return .object (← fieldsOf doc ask context schema)

/-- Build the model of a schema. -/
def buildModel (context : Context) (id : SchemaId) : Compile ModelId := do
  let name ← modelName (doc.schema id)
  let model := (← get).slots.size
  modify (·.reserve id)
  let shape ← shapeOf doc ask context name id
  modify (·.fill model { name, schema := id, shape })
  return model

/-- The type of a schema that is an anchor or has a model. A model that is met while it is being
built is known by its index; only a union must not be an alternative of itself. -/
def modelType (context : Context) (id : SchemaId) : Compile (Option Ty) := do
  let schema := doc.schema id
  let state ← get
  match state.model? id with
  | some model =>
    if state.unions.contains id then throw (.failed (.cyclicUnion schema.label))
    else return some (.model model)
  | none =>
    if schema.isAnchor then
      registerAnchor doc ask context id
      return none
    else return some (.model (← buildModel doc ask context id))

/-- The type of a schema; an anchor has none. -/
def typeOf (context : Context) (id : SchemaId) : Compile (Option Ty) := do
  let schema := doc.schema id
  match schema.type with
  | some .array =>
    match schema.items with
    | some items => return some (.array (← elementType ask items))
    | none => throw (.failed (.missingItems schema.label))
  | some .object | none => modelType doc ask context id
  | some scalar => return some (.scalar (← Compile.ofExcept (registry.resolve scalar schema.format)))

/-! ## Compilation -/

/-- The answers to requests that may ask for others up to the given depth. Beyond it they have no
end. -/
def requests : Nat → Requests
  | 0 => { type := fun _ _ => throw .endless, merged := fun _ _ _ => throw .endless }
  | depth + 1 =>
    { type := fun context id => typeOf doc registry (requests depth) context id
      merged := fun context model id => mergedFields doc (requests depth) context model id }

/-- A depth that is enough. Every request is for a model or an anchor that is not known yet, for
`allOf` members that are not being merged yet, or for the items of an array; only the last can
follow each other without anything new, and then along different arrays. -/
def Document.depth : Nat :=
  let count := doc.schemas.size
  (2 * count + 1) * (count + 1) + 1

namespace Compile

/-- The type of a schema; an anchor has none. -/
def schema (id : SchemaId) : Compile (Option Ty) :=
  (requests doc registry doc.depth).type {} id

/-- The type of a named schema, noted as a root. -/
def named (name : String) : Compile (Option Ty) := do
  match doc.lookup name with
  | none => throw (.failed (.unknownSchema name))
  | some id =>
    let type ← schema doc registry id
    modify (·.addRoot name type)
    return type

end Compile

namespace Compilation

/-- The models, unless the slot of one is still empty. -/
def modelsOf (memo : List (SchemaId × ModelId)) (place : Nat) :
    List (Option Model) → Except SchemaError (List Model)
  | [] => .ok []
  | some model :: rest => (modelsOf memo (place + 1) rest).map (model :: ·)
  | none :: _ =>
    .error (.incomplete (((memo.find? (·.2 == place)).map
      fun entry => (doc.schema entry.1).label).getD ""))

/-- The model set that a compilation has built. -/
def finish (state : Compilation) : Except SchemaError ModelSet := do
  let models ← modelsOf doc state.memo 0 state.slots.toList
  return { models := models.toArray, bySchema := state.memo, roots := state.roots,
           anchors := state.anchors }

end Compilation

namespace Document

/-- The steps that compile all named schemas. Those with a discriminator go first, so that the
variants of a hierarchy are reached through it and have their tags narrowed. -/
def compileNamed : Compile Unit := do
  doc.named.forM fun (_, id) => do
    if (doc.schema id).discriminator.isSome then
      discard (Compile.schema doc .standard id)
  doc.named.forM fun (name, _) => discard (Compile.named doc .standard name)

/-- Compile all named schemas of a document. -/
def compile : Except (Stop SchemaError) ModelSet :=
  match doc.compileNamed {} with
  | (.ok _, state) => (state.finish doc).mapError .failed
  | (.error stop, _) => .error stop

end Document
end OpenApi
