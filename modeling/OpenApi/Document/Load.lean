-- SUMMARY: Loading a document: its dialect, its names and aliases, and the arena of its schemas.
import OpenApi.Document
import OpenApi.Json.Reader
import OpenApi.SchemaError
import OpenApi.Wire.Reader

/-!
# Loading documents

Named schemas get a slot before any body is looked at, so references may point
forward. A named schema that is only a reference is an alias: it gets no slot, and
its name comes to mean what its target means. The bodies follow in order; a schema
written inside another one is added behind everything inside it, and its identity
is its place, such as `Pet.tags.items`.
-/

namespace OpenApi.Document

/-! ## Dialects -/

/-- The dialect that the versions of a document declare. -/
def dialectOf (doc : Wire.Document) : Except SchemaError Dialect :=
  match doc.swagger, doc.openapi with
  | some _, some _ => .error (.unsupportedDocument "declares both `swagger` and `openapi`")
  | some version, none =>
    if version = "2.0" then .ok .swagger2
    else .error (.unsupportedDocument ("version " ++ version))
  | none, some version =>
    if version.startsWith "3.0" then .ok .openApi30
    else if version.startsWith "3.1" then .ok .openApi31
    else .error (.unsupportedDocument ("version " ++ version))
  | none, none =>
    .error (.unsupportedDocument "neither `swagger` nor `openapi` is declared")

/-- The named schemas of a document, where its dialect keeps them. -/
def namedOf (dialect : Dialect) (doc : Wire.Document) : List (String × Wire.Schema) :=
  if dialect.isLegacy then doc.definitions else doc.components

/-! ## Names -/

/-- Reserve and name a slot for every schema that is no alias. -/
def reserveNamed (doc : Document) (named : List (String × Wire.Schema)) : Document :=
  named.foldl (fun doc (name, schema) =>
    if schema.reference.isSome then doc
    else
      let (doc, id) := doc.reserve
      doc.name name id) doc

/-- The aliases among named schemas with their targets. -/
def aliasesOf (named : List (String × Wire.Schema)) : List (String × String) :=
  named.filterMap fun (name, schema) => schema.reference.map fun target => (name, target)

/-- Name every alias whose target is known by now; the others remain. -/
def aliasPass (doc : Document) : List (String × String) → Document × List (String × String)
  | [] => (doc, [])
  | (name, target) :: rest =>
    match doc.resolve target with
    | some id => aliasPass (doc.name name id) rest
    | none =>
      let (doc, remaining) := aliasPass doc rest
      (doc, (name, target) :: remaining)

/-- Name aliases pass by pass. A pass without progress leaves one without a schema; as every
other pass takes at least one alias, their number bounds the passes. -/
def resolveAliases : Nat → Document → List (String × String) → Except SchemaError Document
  | _, doc, [] => .ok doc
  | 0, _, (_, target) :: _ => .error (.unresolvedReference target)
  | fuel + 1, doc, aliases@((_, target) :: _) =>
    let (doc, remaining) := aliasPass doc aliases
    if remaining.length = aliases.length then .error (.unresolvedReference target)
    else resolveAliases fuel doc remaining

/-! ## Bodies -/

/-- The type that a schema declares. -/
def typeOf (identity : String) : Option Wire.TypeTag → Except SchemaError (Option Primitive)
  | none => .ok none
  | some (.one tag) =>
    match Primitive.ofTag? tag with
    | some primitive => .ok (some primitive)
    | none => .error (.unknownType identity tag)
  | some (.many tags) =>
    .error (.unsupportedDocument
      ("schema `" ++ identity ++ "` declares a list of types [" ++ String.intercalate ", " tags
        ++ "]"))

/-- The names that a schema requires of its properties. -/
def requiredNames : Option Wire.Required → List String
  | some (.names names) => names
  | _ => []

/-- Whether a property is required in a legacy document: it says so itself, or its owner does. -/
def flagged (owner : List String) (name : String) (child : Wire.Schema) : Bool :=
  child.required == some (.flag true) || owner.contains name

/-- The edge to a child: to what it refers to, or to the child itself, which is added once it is
converted. -/
def link (doc : Document) (reference : Option String)
    (converted : Unit → Except SchemaError (Schema × Document)) :
    Except SchemaError (Edge × Document) :=
  match reference with
  | some reference =>
    match doc.resolve reference with
    | some id => .ok ({ id, reference := some reference }, doc)
    | none => .error (.unresolvedReference reference)
  | none => do
    let (schema, doc) ← converted ()
    let (doc, id) := doc.insert schema
    .ok ({ id }, doc)

mutual

/-- Convert a schema, adding everything inside it to the document. -/
def convert (identity : String) :
    Wire.Schema → Document → Except SchemaError (Schema × Document)
  | { type, format, title, properties, required, items, allOf, anyOf, oneOf, discriminator, enum,
      default, .. }, doc => do
    let type ← typeOf identity type
    let names := requiredNames required
    let (properties, doc) ← convertProperties identity names properties doc
    let (items, doc) ← convertItems (identity ++ ".items") items doc
    let (allOf, doc) ← convertMembers (identity ++ ".allOf.") 0 allOf doc
    let (anyOf, doc) ← convertMembers (identity ++ ".anyOf.") 0 anyOf doc
    let (oneOf, doc) ← convertMembers (identity ++ ".oneOf.") 0 oneOf doc
    .ok ({ dialect := doc.dialect, identity := some identity, title, type, format, properties,
           required := names.eraseDups, items, allOf, anyOf, oneOf, discriminator, enum, default },
      doc)

/-- The edges to the properties of an owner that requires `names`. -/
def convertProperties (identity : String) (names : List String) :
    List (String × Wire.Schema) → Document → Except SchemaError (List (String × Edge) × Document)
  | [], doc => .ok ([], doc)
  | (name, child) :: rest, doc => do
    let (edge, doc) ← link doc child.reference fun _ => convert (identity ++ "." ++ name) child doc
    let edge := { edge with required := doc.dialect.isLegacy && flagged names name child }
    let (edges, doc) ← convertProperties identity names rest doc
    .ok ((name, edge) :: edges, doc)

/-- The edge to the items of an array. -/
def convertItems (identity : String) :
    Option Wire.Schema → Document → Except SchemaError (Option Edge × Document)
  | none, doc => .ok (none, doc)
  | some child, doc => do
    let (edge, doc) ← link doc child.reference fun _ => convert identity child doc
    .ok (some edge, doc)

/-- The edges to members, the first of which stands at `place`. -/
def convertMembers (identity : String) (place : Nat) :
    List Wire.Schema → Document → Except SchemaError (List Edge × Document)
  | [], doc => .ok ([], doc)
  | child :: rest, doc => do
    let (edge, doc) ← link doc child.reference fun _ =>
      convert (identity ++ toString place) child doc
    let (edges, doc) ← convertMembers identity (place + 1) rest doc
    .ok (edge :: edges, doc)

end

/-- Fill the slots of the named schemas that are no aliases. -/
def fillNamed : List (String × Wire.Schema) → Document → Except SchemaError Document
  | [], doc => .ok doc
  | (name, schema) :: rest, doc =>
    match schema.reference, doc.lookup name with
    | none, some id => do
      let (body, doc) ← convert name schema doc
      fillNamed rest (doc.replace id body)
    | _, _ => fillNamed rest doc

/-! ## Documents -/

/-- Resolve the names and references of a document as written. -/
def ofWire (written : Wire.Document) : Except SchemaError Document := do
  let dialect ← dialectOf written
  let named := namedOf dialect written
  let aliases := aliasesOf named
  let doc ← resolveAliases aliases.length (reserveNamed { dialect } named) aliases
  fillNamed named doc

/-- The schema error for a fault of a document; `position` says where an offset is. -/
def parseError (position : Nat → Option Json.Position) (fault : Json.Located Wire.Fault) :
    SchemaError :=
  .parse fault.path fault.fault.cause (fault.fault.offset.bind position)

/-- Load a document from a text. What follows the document is ignored. -/
def ofText (text : String) : Except SchemaError Document := do
  let written ← (Wire.readDocument (Json.Tree.read text).1).mapError
    (parseError fun offset => some (.after text offset))
  ofWire written

/-- Load a document from a JSON value, which has no positions. -/
def ofJson (value : Json) : Except SchemaError Document := do
  let written ← (Wire.readDocument (.ofJson value)).mapError (parseError fun _ => none)
  ofWire written

end OpenApi.Document
