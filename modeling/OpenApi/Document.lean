-- SUMMARY: Documents: an arena of schemas, some of them named.
import OpenApi.Schema

/-!
# Documents

A document keeps its schemas in an arena in the order in which they were added,
and knows some of them by name. A slot may be reserved first and filled later, so
that references forward can be resolved.
-/

namespace OpenApi

/-- The schemas of one document. -/
structure Document where
  dialect : Dialect
  schemas : Array Schema := #[]
  named : Keyed SchemaId := []

namespace Document

/-- Add a schema. -/
def insert (doc : Document) (schema : Schema) : Document × SchemaId :=
  ({ doc with schemas := doc.schemas.push schema }, doc.schemas.size)

/-- Add an empty schema to be replaced later. -/
def reserve (doc : Document) : Document × SchemaId := doc.insert { dialect := doc.dialect }

/-- Put another schema into a slot. -/
def replace (doc : Document) (id : SchemaId) (schema : Schema) : Document :=
  { doc with schemas := doc.schemas.setIfInBounds id schema }

/-- Call a schema by a name. -/
def name (doc : Document) (name : String) (id : SchemaId) : Document :=
  { doc with named := doc.named.insert name id }

/-- The schema with a name. -/
def lookup (doc : Document) (name : String) : Option SchemaId := doc.named.get? name

/-- The schema in a slot; an empty one where there is no slot. -/
def schema (doc : Document) (id : SchemaId) : Schema :=
  doc.schemas.getD id { dialect := doc.dialect }

/-- The schema that a reference means. -/
def resolve (doc : Document) (reference : String) : Option SchemaId :=
  doc.lookup (Reference.name reference)

/-- An edge to a named schema, with the reference that a document of this dialect writes. -/
def edgeTo (doc : Document) (name : String) : Option Edge :=
  let place :=
    if doc.dialect.isLegacy then Reference.definitionsPlace else Reference.componentsPlace
  (doc.lookup name).map fun id => { id := id, reference := some (place ++ name) }

end Document
end OpenApi
