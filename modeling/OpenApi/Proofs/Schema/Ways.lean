-- SUMMARY: Which schemas are asked for, and in which contexts, whatever the order of their names.
import OpenApi.Proofs.Schema.Walk

/-!
# Ways to schemas

Compiling a schema in a context asks for others in contexts of their own. A compilation
starts at the named schemas with a discriminator, and later at all named schemas; a model
that has been built is not built again. In which order the named schemas come is left open
here: `Builds` are all contexts in which a model may be built. A document is `Steady` if it
does not matter which of them it is.
-/

namespace OpenApi

open Relation (ReflTransGen TransGen)

/-- Both contexts narrow a name to the same tag, or neither narrows it. -/
def Context.Alike (context context' : Context) (name : String) : Prop :=
  ∀ answer, context.narrow name = .ok answer ↔ context'.narrow name = .ok answer

namespace Document

variable (doc : Document)

/-! ## What compiling a schema asks for -/

/-- A model that is no union. -/
structure IsObject (id : SchemaId) : Prop where
  model : doc.IsModel id
  alternatives : (doc.schema id).alternatives = []

/-- A schema has a property, or one of the members that are merged into it has. -/
def Holds (owner : SchemaId) (name : String) (edge : Edge) : Prop :=
  ∃ part, ReflTransGen doc.Includes owner part ∧ (name, edge) ∈ (doc.schema part).properties

/-- What is asked for to compile a schema in a context. -/
inductive Needs (context : Context) (owner : SchemaId) : Context → SchemaId → Prop where
  | item {edge : Edge} :
      (doc.schema owner).type = some .array → (doc.schema owner).items = some edge →
        Needs context owner {} edge.id
  | field {name : String} {edge : Edge} :
      doc.IsObject owner → doc.Holds owner name edge → context.narrow name = .ok none →
        Needs context owner {} edge.id
  | alternative {edge : Edge} :
      doc.IsModel owner → edge ∈ (doc.schema owner).alternatives →
        Needs context owner
          (context.follow (doc.schema owner).discriminator (memberStep doc edge)) edge.id
  | variant {tag target : String} {variant : SchemaId} :
      (doc.schema owner).isAnchor = true → (tag, target) ∈ (doc.schema owner).mapping →
        doc.resolve target = some variant →
        Needs context owner (context.follow (doc.schema owner).discriminator target) variant

/-- What is asked for, starting at some schemas, where the models of others are there already. -/
inductive Asks (start known : SchemaId → Prop) : Context → SchemaId → Prop where
  | start {id : SchemaId} : start id → Asks start known {} id
  | step {context context' : Context} {owner child : SchemaId} :
      Asks start known context owner → (doc.IsModel owner → ¬ known owner) →
        doc.Needs context owner context' child → Asks start known context' child

/-! ## The two passes over named schemas -/

/-- What is asked for while the named schemas with a discriminator are compiled. -/
def AsksFirst : Context → SchemaId → Prop :=
  doc.Asks
    (fun id => ∃ name, (name, id) ∈ doc.named ∧ (doc.schema id).discriminator.isSome = true)
    fun _ => False

/-- A schema is asked for while the named schemas with a discriminator are compiled. -/
def IsFirst (id : SchemaId) : Prop := ∃ context, doc.AsksFirst context id

/-- What is asked for while all named schemas are compiled. -/
def AsksLater : Context → SchemaId → Prop :=
  doc.Asks (fun id => ∃ name, (name, id) ∈ doc.named) doc.IsFirst

/-- A schema is asked for. -/
def Asked (id : SchemaId) : Prop := ∃ context, doc.AsksFirst context id ∨ doc.AsksLater context id

/-- The contexts in which the model of a schema may be built. -/
def Builds (context : Context) (id : SchemaId) : Prop :=
  doc.AsksFirst context id ∨ (doc.AsksLater context id ∧ ¬ doc.IsFirst id)

/-- It does not matter in which of its contexts a model is built: they narrow its properties
alike. -/
def Steady : Prop :=
  ∀ context context' id name edge, doc.IsObject id → doc.Builds context id →
    doc.Builds context' id → doc.Holds id name edge → context.Alike context' name

/-! ## Loops -/

/-- A step to a schema whose type is asked for the same value. -/
inductive Passes : SchemaId → SchemaId → Prop where
  | alternative {union : SchemaId} {edge : Edge} :
      doc.IsModel union → edge ∈ (doc.schema union).alternatives → Passes union edge.id
  | variant {anchor variant : SchemaId} {tag target : String} :
      (doc.schema anchor).isAnchor = true → (tag, target) ∈ (doc.schema anchor).mapping →
        doc.resolve target = some variant → Passes anchor variant

/-- No union comes back to itself through members and variants alone. -/
def NoUnionLoop : Prop := ∀ id, ¬ TransGen doc.Passes id id

/-- No schema whose `allOf` is merged into another leads back to itself below. -/
def MergesApart : Prop :=
  ∀ owner member, doc.Includes owner member → (doc.schema member).allOf ≠ [] →
    ¬ doc.Descends member member

/-! ## Passes -/

/-- A pass over named schemas: what it asks for, and the schemas that were asked for before it and
whose models are there already. -/
structure Pass where
  asks : Context → SchemaId → Prop
  known : SchemaId → Prop
  needs : ∀ {context context' : Context} {owner child : SchemaId}, asks context owner →
    (doc.IsModel owner → ¬ known owner) → doc.Needs context owner context' child →
    asks context' child
  builds : ∀ {context : Context} {id : SchemaId}, asks context id → ¬ known id →
    doc.Builds context id
  asked : ∀ {context : Context} {id : SchemaId}, asks context id → doc.Asked id

/-- The pass over the named schemas with a discriminator. -/
def firstPass : doc.Pass where
  asks := doc.AsksFirst
  known := fun _ => False
  needs := .step
  builds := fun hasks _ => .inl hasks
  asked := fun hasks => ⟨_, .inl hasks⟩

/-- The pass over all named schemas. -/
def laterPass : doc.Pass where
  asks := doc.AsksLater
  known := doc.IsFirst
  needs := .step
  builds := fun hasks hnew => .inr ⟨hasks, hnew⟩
  asked := fun hasks => ⟨_, .inr hasks⟩

/-! ## Laws -/

variable {doc} {context context' : Context} {id child : SchemaId} {name : String} {edge : Edge}

theorem IsModel.lt_size (h : doc.IsModel id) : id < doc.schemas.size := by
  apply doc.lt_size_of_ne
  intro hschema
  have hanchor := h.anchor
  simp [hschema, Schema.isAnchor, Schema.combination] at hanchor

theorem Builds.asked (h : doc.Builds context id) : doc.Asked id := by
  rcases h with hfirst | ⟨hlater, -⟩
  · exact ⟨context, .inl hfirst⟩
  · exact ⟨context, .inr hlater⟩

/-- What is needed in one context is needed in any other that narrows properties alike. -/
theorem Needs.of_alike (h : doc.Needs context id context' child) {other : Context}
    (halike : ∀ name edge, doc.IsObject id → doc.Holds id name edge → context.Alike other name) :
    ∃ context'', doc.Needs other id context'' child := by
  cases h with
  | item htype hitems => exact ⟨_, .item htype hitems⟩
  | field hobject hholds hnarrow =>
      exact ⟨_, .field hobject hholds ((halike _ _ hobject hholds none).mp hnarrow)⟩
  | alternative hmodel hmem => exact ⟨_, .alternative hmodel hmem⟩
  | variant hanchor hentry hresolve => exact ⟨_, .variant hanchor hentry hresolve⟩

end Document
end OpenApi
