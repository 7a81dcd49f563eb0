-- SUMMARY: Without discriminators each model is the one that its schema alone denotes.
import OpenApi.Proofs.Compilation.Result
import OpenApi.Proofs.Model.Members
import OpenApi.Proofs.Schema.Loaded

/-!
# Translation

What a schema denotes is said here without contexts: `Denotes` knows the document and
which index each schema's model has, and leaves no choice. A compilation reaches
schemas on ways of its own and in an order of its own, but without discriminators no
way narrows anything. So each model of a compiled set is what its schema denotes, and
nothing else.
-/

namespace OpenApi

variable (doc : Document) (registry : Registry) (models : ModelTable)

/-! ## Denotations -/

/-- The field for a property where nothing is narrowed: the type of the child, or the child as an
anchor, with what the owner says of the property and the child of its values. -/
structure IsPropertyField (schema : Schema) (property : String × Edge) (field : Field) : Prop where
  type : HasElementType doc registry models property.2 field.type
  rest : field =
    { name := property.1, type := field.type
      required := schema.isRequired property.1 property.2
      default := (doc.schema property.2.id).default
      enum := (doc.schema property.2.id).enum }

/-- What the model of a schema looks like: a union of the members that have a type, or an object
with the fields of its properties, merged with those of the members of its `allOf`. -/
inductive Denotes (id : SchemaId) : Shape → Prop where
  | union {found : List (Edge × Ty)} :
      (doc.schema id).alternatives ≠ [] →
        HasAlternatives doc registry models (doc.schema id).alternatives found →
        Denotes id (.union (found.map (·.2)) none [])
  | object {fields : List Field} :
      (doc.schema id).alternatives = [] →
        HasFields doc (IsPropertyField doc registry models) id fields → Denotes id (.object fields)

/-- No schema has a discriminator. -/
def Document.Undiscriminated : Prop :=
  ∀ schema ∈ doc.schemas, schema.discriminator = none

/-! ## Denotations are unique -/

section Unique

variable {doc registry models}

theorem IsPropertyField.unique : PropertyLaw.Unique (IsPropertyField doc registry models) := by
  intro schema property field field' h h'
  rw [h.rest, h'.rest, h.type.unique h'.type]

theorem HasAlternatives.unique {members : List Edge} {found found' : List (Edge × Ty)}
    (h : HasAlternatives doc registry models members found)
    (h' : HasAlternatives doc registry models members found') : found = found' := by
  induction h generalizing found' with
  | nil =>
      cases h'
      rfl
  | typed htype _ ih =>
      cases h' with
      | typed htype' hrest' => rw [Option.some.inj (htype.unique htype'), ih hrest']
      | anchor htype' => cases htype.unique htype'
  | anchor htype _ ih =>
      cases h' with
      | typed htype' => cases htype.unique htype'
      | anchor _ hrest' => exact ih hrest'

/-- A schema denotes at most one shape. -/
theorem Denotes.unique {id : SchemaId} {shape shape' : Shape}
    (h : Denotes doc registry models id shape) (h' : Denotes doc registry models id shape') :
    shape = shape' := by
  cases h with
  | union hne hfound =>
      cases h' with
      | union _ hfound' => rw [hfound.unique hfound']
      | object hnil => exact absurd hnil hne
  | object hnil hfields =>
      cases h' with
      | union hne => exact absurd hnil hne
      | object _ hfields' => rw [hfields.unique IsPropertyField.unique hfields']

end Unique

/-! ## Without discriminators -/

section Plain

variable {doc registry models} {context : Context} {id : SchemaId}

theorem Document.Undiscriminated.schema (h : doc.Undiscriminated) (id : SchemaId) :
    (doc.schema id).discriminator = none := by
  rcases doc.schema_cases id with hmem | hsilent
  · exact h _ hmem
  · rw [hsilent]

/-- Without discriminators no context has any. -/
theorem Document.Reached.discriminators_eq_nil (h : doc.Reached context id)
    (hnone : doc.Undiscriminated) : context.discriminators = [] := by
  induction h with
  | start => rfl
  | @alternative _ union _ _ _ ih => simp [Context.follow, ih, hnone.schema union]
  | @variant _ anchor _ _ _ _ _ _ ih => simp [Context.follow, ih, hnone.schema anchor]

theorem IsField.isPropertyField (hcontext : context.discriminators = []) {schema : Schema}
    {property : String × Edge} {field : Field}
    (h : IsField doc registry models context schema property field) :
    IsPropertyField doc registry models schema property field where
  type := by
    have hplain : context.narrow property.1 = .ok none := by simp [Context.narrow, hcontext]
    have htype := h.type
    generalize field.type = type at htype
    cases htype with
    | narrowed hnarrow => cases hplain.symm.trans hnarrow
    | plain _ htype => exact htype
  rest := h.rest

/-- In a context without discriminators a model is what its schema denotes. -/
theorem HasShape.denotes {name : String} {shape : Shape} (hnone : doc.Undiscriminated)
    (hcontext : context.discriminators = [])
    (h : HasShape doc registry models context name id shape) :
    Denotes doc registry models id shape := by
  cases hcomb : (doc.schema id).combination with
  | allOf | none =>
      have hnil : (doc.schema id).alternatives = [] := by simp [Schema.alternatives, hcomb]
      obtain ⟨fields, rfl⟩ := h.exists_object hnil
      exact .object hnil (h.hasFields.imp fun _ _ _ => IsField.isPropertyField hcontext)
  | anyOf | oneOf =>
      have hne : (doc.schema id).alternatives ≠ [] :=
        Schema.alternatives_ne_nil (by simp [hcomb]) (by simp [hcomb])
      simp only [HasShape, hcomb] at h
      obtain ⟨found, hfound, rfl⟩ := h
      simpa [hnone.schema id, Schema.mapping, tagsOf] using Denotes.union hne hfound

end Plain

namespace Document

variable {doc}

/-- Each model of a loaded document without discriminators has the name of its schema and is what
the schema denotes, however it was reached. -/
theorem compile_denotes {set : ModelSet} (hloaded : doc.Loaded) (hnone : doc.Undiscriminated)
    (h : doc.compile = .ok set) {m : ModelId} (hlt : m < set.models.size) :
    (doc.schema (set.model m).schema).title.or (doc.schema (set.model m).schema).identity =
        some (set.model m).name ∧
      set.forSchema (set.model m).schema = some m ∧
      ∀ shape, Denotes doc .standard set.forSchema (set.model m).schema shape ↔
        shape = (set.model m).shape := by
  have hwf := compile_wellFormed h
  have hschema := ModelSet.forSchema_schema hwf hlt
  refine ⟨?_, hschema, fun shape => ?_⟩
  · -- A schema with a model is no anchor, so loading has given it an identity.
    have hidentity := hloaded.identified _ (hwf.isModel hschema).anchor
    obtain ⟨identity, hidentity⟩ := Option.isSome_iff_exists.mp hidentity
    have hname : ∃ name, (doc.schema (set.model m).schema).title.or
        (doc.schema (set.model m).schema).identity = some name := by
      rw [hidentity]
      cases (doc.schema (set.model m).schema).title <;> simp
    obtain ⟨name, hname⟩ := hname
    rw [hname, ModelSet.name_model hwf hlt hname]
  · obtain ⟨context, hreached, hshape⟩ := ModelSet.means_model hwf hlt
    have hdenotes := hshape.denotes hnone (hreached.discriminators_eq_nil hnone)
    constructor
    · exact fun hother => hother.unique hdenotes
    · rintro rfl
      exact hdenotes

/-- A document as a value: an object with a member, and a union of it and of lists of it. -/
def kennelValue : Json :=
  .obj [
    ("swagger", .str "2.0"),
    ("definitions", .obj [
      ("Named", .obj [("properties", .obj [("name", .obj [("type", .str "string")])])]),
      ("Pet", .obj [
        ("title", .str "Animal"), ("allOf", .arr [.obj [("$ref", .str "Named")]])]),
      ("Pets", .obj [
        ("anyOf", .arr [
          .obj [("$ref", .str "Pet")],
          .obj [("type", .str "array"), ("items", .obj [("$ref", .str "Pet")])]])])])]

/-- The document of `kennelValue`. -/
def kennel : Document where
  dialect := .swagger2
  schemas := #[
    { dialect := .swagger2, identity := some "Named", properties := [("name", { id := 3 })] },
    { dialect := .swagger2, identity := some "Pet", title := some "Animal"
      allOf := [{ id := 0, reference := some "Named" }] },
    { dialect := .swagger2, identity := some "Pets"
      anyOf := [{ id := 1, reference := some "Pet" }, { id := 4 }] },
    { dialect := .swagger2, identity := some "Named.name", type := some .string },
    { dialect := .swagger2, identity := some "Pets.anyOf.1", type := some .array
      items := some { id := 1, reference := some "Pet" } }]
  named := [("Named", 0), ("Pet", 1), ("Pets", 2)]

/-- The models of `kennel`. -/
def kennelModels : ModelSet where
  models := #[
    { name := "Named", schema := 0, shape := .object [{ name := "name", type := .scalar .text }] },
    { name := "Animal", schema := 1, shape := .object [{ name := "name", type := .scalar .text }] },
    { name := "Pets", schema := 2, shape := .union [.model 1, .array (.model 1)] none [] }]
  bySchema := [(2, 2), (1, 1), (0, 0)]
  roots := [("Named", some (.model 0)), ("Pet", some (.model 1)), ("Pets", some (.model 2))]

set_option maxRecDepth 2000 in
theorem kennel_load : ofJson kennelValue = .ok kennel := by rfl

set_option maxRecDepth 2000 in
theorem kennel_compile : kennel.compile = .ok kennelModels := rfl

/-- The models of `kennel` have the names of their schemas and are what those denote. -/
theorem kennel_denotes :
    ofJson kennelValue = .ok kennel ∧ kennel.Undiscriminated ∧
      kennel.compile = .ok kennelModels ∧
      ∀ m < kennelModels.models.size,
        (kennel.schema (kennelModels.model m).schema).title.or
            (kennel.schema (kennelModels.model m).schema).identity =
          some (kennelModels.model m).name ∧
        ∀ shape,
          Denotes kennel .standard kennelModels.forSchema (kennelModels.model m).schema shape ↔
            shape = (kennelModels.model m).shape := by
  have hnone : kennel.Undiscriminated := by simp [Undiscriminated, kennel]
  refine ⟨kennel_load, hnone, kennel_compile, fun m hlt => ?_⟩
  obtain ⟨hname, -, hshape⟩ := compile_denotes (.inl ⟨_, kennel_load⟩) hnone kennel_compile hlt
  exact ⟨hname, hshape⟩

end Document
end OpenApi
