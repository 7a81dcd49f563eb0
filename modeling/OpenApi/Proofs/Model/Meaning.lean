-- SUMMARY: What the model of a schema is, said of the schema and a table of models alone.
import OpenApi.Proofs.Model.Alternatives
import OpenApi.Proofs.Schema.Walk
import Mathlib.Data.List.Forall2

/-!
# The meaning of schemas

Which type a schema has, which fields its properties make, which fields its `allOf`
members and it make together, and which alternatives a union has. All of it depends
on the context in which the schema was reached and on a table that gives the models
of schemas. More models in the table take nothing back (`HasShape.mono`), so what is
said of a model when it is built still holds when all models are.
-/

namespace OpenApi

/-- A table of the models of schemas. -/
abbrev ModelTable := SchemaId → Option ModelId

/-- The second table has what the first has. -/
def ModelTable.Le (models models' : ModelTable) : Prop :=
  ∀ id m, models id = some m → models' id = some m

variable (doc : Document) (registry : Registry) (models : ModelTable)

/-! ## Types -/

/-- The type of a schema; an anchor has none. -/
inductive HasType : SchemaId → Option Ty → Prop where
  | scalar {id : SchemaId} {primitive : Primitive} {type : ScalarType} :
      (doc.schema id).type = some primitive → primitive.isScalar = true →
        registry.resolve primitive (doc.schema id).format = .ok type →
        HasType id (some (.scalar type))
  | array {id : SchemaId} {items : Edge} {type : Option Ty} :
      (doc.schema id).type = some .array → (doc.schema id).items = some items →
        HasType items.id type → HasType id (some (.array (type.getD (.anchor items.id))))
  | model {id : SchemaId} {m : ModelId} :
      doc.IsModel id → models id = some m → HasType id (some (.model m))
  | anchor {id : SchemaId} : (doc.schema id).isAnchor = true → HasType id none

/-- The type of a field or an item. -/
def HasElementType (edge : Edge) (type : Ty) : Prop :=
  ∃ known, HasType doc registry models edge.id known ∧ type = known.getD (.anchor edge.id)

/-! ## Fields -/

/-- The type of the field for a property: the tag that it is narrowed to, else its own type. -/
inductive HasFieldType (context : Context) (name : String) (edge : Edge) : Ty → Prop where
  | narrowed {tag : String} :
      context.narrow name = .ok (some tag) → HasFieldType context name edge (.literal tag)
  | plain {type : Ty} :
      context.narrow name = .ok none → HasElementType doc registry models edge type →
        HasFieldType context name edge type

/-- The field for a property of a schema. -/
structure IsField (context : Context) (schema : Schema) (property : String × Edge)
    (field : Field) : Prop where
  type : HasFieldType doc registry models context property.1 property.2 field.type
  rest : field =
    { name := property.1, type := field.type
      required := schema.isRequired property.1 property.2
      default := (doc.schema property.2.id).default
      enum := (doc.schema property.2.id).enum }

/-- The fields for the properties of a schema. -/
def AreFields (context : Context) (schema : Schema) (fields : List Field) : Prop :=
  List.Forall₂ (IsField doc registry models context schema) schema.properties fields

/-- Merging the contributions of members into the fields at the start gives the fields at the end.
A member that has members itself contributes what they and it make together. -/
inductive Inherits (context : Context) (name : String) :
    List Edge → List Field → List Field → Prop where
  | nil {fields : List Field} : Inherits context name [] fields fields
  | object {edge : Edge} {rest : List Edge} {start part next last : List Field} :
      (doc.schema edge.id).combination = .none →
        AreFields doc registry models context (doc.schema edge.id) part →
        absorb name start part = .ok next → Inherits context name rest next last →
        Inherits context name (edge :: rest) start last
  | merged {edge : Edge} {rest : List Edge} {start inherited own part next last : List Field} :
      (doc.schema edge.id).allOf ≠ [] →
        Inherits context name (doc.schema edge.id).allOf [] inherited →
        AreFields doc registry models context (doc.schema edge.id) own →
        absorb name inherited own = .ok part →
        absorb name start (requireOwn (doc.schema edge.id) part) = .ok next →
        Inherits context name rest next last →
        Inherits context name (edge :: rest) start last

/-- The fields that the members of a schema and the schema itself make together. -/
def Merged (context : Context) (name : String) (id : SchemaId) (fields : List Field) : Prop :=
  ∃ inherited own part,
    Inherits doc registry models context name (doc.schema id).allOf [] inherited ∧
      AreFields doc registry models context (doc.schema id) own ∧
      absorb name inherited own = .ok part ∧ fields = requireOwn (doc.schema id) part

/-! ## Alternatives -/

/-- The members that have a type, with their types. -/
inductive HasAlternatives : List Edge → List (Edge × Ty) → Prop where
  | nil : HasAlternatives [] []
  | typed {edge : Edge} {type : Ty} {rest : List Edge} {found : List (Edge × Ty)} :
      HasType doc registry models edge.id (some type) → HasAlternatives rest found →
        HasAlternatives (edge :: rest) ((edge, type) :: found)
  | anchor {edge : Edge} {rest : List Edge} {found : List (Edge × Ty)} :
      HasType doc registry models edge.id none → HasAlternatives rest found →
        HasAlternatives (edge :: rest) found

/-- The union that a schema makes of its members. -/
def IsUnion (schema : Schema) (shape : Shape) : Prop :=
  ∃ found, HasAlternatives doc registry models schema.alternatives found ∧
    shape = .union (found.map (·.2)) schema.discriminator
      (tagsOf doc schema.mapping (found.map (·.1)))

/-- What the model of a schema looks like. -/
def HasShape (context : Context) (name : String) (id : SchemaId) (shape : Shape) : Prop :=
  match (doc.schema id).combination with
  | .allOf _ => ∃ fields, Merged doc registry models context name id fields ∧ shape = .object fields
  | .anyOf _ | .oneOf _ => IsUnion doc registry models (doc.schema id) shape
  | .none =>
    ∃ fields, AreFields doc registry models context (doc.schema id) fields ∧
      shape = .object fields

/-! ## More models -/

section Mono

variable {doc registry models} {models' : ModelTable} (hle : models.Le models')
include hle

theorem HasType.mono {id : SchemaId} {type : Option Ty} (h : HasType doc registry models id type) :
    HasType doc registry models' id type := by
  induction h with
  | scalar htype hscalar hresolve => exact .scalar htype hscalar hresolve
  | array htype hitems _ ih => exact .array htype hitems ih
  | model hmodel hm => exact .model hmodel (hle _ _ hm)
  | anchor hanchor => exact .anchor hanchor

theorem HasFieldType.mono {context : Context} {name : String} {edge : Edge} {type : Ty}
    (h : HasFieldType doc registry models context name edge type) :
    HasFieldType doc registry models' context name edge type := by
  cases h with
  | narrowed htag => exact .narrowed htag
  | plain hnone helement =>
      obtain ⟨known, hknown, rfl⟩ := helement
      exact .plain hnone ⟨known, hknown.mono hle, rfl⟩

theorem AreFields.mono {context : Context} {schema : Schema} {fields : List Field}
    (h : AreFields doc registry models context schema fields) :
    AreFields doc registry models' context schema fields :=
  h.imp fun _ _ hfield => ⟨hfield.type.mono hle, hfield.rest⟩

theorem Inherits.mono {context : Context} {name : String} {members : List Edge}
    {start last : List Field} (h : Inherits doc registry models context name members start last) :
    Inherits doc registry models' context name members start last := by
  induction h with
  | nil => exact .nil
  | object hnone hpart habsorb _ ih => exact .object hnone (hpart.mono hle) habsorb ih
  | merged hall _ hown hpart habsorb _ ihmembers ihrest =>
      exact .merged hall ihmembers (hown.mono hle) hpart habsorb ihrest

theorem Merged.mono {context : Context} {name : String} {id : SchemaId} {fields : List Field}
    (h : Merged doc registry models context name id fields) :
    Merged doc registry models' context name id fields := by
  obtain ⟨inherited, own, part, hinherited, hown, hpart, hfields⟩ := h
  exact ⟨inherited, own, part, hinherited.mono hle, hown.mono hle, hpart, hfields⟩

theorem HasAlternatives.mono {members : List Edge} {found : List (Edge × Ty)}
    (h : HasAlternatives doc registry models members found) :
    HasAlternatives doc registry models' members found := by
  induction h with
  | nil => exact .nil
  | typed htype _ ih => exact .typed (htype.mono hle) ih
  | anchor htype _ ih => exact .anchor (htype.mono hle) ih

theorem IsUnion.mono {schema : Schema} {shape : Shape}
    (h : IsUnion doc registry models schema shape) : IsUnion doc registry models' schema shape := by
  obtain ⟨found, hfound, hshape⟩ := h
  exact ⟨found, hfound.mono hle, hshape⟩

theorem HasShape.mono {context : Context} {name : String} {id : SchemaId} {shape : Shape}
    (h : HasShape doc registry models context name id shape) :
    HasShape doc registry models' context name id shape := by
  cases hcomb : (doc.schema id).combination with
  | allOf members =>
      simp only [HasShape, hcomb] at h ⊢
      obtain ⟨fields, hfields, hshape⟩ := h
      exact ⟨fields, hfields.mono hle, hshape⟩
  | anyOf members =>
      simp only [HasShape, hcomb] at h ⊢
      exact IsUnion.mono hle h
  | oneOf members =>
      simp only [HasShape, hcomb] at h ⊢
      exact IsUnion.mono hle h
  | none =>
      simp only [HasShape, hcomb] at h ⊢
      obtain ⟨fields, hfields, hshape⟩ := h
      exact ⟨fields, hfields.mono hle, hshape⟩

end Mono

/-! ## Laws of types -/

section Laws

variable {doc registry models}

theorem HasType.of_isModel {id : SchemaId} {type : Option Ty}
    (h : HasType doc registry models id type) (hmodel : doc.IsModel id) :
    ∃ m, models id = some m ∧ type = some (.model m) := by
  cases h with
  | scalar htype hscalar =>
      rcases hmodel.type with hnone | hobject
      · simp [htype] at hnone
      · cases htype.symm.trans hobject
        cases hscalar
  | array htype => exact absurd htype hmodel.not_array
  | model _ hm => exact ⟨_, hm, rfl⟩
  | anchor hanchor => simp [hmodel.anchor] at hanchor

theorem HasType.of_isAnchor {id : SchemaId} {type : Option Ty}
    (h : HasType doc registry models id type) (hanchor : (doc.schema id).isAnchor = true) :
    type = none := by
  cases h with
  | scalar htype | array htype => simp [Schema.isAnchor, htype] at hanchor
  | model hmodel => simp [hmodel.anchor] at hanchor
  | anchor => rfl

theorem HasType.of_array {id : SchemaId} {type : Option Ty}
    (h : HasType doc registry models id type) (harray : (doc.schema id).type = some .array) :
    ∃ items known, (doc.schema id).items = some items ∧
      HasType doc registry models items.id known ∧
      type = some (.array (known.getD (.anchor items.id))) := by
  cases h with
  | scalar htype hscalar =>
      cases htype.symm.trans harray
      cases hscalar
  | array _ hitems hknown => exact ⟨_, _, hitems, hknown, rfl⟩
  | model hmodel => exact absurd harray hmodel.not_array
  | anchor hanchor => simp [Schema.isAnchor, harray] at hanchor

theorem HasType.of_scalar {id : SchemaId} {type : Option Ty} {primitive : Primitive}
    (h : HasType doc registry models id type) (hprimitive : (doc.schema id).type = some primitive)
    (hscalar : primitive.isScalar = true) :
    ∃ scalar, registry.resolve primitive (doc.schema id).format = .ok scalar := by
  cases h with
  | scalar htype _ hresolve =>
      cases htype.symm.trans hprimitive
      exact ⟨_, hresolve⟩
  | array htype =>
      cases htype.symm.trans hprimitive
      cases hscalar
  | model hmodel =>
      rcases hmodel.type with hnone | hobject
      · cases hprimitive.symm.trans hnone
      · cases hprimitive.symm.trans hobject
        cases hscalar
  | anchor hanchor => simp [Schema.isAnchor, hprimitive] at hanchor

theorem HasType.models_of_model {id : SchemaId} {m : ModelId}
    (h : HasType doc registry models id (some (.model m))) : models id = some m := by
  cases h with
  | model _ hm => exact hm

/-- A schema never has an anchor or a tag as its type; only fields and items do. -/
theorem HasType.not_anchor {id : SchemaId} {type : Ty}
    (h : HasType doc registry models id (some type)) (schema : SchemaId) :
    type ≠ .anchor schema := by
  intro heq
  subst heq
  cases h

/-- A schema has at most one type. -/
theorem HasType.unique {id : SchemaId} {type type' : Option Ty}
    (h : HasType doc registry models id type) (h' : HasType doc registry models id type') :
    type = type' := by
  induction h generalizing type' with
  | scalar htype hscalar hresolve =>
      cases h' with
      | scalar htype' _ hresolve' =>
          cases htype.symm.trans htype'
          rw [Except.ok.inj (hresolve.symm.trans hresolve')]
      | array htype' =>
          cases htype.symm.trans htype'
          cases hscalar
      | model hmodel =>
          rcases hmodel.type with hnone | hobject
          · cases htype.symm.trans hnone
          · cases htype.symm.trans hobject
            cases hscalar
      | anchor hanchor => simp [Schema.isAnchor, htype] at hanchor
  | array htype hitems _ ih =>
      cases h' with
      | scalar htype' hscalar' =>
          cases htype.symm.trans htype'
          cases hscalar'
      | array _ hitems' hitem' =>
          cases hitems.symm.trans hitems'
          rw [ih hitem']
      | model hmodel => exact absurd htype hmodel.not_array
      | anchor hanchor => simp [Schema.isAnchor, htype] at hanchor
  | model hmodel hm =>
      obtain ⟨m, hm', rfl⟩ := h'.of_isModel hmodel
      rw [Option.some.inj (hm.symm.trans hm')]
  | anchor hanchor => exact (h'.of_isAnchor hanchor).symm

theorem HasElementType.unique {edge : Edge} {type type' : Ty}
    (h : HasElementType doc registry models edge type)
    (h' : HasElementType doc registry models edge type') : type = type' := by
  obtain ⟨known, hknown, rfl⟩ := h
  obtain ⟨known', hknown', rfl⟩ := h'
  rw [hknown.unique hknown']

/-! ## Laws of alternatives -/

theorem HasAlternatives.append {first second : List Edge} {found found' : List (Edge × Ty)}
    (h : HasAlternatives doc registry models first found)
    (h' : HasAlternatives doc registry models second found') :
    HasAlternatives doc registry models (first ++ second) (found ++ found') := by
  induction h with
  | nil => exact h'
  | typed htype _ ih => exact .typed htype ih
  | anchor htype _ ih => exact .anchor htype ih

theorem HasAlternatives.hasType {members : List Edge} {found : List (Edge × Ty)} {edge : Edge}
    {type : Ty} (h : HasAlternatives doc registry models members found)
    (hmem : (edge, type) ∈ found) :
    edge ∈ members ∧ HasType doc registry models edge.id (some type) := by
  induction h with
  | nil => simp at hmem
  | typed htype _ ih =>
      rcases List.mem_cons.mp hmem with heq | hmem
      · cases heq
        exact ⟨by simp, htype⟩
      · exact ⟨List.mem_cons_of_mem _ (ih hmem).1, (ih hmem).2⟩
  | anchor _ _ ih => exact ⟨List.mem_cons_of_mem _ (ih hmem).1, (ih hmem).2⟩

theorem HasAlternatives.mem_of_isModel {members : List Edge} {found : List (Edge × Ty)}
    {edge : Edge} (h : HasAlternatives doc registry models members found) (hmem : edge ∈ members)
    (hmodel : doc.IsModel edge.id) :
    ∃ m, models edge.id = some m ∧ (edge, .model m) ∈ found := by
  induction h with
  | nil => simp at hmem
  | typed htype _ ih =>
      rcases List.mem_cons.mp hmem with rfl | hmem
      · obtain ⟨m, hm, htype⟩ := htype.of_isModel hmodel
        cases htype
        exact ⟨m, hm, by simp⟩
      · obtain ⟨m, hm, hfound⟩ := ih hmem
        exact ⟨m, hm, List.mem_cons_of_mem _ hfound⟩
  | anchor htype _ ih =>
      rcases List.mem_cons.mp hmem with rfl | hmem
      · obtain ⟨m, -, htype⟩ := htype.of_isModel hmodel
        cases htype
      · exact ih hmem

/-- The alternatives of a model are those of the members of its schema that have a type. -/
theorem HasShape.hasAlternatives {context : Context} {name : String} {id : SchemaId}
    {shape : Shape} (h : HasShape doc registry models context name id shape) :
    ∃ found, HasAlternatives doc registry models (doc.schema id).alternatives found ∧
      shape.alternatives = found.map (·.2) := by
  -- An object has no alternatives, and neither has its schema members of a union.
  have hnone (hcomb : (doc.schema id).alternatives = [])
      (hshape : shape.alternatives = []) : ∃ found,
      HasAlternatives doc registry models (doc.schema id).alternatives found ∧
        shape.alternatives = found.map (·.2) := ⟨[], hcomb ▸ .nil, hshape⟩
  cases hcomb : (doc.schema id).combination <;> simp only [HasShape, hcomb] at h
  case allOf | none =>
    obtain ⟨fields, -, rfl⟩ := h
    exact hnone (by simp [Schema.alternatives, hcomb]) rfl
  case anyOf | oneOf =>
    obtain ⟨found, hfound, rfl⟩ := h
    exact ⟨found, hfound, rfl⟩

/-- An alternative that is a model is the model of a member. -/
theorem HasShape.member_of_alternative {context : Context} {name : String} {id : SchemaId}
    {shape : Shape} {m : ModelId} (h : HasShape doc registry models context name id shape)
    (hmem : .model m ∈ shape.alternatives) :
    ∃ edge ∈ (doc.schema id).alternatives, models edge.id = some m := by
  obtain ⟨found, hfound, hshape⟩ := h.hasAlternatives
  obtain ⟨⟨edge, type⟩, hentry, rfl⟩ := List.mem_map.mp (hshape ▸ hmem)
  exact ⟨edge, (hfound.hasType hentry).1, (hfound.hasType hentry).2.models_of_model⟩

/-- A member that has a model is an alternative. -/
theorem HasShape.alternative_of_member {context : Context} {name : String} {id : SchemaId}
    {shape : Shape} {edge : Edge} (h : HasShape doc registry models context name id shape)
    (hmem : edge ∈ (doc.schema id).alternatives) (hmodel : doc.IsModel edge.id) :
    ∃ m, models edge.id = some m ∧ .model m ∈ shape.alternatives := by
  obtain ⟨found, hfound, hshape⟩ := h.hasAlternatives
  obtain ⟨m, hm, hentry⟩ := hfound.mem_of_isModel hmem hmodel
  exact ⟨m, hm, hshape ▸ List.mem_map.mpr ⟨_, hentry, rfl⟩⟩

/-! ## Laws of merging -/

theorem Inherits.append {context : Context} {name : String} {first second : List Edge}
    {start middle last : List Field}
    (h : Inherits doc registry models context name first start middle)
    (h' : Inherits doc registry models context name second middle last) :
    Inherits doc registry models context name (first ++ second) start last := by
  induction h with
  | nil => exact h'
  | object hnone hpart habsorb _ ih => exact .object hnone hpart habsorb (ih h')
  | merged hall hmembers hown hpart habsorb _ _ ih =>
      exact .merged hall hmembers hown hpart habsorb (ih h')

end Laws
end OpenApi
