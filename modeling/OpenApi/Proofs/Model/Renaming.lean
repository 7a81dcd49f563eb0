-- SUMMARY: Renaming the schemas of a document renames the types and the models that they make.
import OpenApi.Proofs.Model.Depiction

/-!
# Renaming

Schemas and models are known by their indices, and nothing that a schema means depends on
which index it has. `Renames` says that one document is another with its schemas renamed.
Then types, fields and models are the same but for the names.
-/

namespace OpenApi

open Relation (ReflTransGen TransGen)

/-! ## Renaming -/

section Rename

variable (f : SchemaId → SchemaId) (r : ModelId → ModelId)

def Edge.rename (edge : Edge) : Edge := { edge with id := f edge.id }

def Schema.rename (schema : Schema) : Schema :=
  { schema with
    properties := schema.properties.map fun entry => (entry.1, entry.2.rename f)
    items := schema.items.map (·.rename f)
    allOf := schema.allOf.map (·.rename f)
    anyOf := schema.anyOf.map (·.rename f)
    oneOf := schema.oneOf.map (·.rename f) }

def Ty.rename : Ty → Ty
  | .scalar type => .scalar type
  | .array item => .array item.rename
  | .model m => .model (r m)
  | .literal tag => .literal tag
  | .anchor schema => .anchor (f schema)

def Field.rename (field : Field) : Field := { field with type := field.type.rename f r }

def Shape.rename : Shape → Shape
  | .object fields => .object (fields.map (·.rename f r))
  | .union alternatives discriminator tags =>
      .union (alternatives.map (·.rename f r)) discriminator tags

def Model.rename (model : Model) : Model :=
  { model with schema := f model.schema, shape := model.shape.rename f r }

def Anchor.rename (anchor : Anchor) : Anchor := { anchor with variants := anchor.variants.map r }

end Rename

section Laws

variable {f : SchemaId → SchemaId} {r : ModelId → ModelId}

@[simp] theorem Edge.rename_self (edge : Edge) : edge.rename (fun id => id) = edge := rfl

theorem Edge.rename_rename (g : SchemaId → SchemaId) (edge : Edge) :
    (edge.rename f).rename g = edge.rename (g ∘ f) := rfl

@[simp] theorem Schema.rename_self (schema : Schema) : schema.rename (fun id => id) = schema := by
  simp [rename]

theorem Schema.rename_rename (g : SchemaId → SchemaId) (schema : Schema) :
    (schema.rename f).rename g = schema.rename (g ∘ f) := by
  simp [rename, Function.comp_def, Edge.rename]

@[simp] theorem Schema.mapping_rename (schema : Schema) :
    (schema.rename f).mapping = schema.mapping := rfl

@[simp] theorem Schema.label_rename (schema : Schema) : (schema.rename f).label = schema.label :=
  rfl

theorem Schema.combination_rename (schema : Schema) :
    (schema.rename f).combination =
      match schema.combination with
      | .allOf members => .allOf (members.map (·.rename f))
      | .anyOf members => .anyOf (members.map (·.rename f))
      | .oneOf members => .oneOf (members.map (·.rename f))
      | .none => .none := by
  simp only [combination, rename, List.isEmpty_map]
  split
  · rfl
  · split
    · rfl
    · split <;> rfl

theorem Schema.combination_rename_none {schema : Schema} :
    (schema.rename f).combination = .none ↔ schema.combination = .none := by
  rw [combination_rename]
  split <;> simp [*]

theorem Schema.alternatives_rename (schema : Schema) :
    (schema.rename f).alternatives = schema.alternatives.map (·.rename f) := by
  simp only [alternatives, combination_rename]
  cases schema.combination <;> rfl

theorem Schema.isAnchor_rename (schema : Schema) :
    (schema.rename f).isAnchor = schema.isAnchor := by
  have hcombination : ((schema.rename f).combination == .none) = (schema.combination == .none) := by
    rw [Bool.eq_iff_iff, beq_iff_eq, beq_iff_eq, combination_rename_none]
  simp only [isAnchor, hcombination]
  simp [rename]

theorem Ty.rename_injective (hf : Function.Injective f) (hr : Function.Injective r) :
    Function.Injective (Ty.rename f r) := by
  intro type other heq
  induction type generalizing other with
  | array item ih =>
      cases other <;> simp only [rename, Ty.array.injEq, reduceCtorEq] at heq
      rw [ih heq]
  | scalar | literal =>
      cases other <;> simp only [rename, reduceCtorEq] at heq
      exact heq
  | model m =>
      cases other <;> simp only [rename, Ty.model.injEq, reduceCtorEq] at heq
      rw [hr heq]
  | anchor schema =>
      cases other <;> simp only [rename, Ty.anchor.injEq, reduceCtorEq] at heq
      rw [hf heq]

theorem requireOwn_rename (schema : Schema) (fields : List Field) :
    requireOwn (schema.rename f) (fields.map (·.rename f r)) =
      (requireOwn schema fields).map (·.rename f r) := by
  simp only [requireOwn_eq_map, List.map_map]
  rfl

theorem eraseDups_map (hr : Function.Injective r) (models : List ModelId) :
    (models.map r).eraseDups = models.eraseDups.map r := by
  match models with
  | [] => rfl
  | m :: rest =>
      have hfilter : (rest.map r).filter (fun other => !other == r m) =
          (rest.filter fun other => !other == m).map r := by
        rw [List.filter_map]
        congr 2
        funext other
        simp [hr.eq_iff]
      have hlt : (rest.filter fun other => !other == m).length < rest.length + 1 :=
        Nat.lt_succ_of_le (List.length_filter_le _ _)
      rw [List.map_cons, List.eraseDups_cons, List.eraseDups_cons, hfilter, eraseDups_map hr,
        List.map_cons]
termination_by models.length

theorem modelsAmong_rename (hr : Function.Injective r) (types : List (Option Ty)) :
    modelsAmong (types.map (·.map (·.rename f r))) = (modelsAmong types).map r := by
  have hmodel (type : Option Ty) : modelOf (type.map (·.rename f r)) = (modelOf type).map r := by
    rcases type with _ | type
    · rfl
    · cases type <;> rfl
  rw [modelsAmong, modelsAmong, ← eraseDups_map hr, List.filterMap_map, List.map_filterMap]
  congr 2
  exact funext hmodel

/-- A field made of renamed parts is renamed. -/
theorem Merges.rename {parts fields : List Field} (h : Merges parts fields) :
    Merges (parts.map (·.rename f r)) (fields.map (·.rename f r)) where
  names := by
    have hnames (list : List Field) :
        (list.map (·.rename f r)).map (·.name) = list.map (·.name) := by
      simp [Field.rename]
    rw [hnames, hnames, h.names]
  joins := by
    intro field hmem
    obtain ⟨field, hfield, rfl⟩ := List.mem_map.mp hmem
    have hjoins := h.joins field hfield
    refine ⟨?_, ?_, ?_, ?_⟩
    · intro other hother hname
      obtain ⟨part, hpart, rfl⟩ := List.mem_map.mp hother
      exact congrArg (Ty.rename f r) (hjoins.type part hpart hname)
    · simp only [List.any_map]
      exact hjoins.required
    · simp only [List.findSome?_map]
      exact hjoins.default
    · simp only [List.findSome?_map]
      exact hjoins.enum

end Laws

/-! ## Documents -/

/-- A document is another with its schemas renamed. -/
structure Document.Renames (f : SchemaId → SchemaId) (doc doc' : Document) : Prop where
  schema : ∀ id, doc'.schema (f id) = (doc.schema id).rename f
  resolve : ∀ target, doc'.resolve target = (doc.resolve target).map f
  injective : Function.Injective f

/-- A renamed schema has a renamed model. -/
def ModelTable.Renames (f : SchemaId → SchemaId) (r : ModelId → ModelId)
    (models models' : ModelTable) : Prop :=
  ∀ id m, models id = some m → models' (f id) = some (r m)

section Transport

variable {f : SchemaId → SchemaId} {r : ModelId → ModelId} {doc doc' : Document}
variable {registry : Registry} {models models' : ModelTable} {context : Context}

namespace Document.Renames

theorem refl (doc : Document) : doc.Renames (fun id => id) doc :=
  ⟨fun _ => (Schema.rename_self _).symm, fun _ => by simp, fun _ _ h => h⟩

variable (h : doc.Renames f doc')
include h

theorem type (id : SchemaId) : (doc'.schema (f id)).type = (doc.schema id).type := by
  rw [h.schema]
  rfl

theorem isAnchor (id : SchemaId) : (doc'.schema (f id)).isAnchor = (doc.schema id).isAnchor := by
  rw [h.schema, Schema.isAnchor_rename]

theorem alternatives (id : SchemaId) :
    (doc'.schema (f id)).alternatives = (doc.schema id).alternatives.map (·.rename f) := by
  rw [h.schema, Schema.alternatives_rename]

theorem isModel_iff (id : SchemaId) : doc'.IsModel (f id) ↔ doc.IsModel id := by
  constructor <;> rintro ⟨htype, hanchor⟩
  · exact ⟨h.type id ▸ htype, h.isAnchor id ▸ hanchor⟩
  · exact ⟨(h.type id).symm ▸ htype, (h.isAnchor id).symm ▸ hanchor⟩

theorem memberStep (edge : Edge) : memberStep doc' (edge.rename f) = memberStep doc edge := by
  simp only [OpenApi.memberStep, Edge.rename, h.schema, Schema.label_rename]

theorem memberMatches (edge : Edge) (target : String) :
    memberMatches doc' (edge.rename f) target = memberMatches doc edge target := by
  have hsame : (doc'.resolve target == some (f edge.id)) =
      (doc.resolve target == some edge.id) := by
    rw [Bool.eq_iff_iff, beq_iff_eq, beq_iff_eq, h.resolve, ← Option.map_some]
    exact (Option.map_injective h.injective).eq_iff
  simp only [OpenApi.memberMatches, Edge.rename, hsame]

theorem tagsOf (mapping : Keyed String) (members : List Edge) :
    tagsOf doc' mapping (members.map (·.rename f)) = tagsOf doc mapping members := by
  simp only [OpenApi.tagsOf, List.findIdx?_map, Function.comp_def, h.memberMatches]

end Document.Renames

section Names

variable {id : SchemaId} (h : doc.Renames f doc') (hmodels : models.Renames f r models')
include h hmodels

theorem HasType.rename {type : Option Ty} (htype : HasType doc registry models id type) :
    HasType doc' registry models' (f id) (type.map (·.rename f r)) := by
  induction htype with
  | @scalar id primitive type hprimitive hscalar hresolve =>
      have hformat : (doc'.schema (f id)).format = (doc.schema id).format := by
        rw [h.schema]
        rfl
      exact .scalar ((h.type id).trans hprimitive) hscalar (hformat ▸ hresolve)
  | @array id items type harray hitems _ ih =>
      have hitems' : (doc'.schema (f id)).items = some (items.rename f) := by
        simp [h.schema, Schema.rename, hitems]
      have heq : (type.getD (.anchor items.id)).rename f r =
          (type.map (·.rename f r)).getD (.anchor (f items.id)) := by
        cases type <;> rfl
      simp only [Option.map_some, Ty.rename, heq]
      exact .array ((h.type id).trans harray) hitems' ih
  | @model id m hmodel hm => exact .model ((h.isModel_iff id).mpr hmodel) (hmodels id m hm)
  | @anchor id hanchor => exact .anchor ((h.isAnchor id).trans hanchor)

theorem HasFieldType.rename {name : String} {edge : Edge} {type : Ty}
    (htype : HasFieldType doc registry models context name edge type) :
    HasFieldType doc' registry models' context name (edge.rename f) (type.rename f r) := by
  cases htype with
  | narrowed hnarrow => exact .narrowed hnarrow
  | plain hnarrow helement =>
      obtain ⟨known, hknown, rfl⟩ := helement
      refine .plain hnarrow ⟨_, hknown.rename h hmodels, ?_⟩
      cases known <;> rfl

theorem IsField.rename {schema : Schema} {property : String × Edge} {field : Field}
    (hfield : IsField doc registry models context schema property field) :
    IsField doc' registry models' context (schema.rename f) (property.1, property.2.rename f)
      (field.rename f r) where
  type := hfield.type.rename h hmodels
  rest := by
    have hrequired : (schema.rename f).isRequired property.1 (property.2.rename f) =
        schema.isRequired property.1 property.2 := rfl
    have hdefault : (doc'.schema (property.2.rename f).id).default =
        (doc.schema property.2.id).default := by
      simp only [Edge.rename, h.schema]
      rfl
    have henum : (doc'.schema (property.2.rename f).id).enum =
        (doc.schema property.2.id).enum := by
      simp only [Edge.rename, h.schema]
      rfl
    rw [hrequired, hdefault, henum]
    exact (congrArg (Field.rename f r) hfield.rest).trans rfl

theorem forall₂_isField_rename {schema : Schema} {properties : Keyed Edge} {fields : List Field}
    (hfields : List.Forall₂ (IsField doc registry models context schema) properties fields) :
    List.Forall₂ (IsField doc' registry models' context (schema.rename f))
      (properties.map fun entry => (entry.1, entry.2.rename f)) (fields.map (·.rename f r)) := by
  induction hfields with
  | nil => exact .nil
  | cons hfield _ ih => exact .cons (hfield.rename h hmodels) ih

theorem HasAlternatives.rename {members : List Edge} {found : List (Edge × Ty)}
    (hfound : HasAlternatives doc registry models members found) :
    HasAlternatives doc' registry models' (members.map (·.rename f))
      (found.map fun entry => (entry.1.rename f, entry.2.rename f r)) := by
  induction hfound with
  | nil => exact .nil
  | typed htype _ ih => exact .typed (htype.rename h hmodels) ih
  | anchor htype _ ih => exact .anchor (htype.rename h hmodels) ih

end Names

mutual

theorem HasFields.rename (h : doc.Renames f doc') (hmodels : models.Renames f r models')
    {id : SchemaId} {fields : List Field} :
    HasFields doc (IsField doc registry models context) id fields →
      HasFields doc' (IsField doc' registry models' context) (f id) (fields.map (·.rename f r))
  | .plain hnone hfields => by
      refine .plain (by rwa [h.schema, Schema.combination_rename_none]) ?_
      rw [h.schema]
      exact forall₂_isField_rename h hmodels hfields
  | .merged hne hinherited hown hmerges => by
      rw [← requireOwn_rename, ← h.schema]
      have hmerges' := hmerges.rename (f := f) (r := r)
      rw [List.map_append] at hmerges'
      have hmembers : (doc'.schema (f id)).allOf = (doc.schema id).allOf.map (·.rename f) := by
        rw [h.schema]
        rfl
      refine .merged ?_ (hmembers ▸ hinherited.rename h hmodels) ?_ hmerges'
      · simpa [hmembers] using hne
      · rw [h.schema]
        exact forall₂_isField_rename h hmodels hown

theorem Contribute.rename (h : doc.Renames f doc') (hmodels : models.Renames f r models')
    {members : List Edge} {fields : List Field} :
    Contribute doc (IsField doc registry models context) members fields →
      Contribute doc' (IsField doc' registry models' context) (members.map (·.rename f))
        (fields.map (·.rename f r))
  | .nil => .nil
  | .cons hfirst hrest => by
      rw [List.map_cons, List.map_append]
      exact .cons (hfirst.rename h hmodels) (hrest.rename h hmodels)

end

theorem Depicts.rename {id : SchemaId} (h : doc.Renames f doc')
    (hmodels : models.Renames f r models') {shape : Shape}
    (hshape : Depicts doc registry models context id shape) :
    Depicts doc' registry models' context (f id) (shape.rename f r) := by
  cases hshape with
  | @union found hne hfound =>
      have hfound' := hfound.rename h hmodels
      rw [← h.alternatives] at hfound'
      have hunion : Depicts doc' registry models' context (f id) _ :=
        .union (by simpa [h.alternatives] using hne) hfound'
      have hmapping : (doc'.schema (f id)).mapping = (doc.schema id).mapping := by
        rw [h.schema, Schema.mapping_rename]
      have hdiscriminator : (doc'.schema (f id)).discriminator = (doc.schema id).discriminator := by
        rw [h.schema]
        rfl
      have hmembers : (found.map fun entry => (entry.1.rename f, entry.2.rename f r)).map (·.1) =
          (found.map (·.1)).map (·.rename f) := by simp
      rw [hmapping, hdiscriminator, hmembers, h.tagsOf] at hunion
      simpa [Shape.rename, Function.comp_def] using hunion
  | object hnil hfields =>
      exact .object (by simp [h.alternatives, hnil]) (hfields.rename h hmodels)

theorem HasVariants.rename {id : SchemaId} (h : doc.Renames f doc')
    (hmodels : models.Renames f r models') (hr : Function.Injective r) {variants : List ModelId}
    (hvariants : HasVariants doc registry models id variants) :
    HasVariants doc' registry models' (f id) (variants.map r) := by
  obtain ⟨types, htypes, rfl⟩ := hvariants
  refine ⟨types.map (·.map (·.rename f r)), ?_, (modelsAmong_rename hr types).symm⟩
  rw [h.schema, Schema.mapping_rename, List.forall₂_map_right_iff]
  refine htypes.imp ?_
  rintro target type ⟨variant, hresolve, htype⟩
  exact ⟨f variant, by rw [h.resolve, hresolve]; rfl, htype.rename h hmodels⟩

end Transport
end OpenApi
