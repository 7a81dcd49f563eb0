-- SUMMARY: Two documents that differ in one discriminator without a mapping make the same models.
import OpenApi.Proofs.Compilation.Complete
import OpenApi.Proofs.Schema.Untagged

/-!
# Models without a discriminator

Types, fields and alternatives are read off schemas without their discriminators, and a mapping
that is not there gives no tags and no variants. So in one context the same model is made by two
documents that differ in such a discriminator, except that its own union does not name it.
Where besides the documents ask for the same in like contexts, soundness and complete sets are
carried over.
-/

namespace OpenApi

open Relation (ReflTransGen TransGen)

/-! ## Other discriminators -/

/-- A union with another discriminator. -/
def Shape.discriminate (discriminator : Option Discriminator) : Shape → Shape
  | .object fields => .object fields
  | .union alternatives _ tags => .union alternatives discriminator tags

/-- A model without the discriminator of its schema, if it is this schema. -/
def Model.withoutDiscriminator (id : SchemaId) (model : Model) : Model :=
  if model.schema = id then { model with shape := model.shape.discriminate none } else model

/-- A model set in which the union of a schema has no discriminator. -/
def ModelSet.withoutDiscriminator (set : ModelSet) (id : SchemaId) : ModelSet :=
  { set with models := set.models.map (·.withoutDiscriminator id) }

section Laws

variable (set : ModelSet) (id : SchemaId)

@[simp] theorem Model.withoutDiscriminator_schema (model : Model) :
    (model.withoutDiscriminator id).schema = model.schema := by
  unfold withoutDiscriminator
  split <;> rfl

@[simp] theorem Model.withoutDiscriminator_name (model : Model) :
    (model.withoutDiscriminator id).name = model.name := by
  unfold withoutDiscriminator
  split <;> rfl

@[simp] theorem ModelSet.model_withoutDiscriminator (m : ModelId) :
    (set.withoutDiscriminator id).model m = (set.model m).withoutDiscriminator id := by
  simp only [model, withoutDiscriminator, Array.getD_eq_getD_getElem?, Array.getElem?_map]
  cases set.models[m]? with
  | some model => rfl
  | none => simp [Model.withoutDiscriminator, Shape.discriminate]

@[simp] theorem ModelSet.size_withoutDiscriminator :
    (set.withoutDiscriminator id).models.size = set.models.size := Array.size_map

@[simp] theorem ModelSet.forSchema_withoutDiscriminator :
    (set.withoutDiscriminator id).forSchema = set.forSchema := rfl

end Laws

namespace Document.Retagged

variable {property : String} {changed : SchemaId} {doc doc' : Document}
variable {registry : Registry} {models : ModelTable} {context : Context} {id : SchemaId}

/-! ## Types and fields -/

section Types

variable (h : doc.Retagged property changed doc')
include h

theorem hasType {type : Option Ty} (htype : HasType doc registry models id type) :
    HasType doc' registry models id type := by
  induction htype with
  | @scalar id primitive type hprimitive hscalar hresolve =>
      refine .scalar ((h.type id).trans hprimitive) hscalar ?_
      rwa [h.same (·.format) (fun _ _ => rfl)]
  | @array id items type harray hitems _ ih =>
      exact .array ((h.type id).trans harray) ((h.items id).trans hitems) ih
  | model hmodel hm => exact .model (h.isModel hmodel) hm
  | @anchor id hanchor => exact .anchor ((h.isAnchor id).trans hanchor)

theorem hasFieldType {name : String} {edge : Edge} {type : Ty}
    (htype : HasFieldType doc registry models context name edge type) :
    HasFieldType doc' registry models context name edge type := by
  cases htype with
  | narrowed hnarrow => exact .narrowed hnarrow
  | plain hnarrow helement =>
      obtain ⟨known, hknown, rfl⟩ := helement
      exact .plain hnarrow ⟨known, h.hasType hknown, rfl⟩

theorem isField {property : String × Edge} {field : Field}
    (hfield : IsField doc registry models context (doc.schema id) property field) :
    IsField doc' registry models context (doc'.schema id) property field where
  type := h.hasFieldType hfield.type
  rest := by
    rw [h.same (·.isRequired property.1 property.2) (fun _ _ => rfl),
      h.same (·.default) (fun _ _ => rfl), h.same (·.enum) (fun _ _ => rfl)]
    exact hfield.rest

theorem areFields {fields : List Field}
    (hfields : List.Forall₂ (IsField doc registry models context (doc.schema id))
      (doc.schema id).properties fields) :
    List.Forall₂ (IsField doc' registry models context (doc'.schema id))
      (doc'.schema id).properties fields := by
  rw [h.properties]
  exact hfields.imp fun _ _ => h.isField

theorem hasAlternatives {members : List Edge} {found : List (Edge × Ty)}
    (hfound : HasAlternatives doc registry models members found) :
    HasAlternatives doc' registry models members found := by
  induction hfound with
  | nil => exact .nil
  | typed htype _ ih => exact .typed (h.hasType htype) ih
  | anchor htype _ ih => exact .anchor (h.hasType htype) ih

theorem hasVariants {variants : List ModelId}
    (hvariants : HasVariants doc registry models id variants) :
    HasVariants doc' registry models id variants := by
  obtain ⟨types, htypes, hvariants⟩ := hvariants
  refine ⟨types, ?_, hvariants⟩
  rw [h.mapping]
  refine htypes.imp ?_
  rintro target type ⟨variant, hresolve, htype⟩
  exact ⟨variant, (h.resolve target).trans hresolve, h.hasType htype⟩

theorem tagsOf (mapping : Keyed String) (members : List Edge) :
    tagsOf doc' mapping members = tagsOf doc mapping members := by
  have hmatches : memberMatches doc' = memberMatches doc := by
    funext member target
    simp only [memberMatches, h.resolve]
  simp only [OpenApi.tagsOf, hmatches]

end Types

mutual

theorem hasFields (h : doc.Retagged property changed doc') {id : SchemaId} {fields : List Field} :
    HasFields doc (IsField doc registry models context) id fields →
      HasFields doc' (IsField doc' registry models context) id fields
  | .plain hnone hfields => .plain ((h.combination id).trans hnone) (h.areFields hfields)
  | .merged hne hinherited hown hmerges => by
      rw [← h.same (requireOwn · _) fun _ _ => rfl]
      refine .merged ?_ ?_ (h.areFields hown) hmerges
      · rwa [h.allOf]
      · rw [h.allOf]
        exact h.contribute hinherited

theorem contribute (h : doc.Retagged property changed doc') {members : List Edge}
    {fields : List Field} :
    Contribute doc (IsField doc registry models context) members fields →
      Contribute doc' (IsField doc' registry models context) members fields
  | .nil => .nil
  | .cons hfirst hrest => .cons (h.hasFields hfirst) (h.contribute hrest)

end

/-! ## Models -/

section Models

variable (h : doc.Retagged property changed doc') {shape : Shape}
include h

/-- In one context the models of a schema differ in the discriminator alone. -/
theorem depicts (hshape : Depicts doc registry models context id shape) :
    Depicts doc' registry models context id
      (shape.discriminate (doc'.schema id).discriminator) := by
  cases hshape with
  | @union found hne hfound =>
      have hunion : Depicts doc' registry models context id _ :=
        .union (h.alternatives id ▸ hne) (h.alternatives id ▸ h.hasAlternatives hfound)
      rwa [h.mapping, h.tagsOf] at hunion
  | object hnil hfields =>
      exact .object ((h.alternatives id).trans hnil) (h.hasFields hfields)

/-- The models of other schemas do not differ. -/
theorem withoutDiscriminator_shape (hnone : (doc'.schema changed).discriminator = none)
    {model : Model} (hshape : Depicts doc registry models context model.schema model.shape) :
    (model.withoutDiscriminator changed).shape =
      model.shape.discriminate (doc'.schema model.schema).discriminator := by
  unfold Model.withoutDiscriminator
  split
  · rename_i hschema
    rw [hschema, hnone]
  · rename_i hschema
    rw [h.discriminator _ hschema]
    generalize model.shape = shape at hshape
    cases hshape <;> rfl

end Models

/-! ## Soundness and complete sets -/

section Carried

variable (h : doc.Retagged property changed doc') (hasks : doc.AsksAlike doc')
include h hasks

theorem sound (hsound : doc.Sound registry) : doc'.Sound registry where
  types := by
    intro id hasked
    obtain ⟨type, htype⟩ := hsound.types id ((hasks.asked id).mp hasked)
    exact ⟨type, h.hasType htype⟩
  targets := by
    intro id tag target hasked hanchor hentry
    obtain ⟨variant, hresolve⟩ := hsound.targets id tag target ((hasks.asked id).mp hasked)
      ((h.isAnchor id).symm.trans hanchor) (h.mapping id ▸ hentry)
    exact ⟨variant, (h.resolve target).trans hresolve⟩
  members := by
    intro id part hasked hobject hwalk
    obtain ⟨hnot, hmergeable⟩ := hsound.members id part ((hasks.asked id).mp hasked)
      (h.symm.isObject hobject) (h.symm.includes_walk hwalk)
    refine ⟨fun hcycle => hnot (TransGen.mono (fun _ _ => h.symm.includes) _ _ hcycle), ?_⟩
    exact fun edge hmem => h.mergeable (hmergeable edge (h.allOf part ▸ hmem))
  fields := by
    intro context' id name edge hbuilds hobject hholds
    have hobject := h.symm.isObject hobject
    have hholds := h.symm.holds hholds
    obtain ⟨context, hbuilt, halike⟩ := hasks.builds_back hbuilds
    obtain ⟨type, htype⟩ := hsound.fields context id name edge hbuilt hobject hholds
    exact ⟨type, h.hasFieldType (htype.of_alike (halike name edge hobject hholds))⟩
  agree := by
    intro context' id name edge edge' type type' hbuilds hobject hne hholds hholds' htype htype'
    have hobject := h.symm.isObject hobject
    have hholds := h.symm.holds hholds
    obtain ⟨context, hbuilt, halike⟩ := hasks.builds_back hbuilds
    have hback (answer) := (halike name edge hobject hholds answer).symm
    exact hsound.agree context id name edge edge' type type' hbuilt hobject (h.allOf id ▸ hne)
      hholds (h.symm.holds hholds') ((h.symm.hasFieldType htype).of_alike hback)
      ((h.symm.hasFieldType htype').of_alike hback)

/-- Without its discriminator in the model set, a union is what it is without it in the document. -/
theorem complete (hnone : (doc'.schema changed).discriminator = none) {set : ModelSet}
    (hset : set.Complete doc) : (set.withoutDiscriminator changed).Complete doc' where
  forSchema_iff := fun id => by
    rw [ModelSet.forSchema_withoutDiscriminator, hset.forSchema_iff, h.isModel_iff, hasks.asked]
  schema := fun hm => by simpa using hset.schema hm
  forSchema_schema := fun hlt => by
    simpa using hset.forSchema_schema (by simpa using hlt)
  name := by
    intro m hlt name hname
    rw [ModelSet.size_withoutDiscriminator] at hlt
    rw [ModelSet.model_withoutDiscriminator, Model.withoutDiscriminator_schema,
      h.same (fun schema => schema.title.or schema.identity) fun _ _ => rfl] at hname
    simpa using hset.name hlt name hname
  shape := by
    intro m hlt
    rw [ModelSet.size_withoutDiscriminator] at hlt
    obtain ⟨context, hbuilds, hdepicts⟩ := hset.shape hlt
    obtain ⟨context', hbuilds', halike⟩ := hasks.builds hbuilds
    obtain ⟨hmodel, -⟩ := (hset.forSchema_iff _).mp ⟨m, hset.forSchema_schema hlt⟩
    rw [ModelSet.model_withoutDiscriminator, Model.withoutDiscriminator_schema,
      h.withoutDiscriminator_shape hnone hdepicts]
    exact ⟨context', hbuilds', h.depicts (hdepicts.of_alike hmodel halike)⟩
  anchor_iff := fun id => by
    rw [h.isAnchor, hasks.asked]
    exact hset.anchor_iff id
  anchor := by
    intro id anchor hsome
    obtain ⟨hname, hvariants⟩ := hset.anchor hsome
    exact ⟨hname.trans (h.label id).symm, h.hasVariants hvariants⟩
  roots := by
    rw [h.named]
    exact hset.roots.imp fun entry root hroot =>
      ⟨hroot.name, h.hasType hroot.type, by rw [hroot.none_iff, h.isAnchor]⟩

end Carried

end Document.Retagged
end OpenApi
