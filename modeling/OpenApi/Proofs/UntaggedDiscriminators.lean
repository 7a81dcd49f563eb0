-- SUMMARY: When a discriminator without a mapping makes no difference to any model, and when it does.
import Mathlib
import OpenApi.Document.Load
import OpenApi.Proofs.DeclarationOrder
import OpenApi.Proofs.Model.Untagged

/-!
# Untagged discriminators

A discriminator without a mapping says of a union that its values are told apart by trying its
alternatives in turn. So nothing but the union that has it should depend on it. But it hides the
mappings of the same property further inside, whose variants are then left with the plain types
of their properties. It also moves its schema to the front of the compilation, and what is built
first decides about models that do not look the same in all contexts in which they are reached.
Where neither happens, the models are the same without it.
-/

namespace OpenApi

open Relation (ReflTransGen TransGen)

namespace Document

/-- The document in which a schema has no discriminator. -/
def withoutDiscriminator (doc : Document) (id : SchemaId) : Document :=
  doc.replace id { doc.schema id with discriminator := none }

/-- It makes no difference to the models whether a schema has its discriminator: without it the
document compiles too, to the same models but for their indices and for this discriminator. -/
def InertAt (doc : Document) (id : SchemaId) : Prop :=
  ∀ set, doc.compile = .ok set → ∃ set', (doc.withoutDiscriminator id).compile = .ok set' ∧
    ∃ ρ : Equiv.Perm ModelId, (set.withoutDiscriminator id).Renumbered 1 ρ set'

variable {doc : Document}

/-! ## Removing a discriminator -/

theorem schema_withoutDiscriminator (doc : Document) (id other : SchemaId) :
    (doc.withoutDiscriminator id).schema other =
      if other = id then { doc.schema id with discriminator := none } else doc.schema other := by
  split
  · rename_i hother
    subst hother
    by_cases hlt : other < doc.schemas.size
    · exact doc.schema_replace_self hlt _
    · -- There is nothing to be changed beyond the last index.
      simp [withoutDiscriminator, replace, schema, hlt]
  · rename_i hother
    exact doc.schema_replace_of_ne hother _

theorem retagged_withoutDiscriminator {id : SchemaId} {selector : Discriminator}
    (hsome : (doc.schema id).discriminator = some selector) (hmapping : selector.mapping = none) :
    doc.Retagged selector.property id (doc.withoutDiscriminator id) where
  named := rfl
  schema := by
    intro other
    rw [schema_withoutDiscriminator]
    split
    · rename_i heq
      rw [heq]
    · rfl
  discriminator := by
    intro other hne
    rw [schema_withoutDiscriminator, if_neg hne]
  before := by
    intro found hfound
    cases hsome.symm.trans hfound
    exact ⟨rfl, hmapping⟩
  after := by
    intro found hfound
    simp [schema_withoutDiscriminator] at hfound

theorem reorders_self (doc : Document) : doc.Reorders 1 doc where
  schema := fun id => (Schema.rename_self _).symm
  named := by simp

/-- Where a discriminator without a mapping encloses no mapping for its property, and where it does
not matter in which of its contexts a model is built, it makes no difference to the models. That
the document compiles with it and not without it only happens where a merged schema leads back to
itself below, or a union comes back to itself. -/
theorem compile_withoutDiscriminator (hloaded : doc.Loaded) {id : SchemaId}
    {selector : Discriminator} (hsome : (doc.schema id).discriminator = some selector)
    (hmapping : selector.mapping = none) (hclear : ¬ doc.Encloses id selector.property)
    (hsteady : doc.Steady) (hsteady' : (doc.withoutDiscriminator id).Steady) :
    (∀ set set', doc.compile = .ok set → (doc.withoutDiscriminator id).compile = .ok set' →
      ∃ ρ : Equiv.Perm ModelId, (set.withoutDiscriminator id).Renumbered 1 ρ set') ∧
    (∀ set stop, doc.compile = .ok set → (doc.withoutDiscriminator id).compile = .error stop →
      (doc.withoutDiscriminator id).Loops stop) ∧
    (doc.MergesApart → doc.NoUnionLoop → doc.InertAt id) := by
  have hretagged := retagged_withoutDiscriminator hsome hmapping
  have hnone : ((doc.withoutDiscriminator id).schema id).discriminator = none := by
    rw [schema_withoutDiscriminator, if_pos rfl]
  have hasks := hretagged.asksAlike hclear hnone hsteady hsteady'
  have hnames := hloaded.distinctNames.named
  have hnames' : (doc.withoutDiscriminator id).named.keys.Nodup := hnames
  have hidentified : (doc.withoutDiscriminator id).Identified := by
    intro other hanchor
    rw [hretagged.same (·.identity) fun _ _ => rfl]
    exact hloaded.identified other ((hretagged.isAnchor other).symm.trans hanchor)
  have hsame (set set' : ModelSet) (hset : doc.compile = .ok set)
      (hset' : (doc.withoutDiscriminator id).compile = .ok set') :
      ∃ ρ : Equiv.Perm ModelId, (set.withoutDiscriminator id).Renumbered 1 ρ set' := by
    have hcomplete := hretagged.complete hasks hnone (compile_complete hnames hsteady hset).2
    have hcomplete' := (compile_complete hnames' hsteady' hset').2
    exact hcomplete.renumbered (reorders_self _) hnames' hidentified hsteady' hcomplete'
  have hloops (set : ModelSet) (stop : Stop SchemaError) (hset : doc.compile = .ok set)
      (hstop : (doc.withoutDiscriminator id).compile = .error stop) :
      (doc.withoutDiscriminator id).Loops stop := by
    have hsound := hretagged.sound hasks (compile_complete hnames hsteady hset).1
    exact loops_of_compile hnames' hsteady' hsound hstop
  refine ⟨hsame, hloops, fun hapart hunions set hset => ?_⟩
  cases hset' : (doc.withoutDiscriminator id).compile with
  | ok set' => exact ⟨set', rfl, hsame set set' hset hset'⟩
  | error stop =>
      exact absurd ⟨hretagged.mergesApart hapart, hretagged.noUnionLoop hunions⟩
        (hloops set stop hset hset').not_apart

/-! ## One union inside another -/

/-- Dogs as the only pets, and pets as the only beings, which are told apart by a property without
a mapping. -/
def beingsValue (property : String) : Json :=
  .obj [
    ("openapi", .str "3.0.3"),
    ("components", .obj [("schemas", .obj [
      ("Being", .obj [
        ("oneOf", .arr [.obj [("$ref", .str "#/components/schemas/Pet")]]),
        ("discriminator", .obj [("propertyName", .str property)])]),
      petEntry, dogEntry])])]

/-- Beings, with some discriminator or none, which are pets, which are dogs. -/
def beings (selector : Option Discriminator) : Document where
  dialect := .openApi30
  schemas := #[
    { dialect := .openApi30, identity := some "Being", discriminator := selector
      oneOf := [{ id := 1, reference := some "#/components/schemas/Pet" }] },
    { dialect := .openApi30, identity := some "Pet", discriminator := some petKind
      oneOf := [{ id := 2, reference := some "#/components/schemas/Dog" }] },
    { dialect := .openApi30, identity := some "Dog", type := some .object
      properties := [("kind", { id := 3 })] },
    { dialect := .openApi30, identity := some "Dog.kind", type := some .string }]
  named := [("Being", 0), ("Pet", 1), ("Dog", 2)]

section Beings

variable {selector : Option Discriminator}

/-- Members have greater indices than their unions. -/
private theorem beings_alternatives {id : SchemaId} {edge : Edge}
    (h : edge ∈ ((beings selector).schema id).alternatives) :
    (id = 0 ∧ edge = { id := 1, reference := some "#/components/schemas/Pet" }) ∨
      (id = 1 ∧ edge = { id := 2, reference := some "#/components/schemas/Dog" }) := by
  match id with
  | 0 => exact .inl ⟨rfl, List.mem_singleton.mp h⟩
  | 1 => exact .inr ⟨rfl, List.mem_singleton.mp h⟩
  | 2 | 3 | id + 4 => cases h

private theorem beings_includes {owner member : SchemaId} :
    ¬ (beings selector).Includes owner member := by
  rintro ⟨edge, hmem, -⟩
  match owner with
  | 0 | 1 | 2 | 3 | owner + 4 => cases hmem

private theorem beings_mapping {id : SchemaId}
    (h : ((beings selector).schema id).isAnchor = true) :
    ((beings selector).schema id).mapping = [] := by
  match id with
  | 0 | 1 | 2 | 3 => cases h
  | id + 4 => rfl

private theorem beings_passes {first second : SchemaId}
    (h : (beings selector).Passes first second) : first < second := by
  cases h with
  | alternative _ hmem =>
      rcases beings_alternatives hmem with ⟨rfl, rfl⟩ | ⟨rfl, rfl⟩ <;> decide
  | variant hanchor hentry => simp [beings_mapping hanchor] at hentry

private theorem beings_noUnionLoop : (beings selector).NoUnionLoop :=
  not_transGen_of_lt beings_passes

private theorem beings_mergesApart : (beings selector).MergesApart :=
  fun _ _ hincludes => absurd hincludes beings_includes

/-- Only dogs are objects, and `kind` is all that they have. -/
private theorem beings_holds {id : SchemaId} {name : String} {edge : Edge}
    (hobject : (beings selector).IsObject id) (hholds : (beings selector).Holds id name edge) :
    id = 2 ∧ name = "kind" := by
  obtain ⟨part, hwalk, hmem⟩ := hholds
  rcases hwalk.cases_head with rfl | ⟨_, hincludes, -⟩
  · match id with
    | 2 => exact ⟨rfl, (Prod.mk.injEq .. ▸ List.mem_singleton.mp hmem).1⟩
    | 0 | 1 | 3 | id + 4 => cases hmem
  · exact absurd hincludes beings_includes

private theorem narrow_petKind {context : Context} (h : context.selector "kind" = none) :
    (context.follow (some petKind) "#/components/schemas/Dog").narrow "kind" = .ok (some "dog") := by
  have hselector : (context.follow (some petKind) "#/components/schemas/Dog").selector "kind" =
      some petKind := by
    rw [Context.selector_follow, h]
    rfl
  have htag : petKind.tagForPath (context.path ++ ["#/components/schemas/Dog"]) = some "dog" := by
    simp [petKind, Discriminator.tagForPath, Reference.isTarget]
  unfold Context.selector at hselector
  have htagged : petKind.isTagged = true := rfl
  simp only [Context.narrow, hselector, htagged, if_true]
  simp only [Context.follow, htag]

variable (hother : ∀ found, selector = some found → found.property ≠ "kind")
include hother

/-- Hierarchies reach pets before any other discriminator of their property, and dogs through
pets. -/
private theorem beings_asksFirst {context : Context} {id : SchemaId}
    (h : (beings selector).AsksFirst context id) :
    (id = 0 ∧ context = {}) ∨ (id = 1 ∧ context.selector "kind" = none) ∨
      (id = 2 ∧ context.narrow "kind" = .ok (some "dog")) := by
  induction h with
  | start hid =>
      obtain ⟨name, hmem, hsome⟩ := hid
      simp only [beings, List.mem_cons, Prod.mk.injEq, List.not_mem_nil, or_false] at hmem
      obtain ⟨-, rfl⟩ | ⟨-, rfl⟩ | ⟨-, rfl⟩ := hmem
      · exact .inl ⟨rfl, rfl⟩
      · exact .inr (.inl ⟨rfl, rfl⟩)
      · cases hsome
  | @step context _ _ _ _ _ hneeds ih =>
      cases hneeds with
      | item htype =>
          obtain ⟨rfl, -⟩ | ⟨rfl, -⟩ | ⟨rfl, -⟩ := ih <;> cases htype
      | field hobject hholds hnarrow =>
          -- The only property of dogs is narrowed to their tag.
          obtain ⟨rfl, rfl⟩ := beings_holds hobject hholds
          obtain ⟨hid, -⟩ | ⟨hid, -⟩ | ⟨-, htag⟩ := ih
          · cases hid
          · cases hid
          · cases htag.symm.trans hnarrow
      | alternative _ hmem =>
          obtain ⟨rfl, rfl⟩ | ⟨rfl, rfl⟩ := beings_alternatives hmem
          · obtain ⟨-, rfl⟩ | ⟨hid, -⟩ | ⟨hid, -⟩ := ih
            · refine .inr (.inl ⟨rfl, ?_⟩)
              rw [Context.selector_follow]
              have hfilter : selector.filter (·.property == "kind") = none := by
                simpa [Option.filter_eq_none_iff] using hother
              exact hfilter
            · cases hid
            · cases hid
          · obtain ⟨hid, -⟩ | ⟨-, hselector⟩ | ⟨hid, -⟩ := ih
            · cases hid
            · exact .inr (.inr ⟨rfl, narrow_petKind hselector⟩)
            · cases hid
      | variant hanchor hentry => simp [beings_mapping hanchor] at hentry

/-- Dogs are built as pets only, so they have their tag. -/
private theorem beings_steady : (beings selector).Steady := by
  have hpet : (beings selector).AsksFirst {} 1 := .start ⟨"Pet", by simp [beings], rfl⟩
  have hmember : { id := 2, reference := some "#/components/schemas/Dog" } ∈
      ((beings selector).schema 1).alternatives := List.mem_cons_self
  have hdog : (beings selector).IsFirst 2 :=
    ⟨_, .step hpet (fun _ hid => hid) (.alternative ⟨.inl rfl, rfl⟩ hmember)⟩
  have hnarrow {context : Context} (hbuilds : (beings selector).Builds context 2) :
      context.narrow "kind" = .ok (some "dog") := by
    rcases hbuilds with hfirst | ⟨-, hnew⟩
    · obtain ⟨hid, -⟩ | ⟨hid, -⟩ | ⟨-, htag⟩ := beings_asksFirst hother hfirst
      · cases hid
      · cases hid
      · exact htag
    · exact absurd hdog hnew
  intro context context' id name edge hobject hbuilds hbuilds' hholds answer
  obtain ⟨rfl, rfl⟩ := beings_holds hobject hholds
  rw [hnarrow hbuilds, hnarrow hbuilds']

end Beings

/-- What pets map is their kind, not their species. -/
private theorem beings_not_encloses :
    ¬ (beings (some { property := "species" })).Encloses 0 "species" := by
  rintro ⟨inner, selector, -, hsome, hproperty, hmapping⟩
  match inner with
  | 0 =>
      cases hsome
      exact hmapping rfl
  | 1 =>
      cases hsome
      exact absurd hproperty (by decide)
  | 2 | 3 | inner + 4 => cases hsome

/-- Beings are told apart by their species, pets by their kind. -/
theorem beings_inertAt :
    ofJson (beingsValue "species") = .ok (beings (some { property := "species" })) ∧
      (∃ set, (beings (some { property := "species" })).compile = .ok set) ∧
      (beings (some { property := "species" })).InertAt 0 := by
  have hload : ofJson (beingsValue "species") = .ok (beings (some { property := "species" })) := by
    cbv
  have hsteady : (beings (some { property := "species" })).Steady := beings_steady (by simp)
  have hsteady' : (beings none).Steady := beings_steady (by simp)
  have hsome : ((beings (some { property := "species" })).schema 0).discriminator =
      some { property := "species" } := rfl
  obtain ⟨-, -, hinert⟩ :=
    compile_withoutDiscriminator (.inl ⟨_, hload⟩) hsome rfl beings_not_encloses hsteady hsteady'
  exact ⟨hload, ⟨_, rfl⟩, hinert beings_mergesApart beings_noUnionLoop⟩

set_option maxRecDepth 2000 in
/-- Behind a discriminator of their kind that maps nothing, dogs have a plain one. -/
private theorem beings_plainDogs : ∃ set,
    (beings (some { property := "kind" })).compile = .ok set ∧
      2 < set.models.size ∧ set.forSchema 2 = some 2 ∧
      set.model 2 =
        { name := "Dog", schema := 2
          shape := .object [{ name := "kind", type := .scalar .text }] } :=
  ⟨_, rfl, by decide, rfl, rfl⟩

private theorem beings_taggedDogs : ∃ set, (beings none).compile = .ok set ∧
    set.forSchema 2 = some 1 ∧
    set.model 1 =
      { name := "Dog", schema := 2
        shape := .object [{ name := "kind", type := .literal "dog" }] } :=
  ⟨_, rfl, rfl, rfl⟩

/-- Pets, which map their kind, are inside. -/
private theorem beings_encloses : (beings (some { property := "kind" })).Encloses 0 "kind" := by
  have hmember : { id := 1, reference := some "#/components/schemas/Pet" } ∈
      ((beings (some { property := "kind" })).schema 0).alternatives := List.mem_cons_self
  have hstep : (beings (some { property := "kind" })).Passes 0 1 :=
    .alternative ⟨.inl rfl, rfl⟩ hmember
  exact ⟨1, petKind, .single hstep, rfl, rfl, Option.some_ne_none _⟩

/-- Beings are told apart by their kind like pets, whose mapping is hidden: dogs lose their tag. -/
theorem beings_not_inertAt :
    ofJson (beingsValue "kind") = .ok (beings (some { property := "kind" })) ∧
      (beings (some { property := "kind" })).Encloses 0 "kind" ∧
      ¬ (beings (some { property := "kind" })).InertAt 0 := by
  have hload : ofJson (beingsValue "kind") = .ok (beings (some { property := "kind" })) := by cbv
  refine ⟨hload, beings_encloses, fun hinert => ?_⟩
  obtain ⟨set, hset, hlt, hmodel, hdog⟩ := beings_plainDogs
  obtain ⟨bare, hbare, hmodel', hdog'⟩ := beings_taggedDogs
  obtain ⟨set', hset', ρ, h⟩ := hinert set hset
  cases hbare.symm.trans hset'
  have hindex : ρ 2 = 1 := by
    have hsame : bare.forSchema 2 = (set.forSchema 2).map ρ := h.forSchema 2
    rw [hmodel, hmodel'] at hsame
    exact (Option.some.inj hsame).symm
  have hdogs := h.models 2 (by simpa using hlt)
  rw [hindex, hdog', ModelSet.model_withoutDiscriminator, hdog] at hdogs
  simp [Model.withoutDiscriminator, Model.rename, Shape.rename, Field.rename, Ty.rename] at hdogs

end Document
end OpenApi
