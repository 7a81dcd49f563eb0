-- SUMMARY: When the variants of named hierarchies have their tags narrowed.
import OpenApi.Proofs.Model.Members
import OpenApi.Proofs.TagNarrowing

/-!
# Narrowing in hierarchies

Schemas with a discriminator are compiled before all others, so that their variants
are reached through them and are narrowed. But a variant is built where it is reached
first, and that may be inside another one: a field of a variant, or of whatever lies
below it, starts anew without a context. So a variant of a named hierarchy is always
built while hierarchies are compiled, and it is narrowed exactly if the way on which
it was built leads through a discriminator that maps the tags of its property.
-/

namespace OpenApi

open Relation (ReflTransGen)

/-- The outermost discriminator of a property maps its tags. -/
def Context.Tags (context : Context) (property : String) : Prop :=
  ∃ selector, context.discriminators.find? (·.property == property) = some selector ∧
    selector.isTagged = true

namespace Document

variable (doc : Document)

/-! ## Hierarchies -/

/-- A schema is reached in a context from a named schema with a discriminator. -/
inductive Hierarchical : Context → SchemaId → Prop where
  | root {name : String} {id : SchemaId} :
      (name, id) ∈ doc.named → (doc.schema id).discriminator.isSome = true → Hierarchical {} id
  | inside {context : Context} {owner part child : SchemaId} :
      Hierarchical context owner → ReflTransGen doc.Includes owner part → doc.Below part child →
        Hierarchical {} child
  | alternative {context : Context} {union : SchemaId} {edge : Edge} :
      Hierarchical context union → edge ∈ (doc.schema union).alternatives →
        Hierarchical (context.follow (doc.schema union).discriminator (memberStep doc edge)) edge.id
  | variant {context : Context} {anchor variant : SchemaId} {tag target : String} :
      Hierarchical context anchor → (tag, target) ∈ (doc.schema anchor).mapping →
        doc.resolve target = some variant →
        Hierarchical (context.follow (doc.schema anchor).discriminator target) variant

/-- A plain object that has a property of this name. -/
structure PlainWith (property : String) (id : SchemaId) : Prop where
  type : (doc.schema id).type = none ∨ (doc.schema id).type = some .object
  plain : (doc.schema id).combination = .none
  declares : ∃ edge, (property, edge) ∈ (doc.schema id).properties

/-- A plain object is a variant of a named hierarchy that tells its variants apart by a property of
theirs: a union refers to it as a member, or a tag of an anchor means it. -/
inductive Varies : String → SchemaId → Prop where
  | member {name : String} {union : SchemaId} {selector : Discriminator} {edge : Edge} :
      (name, union) ∈ doc.named → doc.IsModel union →
        (doc.schema union).discriminator = some selector → selector.isTagged = true →
        edge ∈ (doc.schema union).alternatives → edge.reference.isSome = true →
        doc.PlainWith selector.property edge.id → Varies selector.property edge.id
  | target {name : String} {anchor variant : SchemaId} {selector : Discriminator}
      {tag target : String} :
      (name, anchor) ∈ doc.named → (doc.schema anchor).isAnchor = true →
        (doc.schema anchor).discriminator = some selector →
        (tag, target) ∈ (doc.schema anchor).mapping → doc.resolve target = some variant →
        doc.PlainWith selector.property variant → Varies selector.property variant

/-- Some discriminator on a property maps the tag. -/
def MapsTag (property tag : String) : Prop :=
  ∃ id selector target, (doc.schema id).discriminator = some selector ∧
    selector.property = property ∧ (tag, target) ∈ (doc.schema id).mapping

end Document

/-- The variants of named hierarchies have models, which hold a tag of a discriminator under the
property that tells them apart. -/
def ModelSet.NarrowsVariants (set : ModelSet) (doc : Document) : Prop :=
  ∀ property variant, doc.Varies property variant →
    ∃ m field tag, set.forSchema variant = some m ∧
      (set.model m).field property = some field ∧ field.type = .literal tag ∧
      doc.MapsTag property tag

/-! ## Narrowed types -/

section Narrowing

variable {doc : Document} {registry : Registry} {models : ModelTable} {context : Context}

theorem HasElementType.not_literal {edge : Edge} {tag : String} :
    ¬ HasElementType doc registry models edge (.literal tag) := by
  intro h
  obtain ⟨known, htype, heq⟩ := h
  cases htype <;> cases heq

/-- The type of a field is a tag exactly if the context narrows its name. -/
theorem Typed.literal_iff {name tag : String} {type : Ty}
    (h : Typed doc registry models context name type) :
    type = .literal tag ↔ context.narrow name = .ok (some tag) := by
  obtain ⟨edge, hfield⟩ := h
  cases hfield with
  | narrowed hnarrow => simp [hnarrow]
  | plain hnarrow htype =>
      simp only [hnarrow, Except.ok.injEq, reduceCtorEq, iff_false]
      rintro rfl
      exact htype.not_literal

/-- A context that narrows a name at all narrows it to a tag exactly if its outermost discriminator
of the name maps tags. -/
theorem Typed.tags_iff {name : String} {type : Ty}
    (h : Typed doc registry models context name type) :
    context.Tags name ↔ ∃ tag, type = .literal tag := by
  simp only [h.literal_iff]
  have hok : ∃ answer, context.narrow name = .ok answer := by
    obtain ⟨edge, hfield⟩ := h
    cases hfield with
    | narrowed hnarrow | plain hnarrow => exact ⟨_, hnarrow⟩
  unfold Context.narrow at hok ⊢
  unfold Context.Tags
  split at hok
  · rename_i hfind
    simp [hfind]
  · rename_i selector hfind
    split at hok
    · rename_i htagged
      split at hok
      · rename_i tag htag
        simp [hfind, htagged]
      · obtain ⟨answer, hok⟩ := hok
        cases hok
    · rename_i htagged
      simp [hfind, htagged]

end Narrowing

namespace Document

variable {doc : Document} {context : Context} {id : SchemaId}

/-! ## Contexts of hierarchies -/

theorem hierarchical_spreads : doc.Spreads doc.Hierarchical :=
  ⟨.inside, .alternative, .variant⟩

theorem Hierarchical.reached (h : doc.Hierarchical context id) : doc.Reached context id := by
  induction h with
  | root => exact .start _
  | inside => exact .start _
  | alternative _ hmem ih => exact .alternative ih hmem
  | variant _ hentry hresolve ih => exact .variant ih hentry hresolve

/-- The discriminators of a context are those of schemas. -/
theorem Reached.exists_schema (h : doc.Reached context id) {selector : Discriminator}
    (hmem : selector ∈ context.discriminators) :
    ∃ owner, (doc.schema owner).discriminator = some selector := by
  induction h with
  | start => cases hmem
  | @alternative _ owner _ _ _ ih | @variant _ owner _ _ _ _ _ _ ih =>
      rcases List.mem_append.mp hmem with hmem | hmem
      · exact ih hmem
      · exact ⟨owner, by simpa using hmem⟩

/-- A tag that a name is narrowed to is one of a discriminator of that name. -/
theorem Reached.mapsTag (h : doc.Reached context id) {property tag : String}
    (hnarrow : context.narrow property = .ok (some tag)) : doc.MapsTag property tag := by
  unfold Context.narrow at hnarrow
  split at hnarrow
  · cases hnarrow
  · rename_i selector hfind
    obtain ⟨owner, howner⟩ := h.exists_schema (List.mem_of_find?_eq_some hfind)
    have hname : selector.property = property := by simpa using List.find?_some hfind
    split at hnarrow
    · split at hnarrow
      · rename_i tag' htag
        cases hnarrow
        unfold Discriminator.tagForPath at htag
        split at htag
        · cases htag
        · rename_i mapping hmapping
          obtain ⟨⟨tag, target⟩, hentry, rfl⟩ := Option.map_eq_some_iff.mp htag
          refine ⟨owner, selector, target, howner, hname, ?_⟩
          simpa [Schema.mapping, howner, hmapping] using List.mem_of_find?_eq_some hentry
      · cases hnarrow
    · cases hnarrow

/-! ## Variants -/

variable {property : String} {variant : SchemaId}

theorem PlainWith.isModel (h : doc.PlainWith property id) : doc.IsModel id where
  type := h.type
  anchor := by
    obtain ⟨edge, hmem⟩ := h.declares
    have hne : (doc.schema id).properties.isEmpty = false := by
      simpa using List.ne_nil_of_mem hmem
    simp [Schema.isAnchor, hne]

theorem Varies.plainWith (h : doc.Varies property variant) : doc.PlainWith property variant := by
  cases h with
  | member _ _ _ _ _ _ hplain => exact hplain
  | target _ _ _ _ _ hplain => exact hplain

/-- The variants of a hierarchy that has been asked for have models. -/
theorem Varies.exists_model {reach : Context → SchemaId → Prop} {state : Compilation}
    (h : doc.Varies property variant) (hclosed : doc.Closed reach state)
    (hseen : ∀ entry ∈ doc.named, (doc.schema entry.2).discriminator.isSome = true →
      doc.Seen state.arena.models entry.2) : ∃ m, state.arena.models variant = some m := by
  cases h with
  | member hnamed hmodel hselector _ hmem _ hplain =>
      have hunion := hseen _ hnamed (by simp [hselector])
      obtain ⟨m, hm⟩ := hunion.model hmodel
      obtain ⟨model, hslot, rfl⟩ := hclosed.exists_model hm
      obtain ⟨-, context, -, hshape⟩ := hclosed.wellFormed.means hslot
      obtain ⟨inner, hinner, -⟩ := hshape.alternative_of_member hmem hplain.isModel
      exact ⟨inner, hinner⟩
  | target hnamed hanchor hselector hentry hresolve hplain =>
      have hseen' := hseen _ hnamed (by simp [hselector])
      exact hseen'.covers hanchor _ _ _ hentry hresolve hplain.isModel

/-- The field of a property of a plain object has the type that the way of the model gives it. -/
theorem PlainWith.exists_field {set : ModelSet} {way : ModelId → Context} {m : ModelId}
    (h : doc.PlainWith property variant) (hway : set.BuiltOn doc way) (hlt : m < set.models.size)
    (hschema : (set.model m).schema = variant) :
    ∃ field, (set.model m).field property = some field ∧
      Typed doc .standard set.forSchema (way m) property field.type := by
  obtain ⟨-, hshape⟩ := hway m hlt
  rw [hschema] at hshape
  simp only [HasShape, h.plain] at hshape
  obtain ⟨fields, hfields, hobject⟩ := hshape
  have hname : property ∈ fields.map (·.name) :=
    (PropertyLaw.KeepsNames.exists_iff IsField.keepsNames hfields).mpr h.declares
  obtain ⟨other, hmem, hother⟩ := List.mem_map.mp hname
  have hfield : ((set.model m).field property).isSome = true := by
    rw [Model.field, List.find?_isSome]
    exact ⟨other, by simpa [Model.fields, hobject] using hmem, by simpa using hother⟩
  obtain ⟨field, hfield⟩ := Option.isSome_iff_exists.mp hfield
  exact ⟨field, hfield, hway.typed hfield⟩

/-! ## Compiled sets -/

/-- Each model was built on some way, and the variants of hierarchies were built while hierarchies
were compiled. -/
theorem exists_hierarchical_way {set : ModelSet} (h : doc.compile = .ok set) :
    ∃ way, set.BuiltOn doc way ∧ ∀ property variant, doc.Varies property variant →
      ∃ m, set.forSchema variant = some m ∧ doc.Hierarchical (way m) variant := by
  have hroots (entry : String × SchemaId) (hmem : entry ∈ doc.named)
      (hsome : (doc.schema entry.2).discriminator.isSome = true) :
      doc.Hierarchical {} entry.2 := .root hmem hsome
  obtain ⟨hwf, first, hclosed, hgrows, hseen⟩ :=
    compile_phases hierarchical_spreads (fun _ _ => Hierarchical.reached) hroots h
  -- The models of the first phase keep the way that they were built on then.
  have hbuilt (m : ModelId) : ∃ context, m < set.models.size →
      (doc.Reached context (set.model m).schema ∧
        HasShape doc .standard set.forSchema context (set.model m).name (set.model m).schema
          (set.model m).shape) ∧
      ∀ model, first.arena.slots[m]? = some (some model) →
        doc.Hierarchical context (set.model m).schema := by
    by_cases hfilled : ∃ model, first.arena.slots[m]? = some (some model)
    · obtain ⟨model, hslot⟩ := hfilled
      obtain ⟨-, context, hhierarchical, hshape⟩ := hclosed.wellFormed.means hslot
      obtain ⟨-, rfl⟩ := ModelSet.slots_arena_iff.mp (hgrows.slots hslot)
      exact ⟨context, fun _ => ⟨⟨hhierarchical.reached, hshape.mono hgrows.models⟩,
        fun _ _ => hhierarchical⟩⟩
    · by_cases hlt : m < set.models.size
      · obtain ⟨context, hmeans⟩ := ModelSet.means_model hwf hlt
        exact ⟨context, fun _ => ⟨hmeans, fun model hslot => absurd ⟨model, hslot⟩ hfilled⟩⟩
      · exact ⟨{}, fun hlt' => absurd hlt' hlt⟩
  obtain ⟨way, hway⟩ := Classical.skolem.mp hbuilt
  refine ⟨way, fun m hlt => (hway m hlt).1, fun property variant hvaries => ?_⟩
  obtain ⟨m, hm⟩ := hvaries.exists_model hclosed hseen
  obtain ⟨model, hslot, rfl⟩ := hclosed.exists_model hm
  obtain ⟨hlt, hmodel⟩ := ModelSet.slots_arena_iff.mp (hgrows.slots hslot)
  exact ⟨m, hgrows.models _ _ hm, hmodel ▸ (hway m hlt).2 model hslot⟩

/-- The variants of named hierarchies were built on ways that lead from named schemas with a
discriminator. They are narrowed exactly if each of these ways leads through a discriminator that
maps the tags of the property, and no other one of the property before it. -/
theorem compile_narrowsVariants {set : ModelSet} (h : doc.compile = .ok set) :
    (∃ way, set.BuiltOn doc way ∧ ∀ property variant, doc.Varies property variant →
      ∃ m, set.forSchema variant = some m ∧ doc.Hierarchical (way m) variant) ∧
    (∀ way, set.BuiltOn doc way →
      (set.NarrowsVariants doc ↔ ∀ property variant m, doc.Varies property variant →
        set.forSchema variant = some m → (way m).Tags property)) ∧
    ((∀ property variant context, doc.Varies property variant →
      doc.Hierarchical context variant → context.Tags property) → set.NarrowsVariants doc) := by
  have hwf := compile_wellFormed h
  obtain ⟨way, hway, hvariants⟩ := exists_hierarchical_way h
  have hfield {way : ModelId → Context} (hway : set.BuiltOn doc way) {property : String}
      {variant : SchemaId} {m : ModelId} (hvaries : doc.Varies property variant)
      (hm : set.forSchema variant = some m) :
      doc.Reached (way m) variant ∧ ∃ field, (set.model m).field property = some field ∧
        Typed doc .standard set.forSchema (way m) property field.type := by
    have hlt := ModelSet.lt_size_of_forSchema hwf hm
    have hschema := ModelSet.schema_of_forSchema hwf hm
    exact ⟨hschema ▸ (hway m hlt).1, hvaries.plainWith.exists_field hway hlt hschema⟩
  have hiff (way : ModelId → Context) (hway : set.BuiltOn doc way) :
      set.NarrowsVariants doc ↔ ∀ property variant m, doc.Varies property variant →
        set.forSchema variant = some m → (way m).Tags property := by
    constructor
    · intro hnarrows property variant m hvaries hm
      obtain ⟨m', field, tag, hm', hlookup, htype, -⟩ := hnarrows property variant hvaries
      cases hm.symm.trans hm'
      obtain ⟨-, field', hlookup', htyped⟩ := hfield hway hvaries hm
      cases hlookup.symm.trans hlookup'
      exact htyped.tags_iff.mpr ⟨tag, htype⟩
    · intro htags property variant hvaries
      obtain ⟨m, hm, -⟩ := hvariants property variant hvaries
      obtain ⟨hreached, field, hlookup, htyped⟩ := hfield hway hvaries hm
      obtain ⟨tag, htype⟩ := htyped.tags_iff.mp (htags property variant m hvaries hm)
      exact ⟨m, field, tag, hm, hlookup, htype, hreached.mapsTag (htyped.literal_iff.mp htype)⟩
  refine ⟨⟨way, hway, hvariants⟩, hiff, fun htags => (hiff way hway).mpr ?_⟩
  intro property variant m hvaries hm
  obtain ⟨m', hm', hhierarchical⟩ := hvariants property variant hvaries
  cases hm.symm.trans hm'
  exact htags property variant (way m) hvaries hhierarchical

/-- The discriminator of `friends`. -/
def petKinds : Discriminator where
  property := "kind"
  mapping := some [("dog", "#/components/schemas/Dog"), ("cat", "#/components/schemas/Cat")]

/-- A hierarchy of two variants, the first of which has a field of the second. -/
def friends : Document where
  dialect := .openApi30
  schemas := #[
    { dialect := .openApi30, identity := some "Dog", type := some .object
      properties := [
        ("kind", { id := 3 }),
        ("friend", { id := 1, reference := some "#/components/schemas/Cat" })] },
    { dialect := .openApi30, identity := some "Cat", type := some .object
      properties := [("kind", { id := 4 })] },
    { dialect := .openApi30, identity := some "Pet"
      oneOf := [
        { id := 0, reference := some "#/components/schemas/Dog" },
        { id := 1, reference := some "#/components/schemas/Cat" }]
      discriminator := some petKinds },
    { dialect := .openApi30, identity := some "Dog.kind", type := some .string },
    { dialect := .openApi30, identity := some "Cat.kind", type := some .string }]
  named := [("Dog", 0), ("Cat", 1), ("Pet", 2)]

/-- The models of `friends`: the second variant was built as a field of the first. -/
def friendsModels : ModelSet where
  models := #[
    { name := "Pet", schema := 2
      shape := .union [.model 1, .model 2] (some petKinds) [("dog", 0), ("cat", 1)] },
    { name := "Dog", schema := 0
      shape := .object [
        { name := "kind", type := .literal "dog" }, { name := "friend", type := .model 2 }] },
    { name := "Cat", schema := 1
      shape := .object [{ name := "kind", type := .scalar .text }] }]
  bySchema := [(1, 2), (0, 1), (2, 0)]
  roots := [("Dog", some (.model 1)), ("Cat", some (.model 2)), ("Pet", some (.model 0))]

set_option maxRecDepth 2000 in
theorem friends_compile : friends.compile = .ok friendsModels := rfl

private theorem friends_varies : friends.Varies "kind" 1 := by
  have hnamed : ("Pet", 2) ∈ friends.named :=
    List.mem_cons_of_mem _ (List.mem_cons_of_mem _ List.mem_cons_self)
  have hmember : { id := 1, reference := some "#/components/schemas/Cat" } ∈
      (friends.schema 2).alternatives := List.mem_cons_of_mem _ List.mem_cons_self
  have hplain : friends.PlainWith petKinds.property 1 :=
    ⟨.inr rfl, rfl, { id := 4 }, List.mem_singleton.mpr rfl⟩
  exact .member hnamed ⟨.inl rfl, rfl⟩ rfl rfl hmember rfl hplain

private theorem friendsModels_not_narrowsVariants : ¬ friendsModels.NarrowsVariants friends := by
  intro h
  obtain ⟨m, field, tag, hm, hfield, htype, -⟩ := h "kind" 1 friends_varies
  cases hm
  cases hfield
  cases htype

/-- On every way on which the models can have been built, some variant of a hierarchy was reached
without a discriminator of its property. -/
theorem friends_untagged :
    friends.compile = .ok friendsModels ∧ ∀ way, friendsModels.BuiltOn friends way →
      ∃ property variant m, friends.Varies property variant ∧
        friendsModels.forSchema variant = some m ∧ ¬ (way m).Tags property := by
  refine ⟨friends_compile, fun way hway => ?_⟩
  obtain ⟨-, hiff, -⟩ := compile_narrowsVariants friends_compile
  have hnot := mt (hiff way hway).mpr friendsModels_not_narrowsVariants
  simpa only [not_forall, exists_prop] using hnot

/-- Not every variant of a named hierarchy is narrowed. -/
theorem friends_unnarrowed :
    ∃ set, friends.compile = .ok set ∧ ¬ set.NarrowsVariants friends :=
  ⟨friendsModels, friends_compile, friendsModels_not_narrowsVariants⟩

end Document
end OpenApi
