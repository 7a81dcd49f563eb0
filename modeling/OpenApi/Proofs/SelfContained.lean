-- SUMMARY: A compiled model set holds all that it refers to, and nothing beyond it is ever read.
import Mathlib
import OpenApi.Proofs.Compilation.Roots
import OpenApi.Proofs.Decoding.Agreement
import OpenApi.Proofs.RoundTrip

/-!
# Self-contained model sets

The tables of a compiled set fit together: each schema in `bySchema` has one index, each
index one schema, and types, variants and tags only refer to what is there. That nothing
else is ever looked up is said by comparing the set with any set that continues it:
whatever stands behind its models, checks, names and views come out the same.
-/

namespace OpenApi

namespace ModelSet

/-! ## What a set holds -/

/-- The models in a type are models of the set, and the anchors in it are registered. -/
def Knows (set : ModelSet) : Ty → Prop
  | .scalar _ | .literal _ => True
  | .array item => set.Knows item
  | .model id => id < set.models.size
  | .anchor schema => (set.anchor schema).isSome = true

/-- The tables of a set fit together, and what is referred to is there. -/
structure SelfContained (set : ModelSet) : Prop where
  /-- No schema has two models. -/
  schemas : (set.bySchema.map (·.1)).Nodup
  /-- Each index belongs to one schema. -/
  indices : (set.bySchema.map (·.2)).Perm (List.range set.models.size)
  bySchema : ∀ schema m,
    (schema, m) ∈ set.bySchema ↔ m < set.models.size ∧ (set.model m).schema = schema
  types : ∀ m < set.models.size, ∀ type ∈ (set.model m).shape.types, set.Knows type
  roots : ∀ root ∈ set.roots, ∀ type, root.2 = some type → set.Knows type
  variants : ∀ entry ∈ set.anchors, ∀ variant ∈ entry.2.variants, variant < set.models.size
  tags : ∀ m alternatives discriminator tags,
    (set.model m).shape = .union alternatives discriminator tags →
      ∀ tag ∈ tags, tag.2 < alternatives.length
  fields : set.DistinctFields

/-! ## Sets that continue a set -/

/-- A set has the models of another and more behind them, and its anchors and more. -/
structure Extends (set larger : ModelSet) : Prop where
  models : ∃ more, larger.models = set.models ++ more
  anchors : ∀ schema anchor, set.anchor schema = some anchor → larger.anchor schema = some anchor

/-- Decoding, naming and viewing what is in a set is the same in another set. -/
structure ReadsAlike (set larger : ModelSet) : Prop where
  decode : ∀ type value, set.Knows type → larger.decode type value = set.decode type value
  typeName : ∀ type, set.Knows type → larger.typeName type = set.typeName type
  viewType : ∀ type, set.Knows type → larger.viewType type = set.viewType type
  viewModel : ∀ m < set.models.size,
    larger.viewModel m (larger.model m) = set.viewModel m (set.model m)
  viewRoot : ∀ root ∈ set.roots, larger.viewRoot root.2 = set.viewRoot root.2
  link : ∀ m < set.models.size, larger.link m = set.link m

variable {set larger : ModelSet}

theorem Extends.model (h : set.Extends larger) {m : ModelId} (hlt : m < set.models.size) :
    larger.model m = set.model m := by
  obtain ⟨more, hmore⟩ := h.models
  simp [ModelSet.model, hmore, hlt, Nat.lt_add_right]

theorem Extends.agreeOn (h : set.Extends larger) (hset : set.SelfContained) :
    AgreeOn set.Knows set larger where
  item := id
  model := fun hlt => (h.model hlt).symm
  types := fun hlt => hset.types _ hlt
  anchor := by
    intro schema hknown
    obtain ⟨anchor, hanchor⟩ := Option.isSome_iff_exists.mp hknown
    rw [hanchor, h.anchors schema anchor hanchor]
  variants := by
    intro schema anchor _ hanchor variant hvariant
    obtain ⟨before, after, hsplit, -⟩ := List.lookup_eq_some_iff.mp hanchor
    exact hset.variants (schema, anchor) (by simp [hsplit]) variant hvariant

/-- A sum over a list is not smaller if it starts higher. -/
private theorem foldr_add_le {α : Type} (size : α → Nat) (elements : List α) {start start' : Nat}
    (hle : start ≤ start') :
    elements.foldr (fun element sum => size element + sum) start ≤
      elements.foldr (fun element sum => size element + sum) start' := by
  induction elements with
  | nil => exact hle
  | cons element rest ih => exact Nat.add_le_add_left ih _

theorem Extends.depth_le (h : set.Extends larger) (type : Ty) (value : Json) :
    set.depth type value ≤ larger.depth type value := by
  obtain ⟨more, hmore⟩ := h.models
  simp only [depth, hmore, Array.toList_append, List.foldr_append]
  have htypes := foldr_add_le (fun model => 1 + Model.typeCount model) set.models.toList
    (Nat.zero_le (more.toList.foldr (fun model sum => 1 + model.typeCount + sum) 0))
  have hdefaults := foldr_add_le Model.defaultSize set.models.toList
    (Nat.zero_le (more.toList.foldr (fun model sum => model.defaultSize + sum) 0))
  gcongr

theorem SelfContained.tagsInRange (h : set.SelfContained) : set.TagsInRange :=
  fun m alternatives discriminator tags hshape tag index htag =>
    h.tags m alternatives discriminator tags hshape (tag, index) (Keyed.mem_of_get? htag)

/-- A check in the larger set ends within the depth that is enough there exactly if it ends at
all, and so does one in the smaller set. -/
theorem SelfContained.upTo_depth (hset : set.SelfContained) (h : set.Extends larger) {type : Ty}
    (hknown : set.Knows type) (value : Json) :
    Check.upTo larger (larger.depth type value) type value {} =
      Check.upTo set (set.depth type value) type value {} := by
  have hagree := h.agreeOn hset
  cases hcheck : Check.upTo set (set.depth type value) type value {} with
  | some outcome => exact hagree.upTo (h.depth_le type value) hknown hcheck
  | none =>
      cases hlarger : Check.upTo larger (larger.depth type value) type value {} with
      | none => rfl
      | some outcome =>
          have hends : set.Terminates type value :=
            ⟨_, Option.isSome_iff_exists.mpr ⟨_, hagree.symm.upTo (Nat.le_refl _) hknown hlarger⟩⟩
          have hsome := hends.isSome_upTo_depth hset.tagsInRange
          rw [hcheck] at hsome
          cases hsome

/-- Nothing is read but what the set holds. -/
theorem SelfContained.readsAlike (hset : set.SelfContained) (h : set.Extends larger) :
    set.ReadsAlike larger := by
  have hagree := h.agreeOn hset
  refine ⟨?_, ?_, ?_, ?_, ?_, ?_⟩
  · intro type value hknown
    simp only [decode, hset.upTo_depth h hknown, ← hagree.typeName hknown]
  · exact fun type hknown => (hagree.typeName hknown).symm
  · exact fun type hknown => (hagree.viewType hknown).symm
  · exact fun m hlt => (hagree.viewModel hlt).symm
  · intro root hmem
    cases htype : root.2 with
    | none => rfl
    | some type => exact (hagree.viewType (hset.roots root hmem type htype)).symm
  · exact fun m hlt => (hagree.link hlt).symm

end ModelSet

namespace Document

variable {doc : Document} {set : ModelSet}

/-! ## Finishing -/

/-- What points into a compilation points into the set that it ends with. -/
theorem knows_of_finish {state : Compilation} (hanchors : set.anchors = state.anchors)
    (hsize : set.models.size = state.slots.size) {type : Ty} (h : state.Knows type) :
    set.Knows type := by
  induction type with
  | scalar | literal => trivial
  | array item ih => exact ih h
  | model m => exact Nat.lt_of_lt_of_eq h hsize.symm
  | anchor schema => exact (congrArg (fun anchors => (List.lookup schema anchors).isSome)
      hanchors).trans h

/-- The memo of a finished compilation is a bijection between schemas and indices. -/
theorem bySchema_of_finish {state : Compilation} (hlinked : state.Linked)
    (hwf : set.arena.WellFormed doc .standard doc.Reached) (hmemo : set.bySchema = state.memo)
    (schema : SchemaId) (m : ModelId) :
    (schema, m) ∈ set.bySchema ↔ m < set.models.size ∧ (set.model m).schema = schema := by
  have hnodup : (set.bySchema.map (·.1)).Nodup := hmemo ▸ hlinked.schemas
  constructor
  · intro hmem
    have hm : set.forSchema schema = some m := lookup_of_mem hnodup hmem
    exact ⟨ModelSet.lt_size_of_forSchema hwf hm, ModelSet.schema_of_forSchema hwf hm⟩
  · rintro ⟨hlt, rfl⟩
    obtain ⟨before, after, hsplit, -⟩ :=
      List.lookup_eq_some_iff.mp (ModelSet.forSchema_schema hwf hlt)
    simp [hsplit]

/-- Each index is handed out once. -/
theorem indices_of_bySchema (hschemas : (set.bySchema.map (·.1)).Nodup)
    (hbySchema : ∀ schema m,
      (schema, m) ∈ set.bySchema ↔ m < set.models.size ∧ (set.model m).schema = schema) :
    (set.bySchema.map (·.2)).Perm (List.range set.models.size) := by
  have hnodup : (set.bySchema.map (·.2)).Nodup := by
    refine (List.Nodup.of_map _ hschemas).map_on fun first hfirst second hsecond heq => ?_
    have hfirst' := ((hbySchema first.1 first.2).mp hfirst).2
    have hsecond' := ((hbySchema second.1 second.2).mp hsecond).2
    exact Prod.ext (hfirst'.symm.trans (heq ▸ hsecond')) heq
  refine (List.perm_ext_iff_of_nodup hnodup List.nodup_range).mpr fun m => ?_
  rw [List.mem_range, List.mem_map]
  constructor
  · rintro ⟨⟨schema, index⟩, hmem, rfl⟩
    exact ((hbySchema schema index).mp hmem).1
  · intro hlt
    exact ⟨_, (hbySchema _ m).mpr ⟨hlt, rfl⟩, rfl⟩

theorem tags_of_wellFormed (hwf : set.arena.WellFormed doc .standard doc.Reached) {m : ModelId}
    {alternatives : List Ty} {discriminator : Option Discriminator} {tags : Keyed Nat}
    (hshape : (set.model m).shape = .union alternatives discriminator tags) :
    ∀ tag ∈ tags, tag.2 < alternatives.length := by
  obtain ⟨found, -, heq⟩ := ModelSet.isUnion_model hwf hshape
  cases hshape.symm.trans heq
  exact fun tag hmem => ModelSet.lt_length_of_mem_tagsOf (by simp) hmem

/-- The tables of a compiled set fit together, and its roots are the named schemas of the document
in their order. Nothing beyond the set is read in decoding, naming or viewing what is in it. -/
theorem compile_selfContained (hloaded : doc.Loaded) (h : doc.compile = .ok set) :
    set.SelfContained ∧ List.Forall₂ (doc.IsRoot set.forSchema) doc.named set.roots ∧
      ∀ larger, set.Extends larger → set.ReadsAlike larger := by
  have hdistinct := hloaded.distinctNames
  have hfields := compile_distinctFields hdistinct.properties h
  have hwf := compile_wellFormed h
  obtain ⟨state, hnoted, hfinish⟩ := exists_noted hdistinct.named h
  have hlinked := hnoted.linked
  obtain ⟨hmemo, hroots, hanchors, hslots⟩ := finish_tables hfinish
  have hsize : set.models.size = state.slots.size := by rw [← hslots, Array.size_map]
  have hbySchema := bySchema_of_finish hlinked hwf hmemo
  have hschemas : (set.bySchema.map (·.1)).Nodup := hmemo ▸ hlinked.schemas
  have hset : set.SelfContained :=
    { schemas := hschemas
      indices := indices_of_bySchema hschemas hbySchema
      bySchema := hbySchema
      types := by
        intro m hlt type hmem
        have hslot : state.slots[m]? = some (some (set.model m)) := by
          rw [← hslots]
          exact ModelSet.slots_arena_iff.mpr ⟨hlt, rfl⟩
        exact knows_of_finish hanchors hsize (hlinked.types hslot type hmem)
      roots := by
        intro root hmem type heq
        exact knows_of_finish hanchors hsize (hnoted.known root (hroots ▸ hmem) type heq)
      variants := by
        rw [hanchors, hsize]
        exact hlinked.variants
      tags := fun _ _ _ _ hshape => tags_of_wellFormed hwf hshape
      fields := hfields }
  exact ⟨hset, compile_roots hdistinct.named h, fun larger => hset.readsAlike⟩

/-! ## A set with an anchor -/

/-- A document as a value: dogs that have a list of animals for friends, where an animal is only
known by its kind, and guests told apart by their kind. -/
def shelterValue : Json :=
  .obj [
    ("openapi", .str "3.0.3"),
    ("components", .obj [("schemas", .obj [
      ("Animal", .obj [("discriminator", .obj [
        ("propertyName", .str "kind"),
        ("mapping", .obj [("dog", .str "#/components/schemas/Dog")])])]),
      ("Dog", .obj [("properties", .obj [
        ("kind", .obj [("type", .str "string")]),
        ("friends", .obj [
          ("type", .str "array"),
          ("items", .obj [("$ref", .str "#/components/schemas/Animal")])])])]),
      ("Guest", .obj [
        ("oneOf", .arr [.obj [("$ref", .str "#/components/schemas/Dog")]]),
        ("discriminator", .obj [
          ("propertyName", .str "kind"),
          ("mapping", .obj [("dog", .str "#/components/schemas/Dog")])])])])])]

/-- The discriminator of animals and of guests. -/
def shelterKind : Discriminator where
  property := "kind"
  mapping := some [("dog", "#/components/schemas/Dog")]

/-- The document of `shelterValue`. -/
def shelter : Document where
  dialect := .openApi30
  schemas := #[
    { dialect := .openApi30, identity := some "Animal", discriminator := some shelterKind },
    { dialect := .openApi30, identity := some "Dog"
      properties := [("kind", { id := 3 }), ("friends", { id := 4 })] },
    { dialect := .openApi30, identity := some "Guest", discriminator := some shelterKind
      oneOf := [{ id := 1, reference := some "#/components/schemas/Dog" }] },
    { dialect := .openApi30, identity := some "Dog.kind", type := some .string },
    { dialect := .openApi30, identity := some "Dog.friends", type := some .array
      items := some { id := 0, reference := some "#/components/schemas/Animal" } }]
  named := [("Animal", 0), ("Dog", 1), ("Guest", 2)]

/-- The models of `shelter`. -/
def shelterModels : ModelSet where
  models := #[
    { name := "Dog", schema := 1
      shape := .object [
        { name := "kind", type := .literal "dog" },
        { name := "friends", type := .array (.anchor 0) }] },
    { name := "Guest", schema := 2, shape := .union [.model 0] (some shelterKind) [("dog", 0)] }]
  bySchema := [(2, 1), (1, 0)]
  roots := [("Animal", none), ("Dog", some (.model 0)), ("Guest", some (.model 1))]
  anchors := [(0, { name := "Animal", variants := [0] })]

/-- The set refers to an anchor from a list, to a model from a tag, and is self-contained. -/
theorem shelter_selfContained :
    ofJson shelterValue = .ok shelter ∧ shelter.compile = .ok shelterModels ∧
      shelterModels.SelfContained ∧
      List.Forall₂ (shelter.IsRoot shelterModels.forSchema) shelter.named shelterModels.roots ∧
      ∀ larger, shelterModels.Extends larger → shelterModels.ReadsAlike larger := by
  have hload : ofJson shelterValue = .ok shelter := by cbv
  have hcompile : shelter.compile = .ok shelterModels := by rfl
  exact ⟨hload, hcompile, compile_selfContained (.inl ⟨_, hload⟩) hcompile⟩

end Document
end OpenApi
