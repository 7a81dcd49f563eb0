-- SUMMARY: Whether the variant that a tag selects accepts the tag.
import OpenApi.Proofs.Compilation.Result
import OpenApi.Proofs.Decoding.Contract
import OpenApi.Proofs.Model.FieldTypes

/-!
# Tags and narrowed fields

A union routes a value by all tags of its mapping. The property that holds the tag is
narrowed to one of them where the variant is built: by the outermost discriminator of
that name on the way to the variant, to the first tag that it maps to something on
that way. A variant is built once. So it accepts the tag that a union routes to it
only if the way on which it was built narrows the property to that very tag, or does
not narrow it at all.
-/

namespace OpenApi

/-! ## Routing -/

namespace ModelSet

variable (set : ModelSet)

/-- Some union goes on with a variant where it finds a tag under a property. -/
inductive Routes : String → String → ModelId → Prop where
  | tagged {union variant : ModelId} {alternatives : List Ty}
      {discriminator : Option Discriminator} {tags : Keyed Nat} {selector : Discriminator}
      {tag : String} {index : Nat} :
      (set.model union).shape = .union alternatives discriminator tags →
        (set.model union).taggedBy = some selector → (tag, index) ∈ tags →
        alternatives[index]? = some (.model variant) → Routes selector.property tag variant

/-- A variant that declares the property of a tag that routes to it accepts the tag there. -/
def AcceptsTags : Prop :=
  ∀ property tag variant field, set.Routes property tag variant →
    (set.model variant).field property = some field → set.Accepts field.type (.str tag)

/-- Each model is what its schema means on its way, and the way leads to the schema. -/
def BuiltOn (doc : Document) (way : ModelId → Context) : Prop :=
  ∀ m < set.models.size, doc.Reached (way m) (set.model m).schema ∧
    HasShape doc .standard set.forSchema (way m) (set.model m).name (set.model m).schema
      (set.model m).shape

end ModelSet

/-! ## Narrowing -/

variable {doc : Document} {registry : Registry}

/-- A narrowed field accepts one tag. Any other has a type that does not depend on the way. -/
theorem Typed.accepts_iff {set : ModelSet} {context : Context} {name tag : String} {type : Ty}
    (h : Typed doc registry set.forSchema context name type) :
    set.Accepts type (.str tag) ↔
      context.narrow name = .ok (some tag) ∨
        (context.narrow name = .ok none ∧
          ∃ edge, HasElementType doc registry set.forSchema edge type ∧
            set.Accepts type (.str tag)) := by
  obtain ⟨edge, hfield⟩ := h
  cases hfield with
  | narrowed hnarrow =>
      simp only [hnarrow, ModelSet.accepts_literal_iff, Json.str.injEq, Except.ok.injEq,
        Option.some.injEq, reduceCtorEq, false_and, or_false]
      exact eq_comm
  | plain hnarrow htype =>
      simp only [hnarrow, Except.ok.injEq, reduceCtorEq, true_and, false_or]
      constructor
      · intro haccepts
        exact ⟨edge, htype, haccepts⟩
      · intro h
        obtain ⟨-, -, haccepts⟩ := h
        exact haccepts

/-- The type of a declared field comes from the way on which its model was built. -/
theorem ModelSet.BuiltOn.typed {set : ModelSet} {way : ModelId → Context} {m : ModelId}
    {name : String} {field : Field} (hway : set.BuiltOn doc way)
    (hfield : (set.model m).field name = some field) :
    Typed doc .standard set.forSchema (way m) name field.type := by
  have hmem := List.mem_of_find?_eq_some hfield
  have hname : field.name = name := by
    simpa using List.find?_some hfield
  cases hshape : (set.model m).shape with
  | union => simp [Model.fields, hshape] at hmem
  | object fields =>
      -- A model that is not there has no fields.
      have hlt : m < set.models.size := by
        apply Nat.lt_of_not_le
        intro hge
        simp [Model.fields, shape_of_size_le hge] at hmem
      obtain ⟨-, hobject⟩ := hway m hlt
      rw [hshape] at hobject
      exact hname ▸ hobject.typed field (by simpa [Model.fields, hshape] using hmem)

namespace Document

/-- A discriminator that maps two tags to one schema. -/
def kinds : Discriminator where
  property := "kind"
  mapping := some [("dog", "#/components/schemas/Dog"), ("puppy", "#/components/schemas/Dog")]

/-- A union of one variant that two tags are mapped to. -/
def twoTags : Document where
  dialect := .openApi30
  schemas := #[
    { dialect := .openApi30, identity := some "Dog", type := some .object
      properties := [("kind", { id := 2 })] },
    { dialect := .openApi30, identity := some "Pet"
      oneOf := [{ id := 0, reference := some "#/components/schemas/Dog" }]
      discriminator := some kinds },
    { dialect := .openApi30, identity := some "Dog.kind", type := some .string }]
  named := [("Dog", 0), ("Pet", 1)]

/-- The models of `twoTags`. -/
def twoTagsModels : ModelSet where
  models := #[
    { name := "Pet", schema := 1
      shape := .union [.model 1] (some kinds) [("dog", 0), ("puppy", 0)] },
    { name := "Dog", schema := 0
      shape := .object [{ name := "kind", type := .literal "dog" }] }]
  bySchema := [(0, 1), (1, 0)]
  roots := [("Dog", some (.model 1)), ("Pet", some (.model 0))]

theorem twoTags_compile : twoTags.compile = .ok twoTagsModels := rfl

/-- Both tags route to the variant, and it accepts the first of them. -/
private theorem twoTagsModels_not_acceptsTags : ¬ twoTagsModels.AcceptsTags := by
  intro h
  have hmem : ("puppy", 0) ∈ [("dog", 0), ("puppy", 0)] := List.mem_cons_of_mem _ List.mem_cons_self
  have hroutes : twoTagsModels.Routes kinds.property "puppy" 1 :=
    @ModelSet.Routes.tagged _ 0 1 [.model 1] _ _ kinds _ _ rfl rfl hmem rfl
  have htag : "puppy" = "dog" :=
    Json.str.inj (ModelSet.accepts_literal_iff.mp (h _ _ _ _ hroutes rfl))
  exact absurd htag (by decide)

/-- The models of a compiled set were built on some ways, one for each. The variants accept the tags
that route to them exactly if each of these ways narrows the property to the tag, or does not narrow
it and the property has a type that accepts the tag. -/
theorem compile_acceptsTags {set : ModelSet} (h : doc.compile = .ok set) :
    (∃ way, set.BuiltOn doc way) ∧
    ∀ way, set.BuiltOn doc way →
      (set.AcceptsTags ↔ ∀ property tag variant field, set.Routes property tag variant →
        (set.model variant).field property = some field →
          (way variant).narrow property = .ok (some tag) ∨
            ((way variant).narrow property = .ok none ∧
              ∃ edge, HasElementType doc .standard set.forSchema edge field.type ∧
                set.Accepts field.type (.str tag))) := by
  have hwf := compile_wellFormed h
  refine ⟨?_, fun way hway => ?_⟩
  · -- Models that are not there were built on no way in particular.
    have hbuilt (m : ModelId) : ∃ context, m < set.models.size →
        doc.Reached context (set.model m).schema ∧
          HasShape doc .standard set.forSchema context (set.model m).name (set.model m).schema
            (set.model m).shape := by
      by_cases hlt : m < set.models.size
      · obtain ⟨context, hmeans⟩ := ModelSet.means_model hwf hlt
        exact ⟨context, fun _ => hmeans⟩
      · exact ⟨{}, fun hlt' => absurd hlt' hlt⟩
    exact Classical.skolem.mp hbuilt
  · constructor
    · intro haccepts property tag variant field hroutes hfield
      have hfits := haccepts property tag variant field hroutes hfield
      exact (hway.typed hfield).accepts_iff.mp hfits
    · intro hnarrow property tag variant field hroutes hfield
      have hfits := hnarrow property tag variant field hroutes hfield
      exact (hway.typed hfield).accepts_iff.mpr hfits

/-- On no way on which the models can have been built are all properties narrowed to the tags that
route to their variants. -/
theorem twoTags_narrow :
    (∃ way, twoTagsModels.BuiltOn twoTags way) ∧
    ∀ way, twoTagsModels.BuiltOn twoTags way →
      ∃ property tag variant, twoTagsModels.Routes property tag variant ∧
        (way variant).narrow property ≠ .ok (some tag) := by
  obtain ⟨hbuilt, hiff⟩ := compile_acceptsTags twoTags_compile
  refine ⟨hbuilt, fun way hway => Classical.byContradiction fun hnone => ?_⟩
  apply twoTagsModels_not_acceptsTags
  refine (hiff way hway).mpr fun property tag variant field hroutes _ => ?_
  exact .inl (Classical.byContradiction fun hne => hnone ⟨property, tag, variant, hroutes, hne⟩)

/-- Not every variant of a compiled set accepts the tags that route to it. -/
theorem twoTags_refuses :
    ∃ set, twoTags.compile = .ok set ∧ ¬ set.AcceptsTags :=
  ⟨twoTagsModels, twoTags_compile, twoTagsModels_not_acceptsTags⟩

end Document
end OpenApi
