-- SUMMARY: A steady document that compiles is sound, and its model set holds all it asks for.
import OpenApi.Proofs.Compilation.Passes

/-!
# Complete model sets

A model set is `Complete` if it holds the models and anchors that its document asks for,
each as its schema describes it, and no others. Nothing in this speaks of the order in
which they were built. What has been built can also be built, so a document that compiles
is sound.
-/

namespace OpenApi

open Relation (ReflTransGen TransGen)

/-- A set holds what its document asks for: models as their schemas look in a context in which
they may be built, anchors with the variants that their mappings give them, and the types of
the named schemas. -/
structure ModelSet.Complete (set : ModelSet) (doc : Document) : Prop where
  forSchema_iff : ∀ id, (∃ m, set.forSchema id = some m) ↔ doc.IsModel id ∧ doc.Asked id
  schema : ∀ {id m}, set.forSchema id = some m →
    m < set.models.size ∧ (set.model m).schema = id
  forSchema_schema : ∀ {m}, m < set.models.size → set.forSchema (set.model m).schema = some m
  name : ∀ {m}, m < set.models.size → ∀ name,
    (doc.schema (set.model m).schema).title.or (doc.schema (set.model m).schema).identity =
      some name → (set.model m).name = name
  shape : ∀ {m}, m < set.models.size → ∃ context, doc.Builds context (set.model m).schema ∧
    Depicts doc .standard set.forSchema context (set.model m).schema (set.model m).shape
  anchor_iff : ∀ id, (∃ anchor, set.anchor id = some anchor) ↔
    (doc.schema id).isAnchor = true ∧ doc.Asked id
  anchor : ∀ {id anchor}, set.anchor id = some anchor → anchor.name = (doc.schema id).label ∧
    HasVariants doc .standard set.forSchema id anchor.variants
  roots : List.Forall₂ (doc.IsRoot set.forSchema) doc.named set.roots

variable {doc : Document} {registry : Registry} {models : ModelTable}

/-! ## Merged fields -/

/-- The fields of an object that has members have different names. -/
theorem HasFields.nodup_of_allOf {law : PropertyLaw} {id : SchemaId} {fields : List Field}
    (h : HasFields doc law id fields) (hne : (doc.schema id).allOf ≠ []) :
    (fields.map (·.name)).Nodup := by
  cases h with
  | plain hnone => exact absurd (Schema.allOf_of_none hnone) hne
  | merged _ _ _ hmerges =>
      rw [map_name_requireOwn]
      exact hmerges.nodup

/-- Properties of one name that are merged have one type. -/
theorem HasFields.eq_of_holds {context : Context} {id : SchemaId} {fields : List Field}
    (h : HasFields doc (IsField doc registry models context) id fields)
    (hne : (doc.schema id).allOf ≠ []) {name : String} {edge edge' : Edge}
    (hholds : doc.Holds id name edge) (hholds' : doc.Holds id name edge') :
    ∃ type, HasFieldType doc registry models context name edge type ∧
      HasFieldType doc registry models context name edge' type := by
  obtain ⟨_, made, hmade, field, hfield, hname, htype⟩ := h.covers hholds
  obtain ⟨_, made', hmade', field', hfield', hname', htype'⟩ := h.covers hholds'
  have hsame : field = field' := by
    apply List.inj_on_of_nodup_map (h.nodup_of_allOf hne) hfield hfield'
    rw [hname, hname', congrArg Field.name hmade.rest, congrArg Field.name hmade'.rest]
  subst hsame
  exact ⟨made.type, hmade.type, htype.symm.trans htype' ▸ hmade'.type⟩

/-- Members of members come to an end too. -/
theorem acc_of_includes {owner part : SchemaId}
    (h : Acc (fun member owner => doc.Includes owner member) owner)
    (hwalk : ReflTransGen doc.Includes owner part) :
    Acc (fun member owner => doc.Includes owner member) part := by
  induction hwalk with
  | refl => exact h
  | tail _ hstep ih => exact ih.inv hstep

namespace Document

variable {state : Compilation} {set : ModelSet} {id : SchemaId}

/-! ## Soundness -/

/-- A model that has been asked for is built, as its schema looks in any of its contexts. -/
theorem Answers.exists_model (h : doc.Answers state) (hasked : doc.Asked id)
    (hmodel : doc.IsModel id) :
    ∃ m model, state.model? id = some m ∧ state.slots[m]? = some (some model) ∧
      model.schema = id := by
  obtain ⟨type, htype, -⟩ := h.met id hasked
  obtain ⟨m, hm, -⟩ := htype.of_isModel hmodel
  obtain ⟨model, hslot, hschema⟩ := h.between.closed.exists_model hm
  exact ⟨m, model, hm, hslot, hschema⟩

theorem Answers.exists_fields (h : doc.Answers state) (hsteady : doc.Steady) {context : Context}
    (hbuilds : doc.Builds context id) (hobject : doc.IsObject id) :
    ∃ fields, HasFields doc (IsField doc .standard state.model? context) id fields := by
  obtain ⟨m, model, -, hslot, rfl⟩ := h.exists_model hbuilds.asked hobject.model
  obtain ⟨built, hbuilt, hdepicts, -⟩ := (h.between.rested.ready.built hslot).shape
  have hdepicts' := hdepicts.of_alike hobject.model fun name edge _ hholds =>
    hsteady built context _ name edge hobject hbuilt hbuilds hholds
  generalize model.shape = shape at hdepicts'
  cases hdepicts' with
  | union hne => exact absurd hobject.alternatives hne
  | object _ hfields => exact ⟨_, hfields⟩

/-- The schemas of models, which are the models of a table without other indices. -/
theorem Answers.exists_schemas (h : doc.Answers state) :
    ∃ back : ModelId → SchemaId,
      ModelTable.Renames (fun id => id) back state.model? some := by
  refine ⟨fun m => ((state.slots[m]?.join).map (·.schema)).getD 0, fun id m hm => ?_⟩
  obtain ⟨model, hslot, rfl⟩ := h.between.closed.exists_model hm
  have hslot' : state.slots[m]? = some (some model) := hslot
  simp [hslot']

/-- What has been answered shows that the document is sound. -/
theorem Answers.sound (h : doc.Answers state) (hsteady : doc.Steady) : doc.Sound .standard where
  types := by
    intro id hasked
    obtain ⟨type, htype, -⟩ := h.met id hasked
    obtain ⟨own, hown, -⟩ := htype.exists_own
    exact ⟨own, hown⟩
  targets := by
    intro id tag target hasked hanchor hentry
    obtain ⟨type, htype, hanswered⟩ := h.met id hasked
    cases htype.of_isAnchor hanchor
    obtain ⟨anchor, hmem⟩ := Compilation.isSome_anchor?_iff.mp hanswered
    obtain ⟨variant, hresolve, -⟩ := (h.between.rested.finished _ hmem).targets _ hentry
    exact ⟨variant, hresolve⟩
  members := by
    intro id part hasked hobject hwalk
    obtain ⟨m, model, -, hslot, rfl⟩ := h.exists_model hasked hobject.model
    have hbuilt := h.between.rested.ready.built hslot
    refine ⟨?_, hbuilt.mergeable hobject part hwalk⟩
    obtain ⟨context, hcontext, -⟩ := hbuilt.shape
    obtain ⟨fields, hfields⟩ := h.exists_fields hsteady hcontext hobject
    exact not_transGen_includes (acc_of_includes hfields.acc hwalk)
  fields := by
    intro context id name edge hbuilds hobject hholds
    obtain ⟨fields, hfields⟩ := h.exists_fields hsteady hbuilds hobject
    obtain ⟨schema, made, hmade, -⟩ := hfields.covers hholds
    obtain ⟨own, hown, -⟩ := hmade.type.exists_own
    exact ⟨own, hown⟩
  agree := by
    intro context id name edge edge' type type' hbuilds hobject hne hholds hholds' htype htype'
    obtain ⟨fields, hfields⟩ := h.exists_fields hsteady hbuilds hobject
    obtain ⟨built, hbuilt, hbuilt'⟩ := hfields.eq_of_holds hne hholds hholds'
    obtain ⟨back, hback⟩ := h.exists_schemas
    have hself := Renames.refl doc
    exact (htype.unique (hbuilt.rename hself hback)).trans
      (htype'.unique (hbuilt'.rename hself hback)).symm

/-! ## Complete sets -/

theorem Answers.complete (hnames : doc.named.keys.Nodup) (hanswers : doc.Answers state)
    (hfinish : state.finish doc = .ok set) (h : doc.compile = .ok set) : set.Complete doc := by
  obtain ⟨hmemo, -, hanchors, hslots⟩ := finish_tables hfinish
  have hwf := compile_wellFormed h
  have hforSchema : set.forSchema = state.model? := by
    funext id
    rw [ModelSet.forSchema, hmemo]
    rfl
  have hanchor (id : SchemaId) : set.anchor id = state.anchor? id := by
    rw [ModelSet.anchor, hanchors]
    rfl
  have hready := hanswers.between.rested.ready
  have hslot {m : ModelId} (hlt : m < set.models.size) :
      state.slots[m]? = some (some (set.model m)) := by
    rw [← hslots]
    exact ModelSet.slots_arena_iff.mpr ⟨hlt, rfl⟩
  have hschema {id : SchemaId} {m : ModelId} (hm : set.forSchema id = some m) :
      m < set.models.size ∧ (set.model m).schema = id :=
    ⟨ModelSet.lt_size_of_forSchema hwf hm, ModelSet.schema_of_forSchema hwf hm⟩
  have hshape {m : ModelId} (hlt : m < set.models.size) :
      ∃ context, doc.Builds context (set.model m).schema ∧
        Depicts doc .standard set.forSchema context (set.model m).schema (set.model m).shape := by
    obtain ⟨context, hbuilds, hdepicts, -⟩ := (hready.built (hslot hlt)).shape
    exact ⟨context, hbuilds, hforSchema ▸ hdepicts⟩
  refine
    { forSchema_iff := ?_
      schema := hschema
      forSchema_schema := fun hlt => ModelSet.forSchema_schema hwf hlt
      name := fun hlt _ => ModelSet.name_model hwf hlt
      shape := hshape
      anchor_iff := ?_
      anchor := ?_
      roots := compile_roots hnames h }
  · intro id
    constructor
    · rintro ⟨m, hm⟩
      obtain ⟨context, hbuilds, -⟩ := hshape (hschema hm).1
      rw [(hschema hm).2] at hbuilds
      exact ⟨hready.isModel (hforSchema ▸ hm), hbuilds.asked⟩
    · rintro ⟨hmodel, hasked⟩
      obtain ⟨m, -, hm, -⟩ := hanswers.exists_model hasked hmodel
      exact ⟨m, hforSchema ▸ hm⟩
  · intro id
    rw [hanchor, ← Option.isSome_iff_exists]
    constructor
    · intro hsome
      obtain ⟨anchor, hmem⟩ := Compilation.isSome_anchor?_iff.mp hsome
      exact ⟨(hready.anchors _ hmem).1, (hready.anchors _ hmem).2.1⟩
    · rintro ⟨his, hasked⟩
      obtain ⟨type, htype, hanswered⟩ := hanswers.met id hasked
      cases htype.of_isAnchor his
      exact hanswered
  · intro id anchor hsome
    have hmem : (id, anchor) ∈ state.anchors := by
      rw [hanchor] at hsome
      obtain ⟨before, after, hsplit, -⟩ := List.lookup_eq_some_iff.mp hsome
      simp [hsplit]
    exact ⟨(hready.anchors _ hmem).2.2,
      hforSchema ▸ (hanswers.between.rested.finished _ hmem).variants⟩

/-- A steady document that compiles is sound, and its set is complete. -/
theorem compile_complete (hnames : doc.named.keys.Nodup) (hsteady : doc.Steady)
    (h : doc.compile = .ok set) : doc.Sound .standard ∧ set.Complete doc := by
  obtain ⟨state, hanswers, hfinish⟩ := exists_answers hnames hsteady h
  exact ⟨hanswers.sound hsteady, hanswers.complete hnames hfinish h⟩

end Document
end OpenApi
