-- SUMMARY: What a compiled model set is: the arena of its models is well-formed.
import OpenApi.Proofs.Compilation.Build
import OpenApi.Proofs.Except

/-!
# Compiled model sets

A compilation that succeeds ends with every slot filled, and the model set is its
arena. So what the arena keeps while it is built holds of the models of the set.
-/

namespace OpenApi

/-! ## The arena of a model set -/

namespace ModelSet

/-- The models of a set with their indices; no schema is open any more. -/
def arena (set : ModelSet) : Arena :=
  { models := set.forSchema, slots := set.models.map some }

theorem slots_arena (set : ModelSet) (m : ModelId) :
    set.arena.slots[m]? = if m < set.models.size then some (some (set.model m)) else none := by
  simp only [arena, Array.getElem?_map]
  split
  · rename_i hlt
    simp [model, hlt]
  · rename_i hle
    simp [Array.getElem?_eq_none (Nat.le_of_not_lt hle)]

theorem slots_arena_iff {set : ModelSet} {m : ModelId} {model : Model} :
    set.arena.slots[m]? = some (some model) ↔ m < set.models.size ∧ set.model m = model := by
  rw [slots_arena]
  split <;> simp [*]

theorem lt_length_of_mem_tagsOf {doc : Document} {mapping : Keyed String} {members : List Edge}
    {types : List Ty} (hlen : types.length = members.length) {tag : String} {index : Nat}
    (h : (tag, index) ∈ tagsOf doc mapping members) : index < types.length := by
  obtain ⟨⟨tag', target⟩, -, hplace⟩ := List.mem_filterMap.mp h
  obtain ⟨place, hplace, heq⟩ := Option.map_eq_some_iff.mp hplace
  cases heq
  obtain ⟨hlt, -⟩ := List.findIdx?_eq_some_iff_getElem.mp hplace
  exact hlen ▸ hlt

section Laws

variable {doc : Document} {registry : Registry} {reach : Context → SchemaId → Prop}
variable {set : ModelSet} (hwf : set.arena.WellFormed doc registry reach)
include hwf

theorem lt_size_of_forSchema {id : SchemaId} {m : ModelId} (hm : set.forSchema id = some m) :
    m < set.models.size := by
  have hbound : m < (set.models.map some).size := hwf.bound hm
  rwa [Array.size_map] at hbound

theorem forSchema_schema {m : ModelId} (hlt : m < set.models.size) :
    set.forSchema (set.model m).schema = some m :=
  hwf.owner (slots_arena_iff.mpr ⟨hlt, rfl⟩)

theorem schema_of_forSchema {id : SchemaId} {m : ModelId} (hm : set.forSchema id = some m) :
    (set.model m).schema = id :=
  hwf.distinct (forSchema_schema hwf (lt_size_of_forSchema hwf hm)) hm

/-- Each model is what its schema means in some context in which the schema can be reached. -/
theorem means_model {m : ModelId} (hlt : m < set.models.size) :
    ∃ context, reach context (set.model m).schema ∧
      HasShape doc registry set.forSchema context (set.model m).name (set.model m).schema
        (set.model m).shape :=
  (hwf.means (slots_arena_iff.mpr ⟨hlt, rfl⟩)).shape

/-- A model has the name of its schema, if that has one. -/
theorem name_model {m : ModelId} (hlt : m < set.models.size) {name : String}
    (hname : (doc.schema (set.model m).schema).title.or
      (doc.schema (set.model m).schema).identity = some name) : (set.model m).name = name :=
  (hwf.means (slots_arena_iff.mpr ⟨hlt, rfl⟩)).name name hname

/-- A union in the set is the union that its schema makes. -/
theorem isUnion_model {m : ModelId} {alternatives : List Ty}
    {discriminator : Option Discriminator} {tags : Keyed Nat}
    (hshape : (set.model m).shape = .union alternatives discriminator tags) :
    IsUnion doc registry set.forSchema (doc.schema (set.model m).schema) (set.model m).shape := by
  have hlt : m < set.models.size := by
    apply Nat.lt_of_not_le
    intro hge
    cases hshape.symm.trans (shape_of_size_le hge)
  obtain ⟨context, -, hmeans⟩ := means_model hwf hlt
  cases hcomb : (doc.schema (set.model m).schema).combination <;>
    simp only [HasShape, hcomb, hshape] at hmeans
  case allOf | none =>
    obtain ⟨fields, -, heq⟩ := hmeans
    cases heq
  case anyOf | oneOf => simpa only [hshape] using hmeans

theorem anchor_notMem_alternatives (m : ModelId) (schema : SchemaId) :
    .anchor schema ∉ (set.model m).shape.alternatives := by
  intro hmem
  cases hshape : (set.model m).shape with
  | object fields => simp [hshape, Shape.alternatives] at hmem
  | union alternatives discriminator tags =>
      obtain ⟨found, hfound, heq⟩ := isUnion_model hwf hshape
      rw [heq] at hmem
      obtain ⟨⟨edge, type⟩, hentry, rfl⟩ := List.mem_map.mp hmem
      exact (hfound.hasType hentry).2.not_anchor schema rfl

/-- Tags are places of members that have a type, and so of alternatives. -/
theorem tagsInRange : set.TagsInRange := by
  intro m alternatives discriminator tags hshape tag index htag
  obtain ⟨found, -, heq⟩ := isUnion_model hwf hshape
  cases hshape.symm.trans heq
  obtain ⟨before, after, hsplit, -⟩ := List.lookup_eq_some_iff.mp htag
  have hmem : (tag, index) ∈ tagsOf doc (doc.schema (set.model m).schema).mapping
      (found.map (·.1)) := by
    rw [hsplit]
    exact List.mem_append_right _ List.mem_cons_self
  exact lt_length_of_mem_tagsOf (by simp) hmem

end Laws
end ModelSet

/-! ## Finishing -/

variable {doc : Document}

namespace Compilation

/-- Models are found only where every slot is filled. -/
theorem modelsOf_eq_ok {memo : List (SchemaId × ModelId)} {slots : List (Option Model)}
    {place : Nat} {models : List Model} (h : modelsOf doc memo place slots = .ok models) :
    slots = models.map some := by
  induction slots generalizing place models with
  | nil =>
      cases h
      rfl
  | cons slot rest ih =>
      cases slot with
      | none => cases h
      | some model =>
          simp only [modelsOf] at h
          cases hrest : modelsOf doc memo (place + 1) rest with
          | error error =>
              rw [hrest] at h
              cases h
          | ok models' =>
              rw [hrest] at h
              cases h
              rw [ih hrest, List.map_cons]

theorem arena_finish {state : Compilation} {set : ModelSet} (h : state.finish doc = .ok set) :
    set.arena = state.arena := by
  cases hmodels : modelsOf doc state.memo 0 state.slots.toList with
  | error error =>
      simp only [finish, hmodels] at h
      cases h
  | ok models =>
      simp only [finish, hmodels] at h
      cases h
      simp only [arena, ModelSet.arena, Arena.mk.injEq]
      refine ⟨rfl, ?_⟩
      rw [List.map_toArray, ← modelsOf_eq_ok hmodels, Array.toArray_toList]

end Compilation

/-! ## A whole compilation -/

namespace Document

variable (doc) (reach : Context → SchemaId → Prop)

/-- A compilation between two schemas: what is built is well-formed, and nothing is open. -/
structure Closed (state : Compilation) : Prop where
  wellFormed : state.arena.WellFormed doc .standard reach
  built : ∀ id, ¬ state.arena.Open id
  covers : ∀ id, (state.anchor? id).isSome = true → Covers doc state.arena.models id

/-- A schema has been asked for: it has a model if it gets one, and the variants of an anchor have
models. -/
structure Seen (models : ModelTable) (id : SchemaId) : Prop where
  model : doc.IsModel id → ∃ m, models id = some m
  covers : (doc.schema id).isAnchor = true → Covers doc models id

variable {doc reach}

theorem Seen.mono {models models' : ModelTable} {id : SchemaId} (h : doc.Seen models id)
    (hle : models.Le models') : doc.Seen models' id where
  model := by
    intro hmodel
    obtain ⟨m, hm⟩ := h.model hmodel
    exact ⟨m, hle id m hm⟩
  covers := fun hanchor => (h.covers hanchor).mono hle

theorem Closed.imp {reach' : Context → SchemaId → Prop} {state : Compilation}
    (h : doc.Closed reach state) (himp : ∀ context id, reach context id → reach' context id) :
    doc.Closed reach' state :=
  ⟨h.wellFormed.imp himp, h.built, h.covers⟩

/-- A schema that has been asked for between two others has a model that is built. -/
theorem Closed.exists_model {reach : Context → SchemaId → Prop} {state : Compilation}
    (h : doc.Closed reach state) {id : SchemaId} {m : ModelId}
    (hm : state.arena.models id = some m) :
    ∃ model, state.arena.slots[m]? = some (some model) ∧ model.schema = id := by
  have hlt := h.wellFormed.bound hm
  cases hslot : state.arena.slots[m] with
  | none => exact absurd ⟨m, hm, by rw [Array.getElem?_eq_getElem hlt, hslot]⟩ (h.built id)
  | some model =>
      have hslot' : state.arena.slots[m]? = some (some model) := by
        rw [Array.getElem?_eq_getElem hlt, hslot]
      exact ⟨model, hslot', h.wellFormed.distinct (h.wellFormed.owner hslot') hm⟩

theorem closed_start : doc.Closed reach {} where
  wellFormed :=
    { bound := fun h => nomatch h
      distinct := fun h => nomatch h
      isModel := fun h => nomatch h
      owner := fun h => by simp [Compilation.arena] at h
      means := fun h => by simp [Compilation.arena] at h
      rests := by
        intro inner outer h
        obtain ⟨model, id, hslot, -⟩ := h
        simp [Compilation.arena] at hslot
      acyclic := by
        intro m h
        obtain ⟨next, ⟨model, id, hslot, -⟩, -⟩ := Relation.TransGen.head'_iff.mp h
        simp [Compilation.arena] at hslot }
  built := by
    intro id h
    obtain ⟨m, hm, -⟩ := h
    cases hm
  covers := fun id h => by cases h

theorem schema_ends (hspreads : doc.Spreads reach) {state : Compilation}
    (h : doc.Closed reach state) {id : SchemaId} (hreached : reach {} id) :
    (Compile.schema doc .standard id).Ends state
      (fun _ after => doc.Closed reach after ∧ state.arena.Grows after.arena ∧
        doc.Seen after.arena.models id)
      fun _ _ => True := by
  -- Nothing is open, so any schema may be asked for.
  have hat : At doc state.arena state.unions id := fun other hopen => absurd hopen (h.built other)
  apply ((requests_sound hspreads doc.depth).type h.wellFormed hat hreached).imp
  intro type after hanswer
  have hcovers {other : SchemaId}
      (hother : (state.anchor? other).isSome = true ∨ Covers doc after.arena.models other) :
      Covers doc after.arena.models other := by
    rcases hother with hanchor | hcovers
    · exact (h.covers other hanchor).mono hanswer.grows.models
    · exact hcovers
  refine ⟨⟨hanswer.wellFormed, ?_, ?_⟩, hanswer.grows, ?_, ?_⟩
  · exact fun other hopen => h.built other ((hanswer.grows.opens other).mp hopen)
  · exact fun other hanchor => hcovers (hanswer.anchors other hanchor)
  · intro hmodel
    obtain ⟨m, hm, -⟩ := hanswer.hasType.of_isModel hmodel
    exact ⟨m, hm⟩
  · exact fun hanchor => hcovers (hanswer.anchored (hanswer.hasType.of_isAnchor hanchor))

theorem named_ends {state : Compilation} (h : doc.Closed doc.Reached state) (name : String) :
    (Compile.named doc .standard name).Ends state
      (fun _ after => doc.Closed doc.Reached after ∧ state.arena.Grows after.arena)
      fun _ _ => True := by
  unfold Compile.named
  split
  · trivial
  · simp only [Compile.ends_bind, Compile.ends_modify, Compile.ends_pure]
    apply (schema_ends doc.reached_spreads h (.start _)).imp
    intro type after hafter
    exact ⟨⟨hafter.1.wellFormed, hafter.1.built, hafter.1.covers⟩, hafter.2.1⟩

/-- A model set is finished from what is left when all named schemas have been compiled. -/
theorem exists_of_compile {set : ModelSet} {ok : Compilation → Prop}
    {fails : Stop SchemaError → Compilation → Prop}
    (hends : doc.compileNamed.Ends {} (fun _ => ok) fails) (h : doc.compile = .ok set) :
    ∃ state, ok state ∧ state.finish doc = .ok set := by
  simp only [Compile.Ends, compile] at hends h
  split at h
  · rename_i state hrun
    rw [hrun] at hends
    exact ⟨state, hends, eq_ok_of_mapError h⟩
  · cases h

section Phases

variable (hspreads : doc.Spreads reach)
variable (hreached : ∀ context id, reach context id → doc.Reached context id)
variable (hroots : ∀ entry ∈ doc.named, (doc.schema entry.2).discriminator.isSome = true →
  reach {} entry.2)
include hspreads hreached hroots

/-- The named schemas with a discriminator are compiled first, and all that is built meanwhile is
reached from them. Nothing of it changes when the others are compiled. -/
theorem compileNamed_ends :
    doc.compileNamed.Ends {}
      (fun _ after => doc.Closed doc.Reached after ∧ ∃ first : Compilation,
        doc.Closed reach first ∧ first.arena.Grows after.arena ∧
        ∀ entry ∈ doc.named, (doc.schema entry.2).discriminator.isSome = true →
          doc.Seen first.arena.models entry.2)
      fun _ _ => True := by
  simp only [compileNamed, Compile.ends_bind]
  refine (Compile.ends_forM (fun done now => doc.Closed reach now ∧
    ∀ entry ∈ done, (doc.schema entry.2).discriminator.isSome = true →
      doc.Seen now.arena.models entry.2) ?_ ⟨closed_start, by simp⟩).imp ?_
  · intro done entry now hmem hnow
    obtain ⟨hclosed, hdone⟩ := hnow
    obtain ⟨name, id⟩ := entry
    simp only [List.forall_mem_append, List.forall_mem_singleton]
    split
    · rename_i hsome
      rw [Compile.ends_discard]
      apply (schema_ends hspreads hclosed (hroots _ hmem hsome)).imp
      intro _ after h
      obtain ⟨hclosed', hgrows, hseen⟩ := h
      exact ⟨hclosed', fun entry hentry hentrySome =>
        (hdone entry hentry hentrySome).mono hgrows.models, fun _ => hseen⟩
    · rename_i hsome
      exact ⟨hclosed, hdone, fun hsome' => absurd hsome' hsome⟩
  · intro _ first h
    obtain ⟨hclosed, hseen⟩ := h
    refine (Compile.ends_forM (fun _ now => doc.Closed doc.Reached now ∧
      first.arena.Grows now.arena) ?_ ⟨hclosed.imp hreached, .refl _⟩).imp ?_
    · intro done entry now _ hnow
      obtain ⟨hclosed', hgrows⟩ := hnow
      rw [Compile.ends_discard]
      apply (named_ends hclosed' entry.1).imp
      intro _ after h
      exact ⟨h.1, hgrows.trans h.2⟩
    · intro _ after h
      exact ⟨h.1, first, hclosed, h.2, hseen⟩

/-- What is built of a model set before schemas without a discriminator are compiled. -/
theorem compile_phases {set : ModelSet} (h : doc.compile = .ok set) :
    set.arena.WellFormed doc .standard doc.Reached ∧ ∃ first : Compilation,
      doc.Closed reach first ∧ first.arena.Grows set.arena ∧
      ∀ entry ∈ doc.named, (doc.schema entry.2).discriminator.isSome = true →
        doc.Seen first.arena.models entry.2 := by
  obtain ⟨state, hstate, hfinish⟩ :=
    exists_of_compile (compileNamed_ends hspreads hreached hroots) h
  rw [Compilation.arena_finish hfinish]
  exact ⟨hstate.1.wellFormed, hstate.2⟩

end Phases

/-- The models of a compiled set are well-formed. -/
theorem compile_wellFormed {set : ModelSet} (h : doc.compile = .ok set) :
    set.arena.WellFormed doc .standard doc.Reached :=
  (compile_phases doc.reached_spreads (fun _ _ => id) (fun entry _ _ => .start entry.2) h).1

end Document
end OpenApi
