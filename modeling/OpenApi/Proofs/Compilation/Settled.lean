-- SUMMARY: What is known of a compilation during a pass, and how a step changes it.
import OpenApi.Proofs.Compilation.Budget
import OpenApi.Proofs.Compilation.Links
import OpenApi.Proofs.Model.Soundness

/-!
# Settled compilations

During a pass over named schemas each model that is built looks as its schema does in a
context of the pass, and all that its schema asks for in that context has been answered.
The same holds of anchors that have their variants. `Ready` says this of a compilation,
and `Leaves` what a step may change: it adds models and anchors, and leaves nothing open
that was not open before.
-/

namespace OpenApi

open Relation (ReflTransGen TransGen)

namespace Compilation

variable (doc : Document) (registry : Registry)

/-! ## Models and anchors -/

/-- A schema has been answered: it has a type, which points into the compilation. -/
def Met (state : Compilation) (id : SchemaId) : Prop :=
  ∃ type, HasType doc registry state.model? id type ∧ Answered id state type

/-- All that the members of an object bring along has been answered or can be merged. -/
structure Gathered (state : Compilation) (context : Context) (id : SchemaId) : Prop where
  met : ∀ name edge, doc.Holds id name edge → context.narrow name = .ok none →
    state.Met doc registry edge.id
  mergeable : ∀ part, ReflTransGen doc.Includes id part → ∀ edge ∈ (doc.schema part).allOf,
    doc.Mergeable edge.id

/-- A model looks as its schema does in a context in which it may be built, and all that is asked
for in that context has been answered. -/
structure Depicted (state : Compilation) (model : Model) : Prop where
  shape : ∃ context, doc.Builds context model.schema ∧
    Depicts doc registry state.model? context model.schema model.shape ∧
    ∀ context' child, doc.Needs context model.schema context' child → state.Met doc registry child
  mergeable : doc.IsObject model.schema → ∀ part, ReflTransGen doc.Includes model.schema part →
    ∀ edge ∈ (doc.schema part).allOf, doc.Mergeable edge.id

/-- An anchor has the variants that the mapping of its schema gives it. -/
structure Finished (state : Compilation) (id : SchemaId) (anchor : Anchor) : Prop where
  variants : HasVariants doc registry state.model? id anchor.variants
  targets : ∀ entry ∈ (doc.schema id).mapping, ∃ variant,
    doc.resolve entry.2 = some variant ∧ state.Met doc registry variant

/-! ## During a pass -/

variable {doc} in
/-- All that is known of a compilation during a pass. -/
structure Ready (pass : doc.Pass) (state : Compilation) : Prop where
  linked : state.Linked
  isModel : ∀ {id m}, state.model? id = some m → doc.IsModel id
  built : ∀ {m : ModelId} {model : Model}, state.slots[m]? = some (some model) →
    state.Depicted doc registry model
  known : ∀ {id}, doc.IsModel id → pass.known id → ∃ m, state.model? id = some m
  merging : ∀ id ∈ state.merging, (doc.schema id).allOf ≠ [] ∧
    ((∃ m, state.model? id = some m) ∨ ∃ owner, doc.Includes owner id)
  anchors : ∀ entry ∈ state.anchors, (doc.schema entry.1).isAnchor = true ∧
    doc.Asked entry.1 ∧ entry.2.name = (doc.schema entry.1).label

/-- What a step may change: it builds models and finishes anchors, and is done with what it has
begun. -/
structure Grown (before after : Compilation) : Prop extends Extends before after where
  models : ModelTable.Le before.model? after.model?
  merging : after.merging = before.merging
  unions : after.unions = before.unions
  filled : ∀ {m : ModelId}, after.slots[m]? = some none → before.slots[m]? = some none
  finished : ∀ entry ∈ after.anchors, entry ∈ before.anchors ∨
    after.Finished doc registry entry.1 entry.2

variable {doc} in
/-- A step during a pass leaves a compilation that is ready again. -/
structure Leaves (pass : doc.Pass) (before after : Compilation) : Prop
    extends Grown doc registry before after where
  ready : after.Ready registry pass

end Compilation

/-! ## More models and anchors -/

variable {doc : Document} {registry : Registry} {pass : doc.Pass}
variable {before after : Compilation} {id : SchemaId}

theorem Answered.mono (hextends : before.Extends after) {type : Option Ty}
    (h : Answered id before type) : Answered id after type := by
  cases type with
  | none => exact hextends.anchors id h
  | some type => exact Compilation.Knows.mono hextends h

namespace Compilation

/-- What was answered in a compilation is answered alike in another. -/
structure Carries (before after : Compilation) : Prop where
  models : ModelTable.Le before.model? after.model?
  answered : ∀ {id type}, Answered id before type → Answered id after type

theorem Extends.carries (h : before.Extends after)
    (hmodels : ModelTable.Le before.model? after.model?) : before.Carries after :=
  ⟨hmodels, (·.mono h)⟩

section Mono

variable (hcarries : before.Carries after)
include hcarries

theorem Met.mono (h : before.Met doc registry id) : after.Met doc registry id := by
  obtain ⟨type, htype, hanswered⟩ := h
  exact ⟨type, htype.mono hcarries.models, hcarries.answered hanswered⟩

theorem Gathered.mono {context : Context} (h : before.Gathered doc registry context id) :
    after.Gathered doc registry context id :=
  ⟨fun name edge hholds hnone => (h.met name edge hholds hnone).mono hcarries,
    h.mergeable⟩

theorem Depicted.mono {model : Model} (h : before.Depicted doc registry model) :
    after.Depicted doc registry model where
  shape := by
    obtain ⟨context, hbuilds, hdepicts, hneeds⟩ := h.shape
    exact ⟨context, hbuilds, hdepicts.mono hcarries.models,
      fun context' child hchild => (hneeds context' child hchild).mono hcarries⟩
  mergeable := h.mergeable

theorem Finished.mono {anchor : Anchor} (h : before.Finished doc registry id anchor) :
    after.Finished doc registry id anchor where
  variants := h.variants.mono hcarries.models
  targets := by
    intro entry hmem
    obtain ⟨variant, hresolve, hmet⟩ := h.targets entry hmem
    exact ⟨variant, hresolve, hmet.mono hcarries⟩

end Mono

theorem Grown.carries (h : before.Grown doc registry after) : before.Carries after :=
  h.toExtends.carries h.models

/-- Members bring along what their own members do, and their own properties. -/
theorem Gathered.of_members {state : Compilation} {context : Context}
    (hown : ∀ entry ∈ (doc.schema id).properties, context.narrow entry.1 = .ok none →
      state.Met doc registry entry.2.id)
    (hmembers : ∀ edge ∈ (doc.schema id).allOf,
      doc.Mergeable edge.id ∧ state.Gathered doc registry context edge.id) :
    state.Gathered doc registry context id where
  met := by
    rintro name edge ⟨part, hwalk, hmem⟩ hnone
    rcases ReflTransGen.cases_head hwalk with rfl | ⟨member, ⟨first, hfirst, rfl⟩, hrest⟩
    · exact hown _ hmem hnone
    · exact (hmembers first hfirst).2.met name edge ⟨part, hrest, hmem⟩ hnone
  mergeable := by
    intro part hwalk edge hmem
    rcases ReflTransGen.cases_head hwalk with rfl | ⟨member, ⟨first, hfirst, rfl⟩, hrest⟩
    · exact (hmembers edge hmem).1
    · exact (hmembers first hfirst).2.mergeable part hrest edge hmem

theorem Grown.refl (state : Compilation) : state.Grown doc registry state where
  toExtends := .refl state
  models := fun _ _ h => h
  merging := rfl
  unions := rfl
  filled := fun h => h
  finished := fun _ h => .inl h

theorem Grown.trans {middle : Compilation} (h : before.Grown doc registry middle)
    (h' : middle.Grown doc registry after) : before.Grown doc registry after where
  toExtends := h.toExtends.trans h'.toExtends
  models := fun id m hm => h'.models id m (h.models id m hm)
  merging := h'.merging.trans h.merging
  unions := h'.unions.trans h.unions
  filled := fun hslot => h.filled (h'.filled hslot)
  finished := by
    intro entry hmem
    rcases h'.finished entry hmem with hmem | hfinished
    · exact (h.finished entry hmem).imp_right (·.mono h'.carries)
    · exact .inr hfinished

theorem Leaves.refl (h : before.Ready registry pass) : before.Leaves registry pass before :=
  ⟨.refl before, h⟩

theorem Leaves.trans {middle : Compilation} (h : before.Leaves registry pass middle)
    (h' : middle.Leaves registry pass after) : before.Leaves registry pass after :=
  ⟨h.toGrown.trans h'.toGrown, h'.ready⟩

theorem Grown.cost_le (h : before.Grown doc registry after) : after.cost doc ≤ before.cost doc :=
  Compilation.cost_le h.models h.anchors (h.merging ▸ fun _ h => h)

/-! ## Changes that build nothing -/

theorem Agree.models (h : before.Agree after) : ModelTable.Le before.model? after.model? := by
  intro id m hm
  rwa [model?, h.memo]

theorem Agree.carries (h : before.Agree after) : before.Carries after :=
  h.extension.carries h.models

/-- What is known does not depend on the unions and members that are being worked on, as long as
those members are accounted for. -/
theorem Ready.agree (h : before.Ready registry pass) (hagree : before.Agree after)
    (hmerging : ∀ id ∈ after.merging, (doc.schema id).allOf ≠ [] ∧
      ((∃ m, after.model? id = some m) ∨ ∃ owner, doc.Includes owner id)) :
    after.Ready registry pass where
  linked := h.linked.agree hagree
  isModel := by
    intro id m hm
    rw [model?, hagree.memo] at hm
    exact h.isModel hm
  built := by
    intro m model hslot
    rw [hagree.slots] at hslot
    exact (h.built hslot).mono hagree.carries
  known := by
    intro id hmodel hknown
    obtain ⟨m, hm⟩ := h.known hmodel hknown
    exact ⟨m, hagree.models id m hm⟩
  merging := hmerging
  anchors := by
    rw [hagree.anchors]
    exact h.anchors

/-- The members that are being merged stay accounted for. -/
theorem Ready.merging_mono (h : before.Ready registry pass)
    (hmodels : ModelTable.Le before.model? after.model?)
    (hmerging : after.merging ⊆ before.merging) :
    ∀ id ∈ after.merging, (doc.schema id).allOf ≠ [] ∧
      ((∃ m, after.model? id = some m) ∨ ∃ owner, doc.Includes owner id) := by
  intro id hmem
  obtain ⟨hne, hcase⟩ := h.merging id (hmerging hmem)
  refine ⟨hne, hcase.imp_left ?_⟩
  rintro ⟨m, hm⟩
  exact ⟨m, hmodels id m hm⟩

/-- A step between two changes that build nothing leaves what the step leaves. -/
theorem Leaves.agree {before' after' : Compilation} (h : before.Leaves registry pass after)
    (hready : before'.Ready registry pass) (hbefore : before'.Agree before)
    (hafter : after.Agree after') (hmerging : after'.merging = before'.merging)
    (hunions : after'.unions = before'.unions) : before'.Leaves registry pass after' := by
  have hextends := hbefore.extension.trans (h.toExtends.trans hafter.extension)
  have hmodels : ModelTable.Le before'.model? after'.model? := fun id m hm =>
    hafter.models id m (h.models id m (hbefore.models id m hm))
  refine ⟨⟨hextends, hmodels, hmerging, hunions, ?_, ?_⟩,
    h.ready.agree hafter (hready.merging_mono hmodels (hmerging ▸ fun _ h => h))⟩
  · intro m hslot
    rw [hafter.slots] at hslot
    rw [← hbefore.slots]
    exact h.filled hslot
  · intro entry hmem
    rw [hafter.anchors] at hmem
    rw [← hbefore.anchors]
    exact (h.finished entry hmem).imp_right (·.mono hafter.carries)

/-! ## Anchors -/

theorem Ready.addAnchor (h : before.Ready registry pass)
    (hanchor : (doc.schema id).isAnchor = true) (hasked : doc.Asked id) :
    (before.addAnchor id (doc.schema id).label).Ready registry pass := by
  have hlinks := h.linked.addAnchor id (doc.schema id).label
  exact
    { linked := hlinks.linked
      isModel := h.isModel
      built := fun hslot => (h.built hslot).mono (hlinks.toExtends.carries fun _ _ hm => hm)
      known := h.known
      merging := h.merging
      anchors := List.forall_mem_cons.mpr ⟨⟨hanchor, hasked, rfl⟩, h.anchors⟩ }

theorem Leaves.addAnchor {name : String} (h : before.Ready registry pass)
    (hready : (before.addAnchor id name).Ready registry pass)
    (hmapping : (doc.schema id).mapping = []) :
    before.Leaves registry pass (before.addAnchor id name) where
  toExtends := (h.linked.addAnchor id name).toExtends
  models := fun _ _ hm => hm
  merging := rfl
  unions := rfl
  filled := fun hslot => hslot
  finished := by
    intro entry hmem
    rcases List.mem_cons.mp hmem with rfl | hmem
    · exact .inr ⟨⟨[], by simp [hmapping], rfl⟩, by simp [hmapping]⟩
    · exact .inl hmem
  ready := hready

/-- An anchor is finished by giving it its variants. -/
theorem Leaves.setVariants {name : String} {variants : List ModelId}
    (h : before.Ready registry pass)
    (hleaves : (before.addAnchor id name).Leaves registry pass after)
    (hvariants : HasVariants doc registry after.model? id variants)
    (htargets : ∀ entry ∈ (doc.schema id).mapping, ∃ variant,
      doc.resolve entry.2 = some variant ∧ after.Met doc registry variant) :
    before.Leaves registry pass (after.setVariants id variants) := by
  have hset := hleaves.ready.linked.setVariants id fun variant hmem => by
    obtain ⟨schema, hschema⟩ := hvariants.exists_schema hmem
    exact hleaves.ready.linked.lt_size_of_model? hschema
  have hadd := h.linked.addAnchor id name
  have hmodels : ModelTable.Le after.model? (after.setVariants id variants).model? :=
    fun _ _ hm => hm
  have hfinished : ∀ entry ∈ (after.setVariants id variants).anchors,
      entry ∈ before.anchors ∨
        (after.setVariants id variants).Finished doc registry entry.1 entry.2 := by
    intro entry hmem
    obtain ⟨⟨other, anchor⟩, hanchor, rfl⟩ := List.mem_map.mp hmem
    by_cases hother : other = id
    · subst hother
      simp only [if_pos]
      exact .inr ⟨hvariants, fun entry hentry => by
        obtain ⟨variant, hresolve, hmet⟩ := htargets entry hentry
        exact ⟨variant, hresolve, hmet.mono (hset.toExtends.carries hmodels)⟩⟩
    · simp only [if_neg hother]
      rcases hleaves.finished _ hanchor with hold | hdone
      · rcases List.mem_cons.mp hold with heq | hold
        · cases heq
          exact absurd rfl hother
        · exact .inl hold
      · exact .inr (hdone.mono (hset.toExtends.carries hmodels))
  exact
    { toExtends := hadd.toExtends.trans (hleaves.toExtends.trans hset.toExtends)
      models := hleaves.models
      merging := hleaves.merging
      unions := hleaves.unions
      filled := hleaves.filled
      finished := hfinished
      ready :=
        { linked := hset.linked
          isModel := hleaves.ready.isModel
          built := fun hslot => (hleaves.ready.built hslot).mono (hset.toExtends.carries hmodels)
          known := hleaves.ready.known
          merging := hleaves.ready.merging
          anchors := by
            intro entry hmem
            obtain ⟨⟨other, anchor⟩, hanchor, rfl⟩ := List.mem_map.mp hmem
            obtain ⟨his, hasked, hname⟩ := hleaves.ready.anchors _ hanchor
            refine ⟨his, hasked, ?_⟩
            simp only
            split
            · exact hname
            · exact hname } }

/-! ## Models -/

/-- What a model needs is answered with the properties of an object and the members of a union. -/
theorem met_of_needs {state : Compilation} {context context' : Context} {child : SchemaId}
    (hmodel : doc.IsModel id)
    (hfields : doc.IsObject id → ∀ name edge, doc.Holds id name edge →
      context.narrow name = .ok none → state.Met doc registry edge.id)
    (halternatives : ∀ edge ∈ (doc.schema id).alternatives, state.Met doc registry edge.id)
    (h : doc.Needs context id context' child) : state.Met doc registry child := by
  cases h with
  | item htype => exact absurd htype hmodel.not_array
  | field hobject hholds hnarrow => exact hfields hobject _ _ hholds hnarrow
  | alternative _ hmem => exact halternatives _ hmem
  | variant hanchor => simp [hmodel.anchor] at hanchor

theorem Ready.reserve (h : before.Ready registry pass) (hmodel : doc.IsModel id)
    (hnew : before.model? id = none) : (before.reserve id).Ready registry pass := by
  have hlinks := h.linked.reserve hnew
  have hle := model?_le_reserve hnew
  exact
    { linked := hlinks.linked
      isModel := by
        intro other m hm
        rw [model?_reserve] at hm
        split at hm
        · rename_i heq
          exact heq ▸ hmodel
        · exact h.isModel hm
      built := by
        intro m model hslot
        simp only [Compilation.reserve, Array.getElem?_push] at hslot
        split at hslot
        · cases hslot
        · exact (h.built hslot).mono (hlinks.toExtends.carries hle)
      known := by
        intro other hother hknown
        obtain ⟨m, hm⟩ := h.known hother hknown
        exact ⟨m, hle other m hm⟩
      merging := h.merging_mono hle fun _ hmem => hmem
      anchors := h.anchors }

/-- The model that an index was reserved for is built by filling its slot. -/
theorem Leaves.fill {name : String} {shape : Shape} (h : before.Ready registry pass)
    (hnew : before.model? id = none) (hleaves : (before.reserve id).Leaves registry pass after)
    (hmodel : after.Depicted doc registry { name, schema := id, shape })
    (htypes : ∀ type ∈ shape.types, after.Knows type) :
    before.Leaves registry pass (after.fill before.slots.size { name, schema := id, shape }) := by
  have hreserve := h.linked.reserve hnew
  have hfill : after.Links (after.fill before.slots.size { name, schema := id, shape }) :=
    hleaves.ready.linked.fill htypes
  have hmodels : ModelTable.Le after.model?
      (after.fill before.slots.size { name, schema := id, shape }).model? := fun _ _ hm => hm
  have hmono {model : Model} (hbuilt : after.Depicted doc registry model) :=
    hbuilt.mono (hfill.toExtends.carries hmodels)
  exact
    { toExtends := hreserve.toExtends.trans (hleaves.toExtends.trans hfill.toExtends)
      models := fun other m hm => hleaves.models other m (model?_le_reserve hnew other m hm)
      merging := hleaves.merging
      unions := hleaves.unions
      filled := by
        intro m hslot
        simp only [Compilation.fill, Array.getElem?_setIfInBounds] at hslot
        split at hslot
        · split at hslot <;> cases hslot
        · rename_i hne
          have hopen := hleaves.filled hslot
          simpa only [Compilation.reserve, Array.getElem?_push, if_neg (Ne.symm hne)] using hopen
      finished := by
        intro entry hmem
        exact (hleaves.finished entry hmem).imp_right (·.mono (hfill.toExtends.carries hmodels))
      ready :=
        { linked := hfill.linked
          isModel := hleaves.ready.isModel
          built := by
            intro m model hslot
            simp only [Compilation.fill, Array.getElem?_setIfInBounds] at hslot
            split at hslot
            · split at hslot <;> cases hslot
              exact hmono hmodel
            · exact hmono (hleaves.ready.built hslot)
          known := hleaves.ready.known
          merging := hleaves.ready.merging
          anchors := hleaves.ready.anchors } }

end Compilation
end OpenApi
