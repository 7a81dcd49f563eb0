-- SUMMARY: While models are built, each type that is handed out points to a model or an anchor.
import OpenApi.Proofs.Compilation.Cases
import OpenApi.Proofs.Model.Alternatives
import OpenApi.Proofs.Model.Arena
import OpenApi.Proofs.Model.FieldTypes
import OpenApi.Proofs.Step

/-!
# Links

An index is handed out as soon as its slot is reserved, and an anchor is known as soon
as it is registered. A type *points into* a compilation if the models in it have slots
and the anchors in it are registered. Steps only add slots and anchors, so a type that
points into a compilation still does later. Each law below says that what a step builds
and answers points into the compilation behind it, given that the requests it makes are
answered likewise; nothing has to be known of where the step is taken.
-/

namespace OpenApi

namespace Compilation

/-! ## Types that point into a compilation -/

/-- The models in a type have slots, and the anchors in it are registered. -/
def Knows (state : Compilation) : Ty → Prop
  | .scalar _ | .literal _ => True
  | .array item => state.Knows item
  | .model id => id < state.slots.size
  | .anchor schema => (state.anchor? schema).isSome = true

/-- The second compilation has the slots and the anchors of the first, and the same roots. -/
structure Extends (before after : Compilation) : Prop where
  size : before.slots.size ≤ after.slots.size
  anchors : ∀ id, (before.anchor? id).isSome = true → (after.anchor? id).isSome = true
  roots : after.roots = before.roots

/-- All indices are those of slots, each schema has one at most, and the types in the models that
are built point into the compilation. -/
structure Linked (state : Compilation) : Prop where
  memo : ∀ entry ∈ state.memo, entry.2 < state.slots.size
  schemas : (state.memo.map (·.1)).Nodup
  types : ∀ {m : ModelId} {model : Model}, state.slots[m]? = some (some model) →
    ∀ type ∈ model.shape.types, state.Knows type
  variants : ∀ entry ∈ state.anchors, ∀ variant ∈ entry.2.variants, variant < state.slots.size

theorem Extends.refl (state : Compilation) : state.Extends state :=
  ⟨Nat.le_refl _, fun _ => id, rfl⟩

theorem Extends.trans {first second third : Compilation} (h : first.Extends second)
    (h' : second.Extends third) : first.Extends third :=
  ⟨Nat.le_trans h.size h'.size, fun id hid => h'.anchors id (h.anchors id hid),
    h'.roots.trans h.roots⟩

theorem Knows.mono {before after : Compilation} (h : before.Extends after) {type : Ty}
    (hknown : before.Knows type) : after.Knows type := by
  induction type with
  | scalar | literal => trivial
  | array item ih => exact ih hknown
  | model id => exact Nat.lt_of_lt_of_le hknown h.size
  | anchor schema => exact h.anchors schema hknown

/-- What a step leaves behind. -/
structure Links (before after : Compilation) : Prop extends Extends before after where
  linked : after.Linked

theorem Links.refl {state : Compilation} (h : state.Linked) : state.Links state :=
  ⟨.refl state, h⟩

theorem Links.trans {first second third : Compilation} (h : first.Links second)
    (h' : second.Links third) : first.Links third :=
  ⟨h.toExtends.trans h'.toExtends, h'.linked⟩

/-! ## Changes of a compilation -/

/-- Both compilations have the same models, anchors and roots. -/
structure Agree (state other : Compilation) : Prop where
  memo : other.memo = state.memo
  slots : other.slots = state.slots
  anchors : other.anchors = state.anchors
  roots : other.roots = state.roots

variable {state other : Compilation}

theorem Agree.extension (h : state.Agree other) : state.Extends other where
  size := Nat.le_of_eq (congrArg Array.size h.slots.symm)
  anchors := by
    intro id hid
    rwa [anchor?, h.anchors]
  roots := h.roots

theorem Linked.agree (hstate : state.Linked) (h : state.Agree other) : other.Linked where
  memo := by
    rw [h.memo, h.slots]
    exact hstate.memo
  schemas := h.memo ▸ hstate.schemas
  types := by
    intro m model hslot type hmem
    exact (hstate.types (h.slots ▸ hslot) type hmem).mono h.extension
  variants := by
    rw [h.anchors, h.slots]
    exact hstate.variants

theorem Links.agree {before before' after after' : Compilation} (h : before.Links after)
    (hbefore : before'.Agree before) (hafter : after.Agree after') : before'.Links after' :=
  ⟨hbefore.extension.trans (h.toExtends.trans hafter.extension), h.linked.agree hafter⟩

theorem model?_eq_none_iff {id : SchemaId} :
    state.model? id = none ↔ id ∉ state.memo.map (·.1) := by
  rw [model?, List.lookup_eq_none_iff, List.mem_map]
  constructor
  · rintro h ⟨entry, hmem, rfl⟩
    simpa using h entry hmem
  · intro h entry hmem
    simpa using fun heq => h ⟨entry, hmem, heq.symm⟩

theorem Linked.lt_size_of_model? (h : state.Linked) {id : SchemaId} {m : ModelId}
    (hm : state.model? id = some m) : m < state.slots.size := by
  obtain ⟨before, after, hsplit, -⟩ := List.lookup_eq_some_iff.mp hm
  exact h.memo (id, m) (by simp [hsplit])

theorem Linked.reserve (h : state.Linked) {id : SchemaId} (hnew : state.model? id = none) :
    state.Links (state.reserve id) := by
  have hextends : state.Extends (state.reserve id) :=
    ⟨by simp [Compilation.reserve], fun _ hid => hid, rfl⟩
  refine ⟨hextends, ?_, ?_, ?_, ?_⟩
  · have hsize : (state.reserve id).slots.size = state.slots.size + 1 := by
      simp [Compilation.reserve]
    rw [hsize]
    intro entry hmem
    rcases List.mem_cons.mp hmem with rfl | hmem
    · exact Nat.lt_succ_self _
    · exact Nat.lt_succ_of_lt (h.memo entry hmem)
  · exact List.nodup_cons.mpr ⟨model?_eq_none_iff.mp hnew, h.schemas⟩
  · intro m model hslot type hmem
    simp only [Compilation.reserve, Array.getElem?_push] at hslot
    split at hslot
    · cases hslot
    · exact (h.types hslot type hmem).mono hextends
  · intro entry hmem variant hvariant
    exact Nat.lt_of_lt_of_le (h.variants entry hmem variant hvariant) hextends.size

theorem Linked.fill (h : state.Linked) {m : ModelId} {model : Model}
    (htypes : ∀ type ∈ model.shape.types, state.Knows type) : state.Links (state.fill m model) := by
  have hsize : (state.fill m model).slots.size = state.slots.size := Array.size_setIfInBounds
  have hextends : state.Extends (state.fill m model) := ⟨Nat.le_of_eq hsize.symm, fun _ => id, rfl⟩
  refine ⟨hextends, ?_, h.schemas, ?_, ?_⟩
  · rw [hsize]
    exact h.memo
  · intro other built hslot type hmem
    simp only [Compilation.fill, Array.getElem?_setIfInBounds] at hslot
    split at hslot
    · split at hslot <;> cases hslot
      exact (htypes type hmem).mono hextends
    · exact (h.types hslot type hmem).mono hextends
  · rw [hsize]
    exact h.variants

theorem Linked.addAnchor (h : state.Linked) (id : SchemaId) (name : String) :
    state.Links (state.addAnchor id name) := by
  have hextends : state.Extends (state.addAnchor id name) :=
    ⟨Nat.le_refl _, fun _ hother => isSome_anchor?_addAnchor.mpr (.inr hother), rfl⟩
  refine ⟨hextends, h.memo, h.schemas, ?_, ?_⟩
  · exact fun hslot type hmem => (h.types hslot type hmem).mono hextends
  · intro entry hmem variant hvariant
    rcases List.mem_cons.mp hmem with rfl | hmem
    · cases hvariant
    · exact h.variants entry hmem variant hvariant

theorem Linked.setVariants (h : state.Linked) (id : SchemaId) {variants : List ModelId}
    (hvariants : ∀ variant ∈ variants, variant < state.slots.size) :
    state.Links (state.setVariants id variants) := by
  have hextends : state.Extends (state.setVariants id variants) :=
    ⟨Nat.le_refl _, fun _ hother => isSome_anchor?_setVariants.mpr hother, rfl⟩
  refine ⟨hextends, h.memo, h.schemas, ?_, ?_⟩
  · exact fun hslot type hmem => (h.types hslot type hmem).mono hextends
  · intro entry hmem variant hvariant
    obtain ⟨⟨other, anchor⟩, hanchor, rfl⟩ := List.mem_map.mp hmem
    simp only at hvariant
    split at hvariant
    · exact hvariants variant hvariant
    · exact h.variants _ hanchor variant hvariant

theorem Knows.addRoot {known : Ty} (h : state.Knows known) (name : String) (type : Option Ty) :
    (state.addRoot name type).Knows known := by
  induction known with
  | array item ih => exact ih h
  | scalar | literal | model | anchor => exact h

theorem Linked.addRoot (h : state.Linked) (name : String) (type : Option Ty) :
    (state.addRoot name type).Linked where
  memo := h.memo
  schemas := h.schemas
  types := fun hslot known hmem => (h.types hslot known hmem).addRoot name type
  variants := h.variants

end Compilation

/-! ## Steps -/

/-- A type points into the compilation behind a request for it; where a schema has none, it is a
registered anchor. -/
def Answered (id : SchemaId) (after : Compilation) : Option Ty → Prop
  | some type => after.Knows type
  | none => (after.anchor? id).isSome = true

/-- What is requested points into the compilation behind the request. -/
structure Requests.Link (ask : Requests) : Prop where
  type : ∀ {context : Context} {id : SchemaId} {state : Compilation}, state.Linked →
    (ask.type context id).Ends state
      (fun type after => state.Links after ∧ Answered id after type) fun _ _ => True
  merged : ∀ {context : Context} {name : String} {id : SchemaId} {state : Compilation},
    state.Linked → (ask.merged context name id).Ends state
      (fun fields after => state.Links after ∧ ∀ field ∈ fields, after.Knows field.type)
      fun _ _ => True

section Steps

variable {doc : Document} {registry : Registry} {ask : Requests} (hask : ask.Link)
variable {context : Context} {name : String} {state : Compilation} (hlinked : state.Linked)
include hask hlinked

/-! ### Fields -/

theorem elementType_links (edge : Edge) :
    (elementType ask edge).Ends state (fun type after => state.Links after ∧ after.Knows type)
      fun _ _ => True := by
  simp only [elementType, Compile.ends_bind, Compile.ends_get, Compile.ends_between,
    Compile.ends_pure]
  have hstart : state.Agree { state with unions := [] } := ⟨rfl, rfl, rfl, rfl⟩
  apply (hask.type (hlinked.agree hstart)).imp
  intro type after h
  obtain ⟨hlinks, hanswered⟩ := h
  have hlast : after.Agree { after with unions := state.unions } := ⟨rfl, rfl, rfl, rfl⟩
  refine ⟨hlinks.agree hstart hlast, ?_⟩
  cases type with
  | some type => exact Compilation.Knows.mono hlast.extension hanswered
  | none => exact hanswered

theorem fieldOf_links (schema : Schema) (edge : Edge) :
    (fieldOf doc ask context schema name edge).Ends state
      (fun field after => state.Links after ∧ after.Knows field.type) fun _ _ => True := by
  simp only [fieldOf, Compile.ends_bind, Compile.ends_ofExcept]
  refine ⟨?_, fun _ _ => trivial⟩
  intro answer _
  cases answer with
  | some tag => exact ⟨.refl hlinked, trivial⟩
  | none =>
      simp only [Compile.ends_bind, Compile.ends_pure]
      exact elementType_links hask hlinked edge

theorem fieldsOf_links (schema : Schema) :
    (fieldsOf doc ask context schema).Ends state
      (fun fields after => state.Links after ∧ ∀ field ∈ fields, after.Knows field.type)
      fun _ _ => True := by
  refine Compile.ends_mapM (fun _ (fields : List Field) now => state.Links now ∧
    ∀ field ∈ fields, now.Knows field.type) ?_ ⟨.refl hlinked, by simp⟩
  intro done entry fields now _ h
  obtain ⟨hlinks, hfields⟩ := h
  apply (fieldOf_links hask hlinks.linked schema entry.2).imp
  intro field after h
  obtain ⟨hlinks', hfield⟩ := h
  simp only [List.forall_mem_append, List.forall_mem_singleton]
  exact ⟨hlinks.trans hlinks', fun other hmem => (hfields other hmem).mono hlinks'.toExtends,
    hfield⟩

/-! ### Merging -/

theorem contribution_links (owner : Schema) (member : Edge) :
    (contribution doc ask context name owner member).Ends state
      (fun fields after => state.Links after ∧ ∀ field ∈ fields, after.Knows field.type)
      fun _ _ => True := by
  rcases contribution_cases doc context name owner member with
    ⟨-, heq⟩ | ⟨-, heq⟩ | ⟨-, identity, label, heq⟩
  · rw [heq]
    exact hask.merged hlinked
  · rw [heq]
    exact fieldsOf_links hask hlinked _
  · rw [heq]
    exact (Compile.ends_throw _).mpr trivial

theorem mergeMembers_links (schema : Schema) :
    (mergeMembers doc ask context name schema).Ends state
      (fun fields after => state.Links after ∧ ∀ field ∈ fields, after.Knows field.type)
      fun _ _ => True := by
  simp only [mergeMembers, Compile.ends_bind, Compile.ends_ofExcept, Compile.ends_pure]
  refine (Compile.ends_foldlM (fun _ (fields : List Field) now => state.Links now ∧
    ∀ field ∈ fields, now.Knows field.type) ?_ ⟨.refl hlinked, by simp⟩).imp ?_
  · intro done member start now _ h
    obtain ⟨hlinks, hstart⟩ := h
    simp only [Compile.ends_bind, Compile.ends_ofExcept]
    apply (contribution_links hask hlinks.linked schema member).imp
    intro fields after h
    obtain ⟨hlinks', hfields⟩ := h
    refine ⟨fun next habsorb => ⟨hlinks.trans hlinks', ?_⟩, fun _ _ => trivial⟩
    exact absorb_forall (P := fun _ type => after.Knows type) habsorb
      (fun other hmem => (hstart other hmem).mono hlinks'.toExtends) hfields
  · intro inherited now h
    obtain ⟨hlinks, hinherited⟩ := h
    apply (fieldsOf_links hask hlinks.linked schema).imp
    intro own after h
    obtain ⟨hlinks', hown⟩ := h
    refine ⟨fun merged habsorb => ⟨hlinks.trans hlinks', ?_⟩, fun _ _ => trivial⟩
    have hmerged := absorb_forall (P := fun _ type => after.Knows type) habsorb
      (fun other hmem => (hinherited other hmem).mono hlinks'.toExtends) hown
    exact requireOwn_forall (P := fun _ type => after.Knows type) hmerged

theorem mergedFields_links (id : SchemaId) :
    (mergedFields doc ask context name id).Ends state
      (fun fields after => state.Links after ∧ ∀ field ∈ fields, after.Knows field.type)
      fun _ _ => True := by
  simp only [mergedFields, Compile.ends_bind, Compile.ends_get]
  split
  · trivial
  · rw [Compile.ends_between]
    have hstart : state.Agree { state with merging := id :: state.merging } :=
      ⟨rfl, rfl, rfl, rfl⟩
    apply (mergeMembers_links hask (hlinked.agree hstart) _).imp
    intro fields after h
    obtain ⟨hlinks, hfields⟩ := h
    have hlast : after.Agree { after with merging := after.merging.erase id } :=
      ⟨rfl, rfl, rfl, rfl⟩
    exact ⟨hlinks.agree hstart hlast, fun field hmem => (hfields field hmem).mono hlast.extension⟩

/-! ### Unions and anchors -/

theorem alternativesOf_links (schema : Schema) (members : List Edge) :
    (alternativesOf doc ask context schema members).Ends state
      (fun found after => state.Links after ∧ ∀ entry ∈ found, after.Knows entry.2)
      fun _ _ => True := by
  refine Compile.ends_foldlM (fun _ (found : List (Edge × Ty)) now => state.Links now ∧
    ∀ entry ∈ found, now.Knows entry.2) ?_ ⟨.refl hlinked, by simp⟩
  intro done member found now _ h
  obtain ⟨hlinks, hfound⟩ := h
  simp only [Compile.ends_bind]
  apply (hask.type hlinks.linked).imp
  intro type after h
  obtain ⟨hlinks', hanswered⟩ := h
  have hold : ∀ entry ∈ found, after.Knows entry.2 :=
    fun entry hmem => (hfound entry hmem).mono hlinks'.toExtends
  cases type with
  | none => exact ⟨hlinks.trans hlinks', hold⟩
  | some type =>
      refine ⟨hlinks.trans hlinks', ?_⟩
      simp only [List.forall_mem_append, List.forall_mem_singleton]
      exact ⟨hold, hanswered⟩

theorem unionOf_links (id : SchemaId) (members : List Edge) :
    (unionOf doc ask context id members).Ends state
      (fun shape after => state.Links after ∧ ∀ type ∈ shape.types, after.Knows type)
      fun _ _ => True := by
  simp only [unionOf, Compile.ends_bind, Compile.ends_between, Compile.ends_pure]
  have hstart : state.Agree { state with unions := id :: state.unions } := ⟨rfl, rfl, rfl, rfl⟩
  apply (alternativesOf_links hask (hlinked.agree hstart) _ members).imp
  intro found after h
  obtain ⟨hlinks, hfound⟩ := h
  have hlast : after.Agree { after with unions := after.unions.tail } := ⟨rfl, rfl, rfl, rfl⟩
  refine ⟨hlinks.agree hstart hlast, fun type hmem => ?_⟩
  obtain ⟨entry, hentry, rfl⟩ := List.mem_map.mp hmem
  exact (hfound entry hentry).mono hlast.extension

theorem variantsOf_links (schema : Schema) (targets : List String) :
    (variantsOf doc ask context schema targets).Ends state
      (fun variants after => state.Links after ∧ ∀ variant ∈ variants, variant < after.slots.size)
      fun _ _ => True := by
  refine Compile.ends_foldlM (fun _ (variants : List ModelId) now => state.Links now ∧
    ∀ variant ∈ variants, variant < now.slots.size) ?_ ⟨.refl hlinked, by simp⟩
  intro done target variants now _ h
  obtain ⟨hlinks, hvariants⟩ := h
  cases doc.resolve target with
  | none => trivial
  | some id =>
      simp only [Compile.ends_bind]
      apply (hask.type hlinks.linked).imp
      intro type after h
      obtain ⟨hlinks', hanswered⟩ := h
      have hold : ∀ variant ∈ variants, variant < after.slots.size :=
        fun variant hmem => Nat.lt_of_lt_of_le (hvariants variant hmem) hlinks'.size
      split
      · split
        · exact ⟨hlinks.trans hlinks', hold⟩
        · refine ⟨hlinks.trans hlinks', ?_⟩
          simp only [List.forall_mem_append, List.forall_mem_singleton]
          exact ⟨hold, hanswered⟩
      · exact ⟨hlinks.trans hlinks', hold⟩

theorem registerAnchor_links (id : SchemaId) :
    (registerAnchor doc ask context id).Ends state
      (fun _ after => state.Links after ∧ (after.anchor? id).isSome = true) fun _ _ => True := by
  simp only [registerAnchor, Compile.ends_bind, Compile.ends_get]
  split
  · rename_i hknown
    exact ⟨.refl hlinked, hknown⟩
  · simp only [Compile.ends_bind, Compile.ends_modify]
    have hadd := hlinked.addAnchor id (doc.schema id).label
    have hadded : ((state.addAnchor id (doc.schema id).label).anchor? id).isSome = true :=
      Compilation.isSome_anchor?_addAnchor.mpr (.inl rfl)
    split
    · exact ⟨hadd, hadded⟩
    · simp only [Compile.ends_bind, Compile.ends_modify]
      apply (variantsOf_links hask hadd.linked _ _).imp
      intro variants after h
      obtain ⟨hlinks, hvariants⟩ := h
      have hset := hlinks.linked.setVariants id hvariants
      exact ⟨(hadd.trans hlinks).trans hset, hset.anchors id (hlinks.anchors id hadded)⟩

/-! ### Models and types -/

theorem shapeOf_links (id : SchemaId) :
    (shapeOf doc ask context name id).Ends state
      (fun shape after => state.Links after ∧ ∀ type ∈ shape.types, after.Knows type)
      fun _ _ => True := by
  -- The types of an object are those of its fields.
  have hobject {fields : List Field} {after : Compilation}
      (h : ∀ field ∈ fields, after.Knows field.type) :
      ∀ type ∈ (Shape.object fields).types, after.Knows type := by
    intro type hmem
    obtain ⟨field, hfield, rfl⟩ := List.mem_map.mp hmem
    exact h field hfield
  rcases shapeOf_cases doc context name id with ⟨-, heq⟩ | ⟨-, heq⟩ | ⟨-, heq⟩
  · simp only [heq, Compile.ends_bind, Compile.ends_pure]
    exact (mergedFields_links hask hlinked id).imp fun _ _ h => ⟨h.1, hobject h.2⟩
  · rw [heq]
    exact unionOf_links hask hlinked id _
  · simp only [heq, Compile.ends_bind, Compile.ends_pure]
    exact (fieldsOf_links hask hlinked _).imp fun _ _ h => ⟨h.1, hobject h.2⟩

omit hask in
theorem modelName_links (schema : Schema) :
    (modelName schema).Ends state
      (fun _ after => state.Links after ∧ after.model? = state.model?) fun _ _ => True := by
  unfold modelName
  cases schema.title.or schema.identity with
  | some name => exact ⟨.refl hlinked, rfl⟩
  | none =>
      simp only [Compile.ends_bind, Compile.ends_modify, Compile.ends_get, Compile.ends_pure]
      exact ⟨(Compilation.Links.refl hlinked).agree ⟨rfl, rfl, rfl, rfl⟩ ⟨rfl, rfl, rfl, rfl⟩, rfl⟩

theorem buildModel_links {id : SchemaId} (hnew : state.model? id = none) :
    (buildModel doc ask context id).Ends state
      (fun model after => state.Links after ∧ model < after.slots.size) fun _ _ => True := by
  simp only [buildModel, Compile.ends_bind]
  apply (modelName_links hlinked (doc.schema id)).imp
  intro name named h
  obtain ⟨hnamed, hmodels⟩ := h
  simp only [Compile.ends_get, Compile.ends_modify, Compile.ends_pure]
  have hreserve := hnamed.linked.reserve (hmodels ▸ hnew)
  have hslot : named.slots.size < (named.reserve id).slots.size := by simp [Compilation.reserve]
  apply (shapeOf_links hask hreserve.linked id).imp
  intro shape after h
  obtain ⟨hlinks, hshape⟩ := h
  have hfill : after.Links (after.fill named.slots.size ⟨name, id, shape⟩) :=
    hlinks.linked.fill hshape
  have hall := (hnamed.trans hreserve).trans (hlinks.trans hfill)
  exact ⟨hall, Nat.lt_of_lt_of_le hslot (hlinks.trans hfill).size⟩

theorem modelType_links (id : SchemaId) :
    (modelType doc ask context id).Ends state
      (fun type after => state.Links after ∧ Answered id after type) fun _ _ => True := by
  simp only [modelType, Compile.ends_bind, Compile.ends_get]
  cases hknown : state.model? id with
  | some model =>
      simp only
      split
      · trivial
      · exact ⟨.refl hlinked, hlinked.lt_size_of_model? hknown⟩
  | none =>
      simp only
      split <;> simp only [Compile.ends_bind, Compile.ends_pure]
      · exact registerAnchor_links hask hlinked id
      · exact buildModel_links hask hlinked hknown

theorem typeOf_links (id : SchemaId) :
    (typeOf doc registry ask context id).Ends state
      (fun type after => state.Links after ∧ Answered id after type) fun _ _ => True := by
  rcases typeOf_cases doc registry context id with
    ⟨items, -, -, heq⟩ | ⟨-, -, heq⟩ | ⟨primitive, -, -, heq⟩ | ⟨-, heq⟩
  · simp only [heq, Compile.ends_bind, Compile.ends_pure]
    exact elementType_links hask hlinked items
  · rw [heq]
    exact (Compile.ends_throw _).mpr trivial
  · simp only [heq, Compile.ends_bind, Compile.ends_ofExcept, Compile.ends_pure]
    exact ⟨fun type _ => ⟨.refl hlinked, trivial⟩, fun _ _ => trivial⟩
  · rw [heq]
    exact modelType_links hask hlinked id

end Steps

/-- Whatever is requested points into the compilation behind the request. -/
theorem requests_link (doc : Document) (registry : Registry) (depth : Nat) :
    (requests doc registry depth).Link := by
  induction depth with
  | zero => exact ⟨fun _ => trivial, fun _ => trivial⟩
  | succ depth ih =>
      exact ⟨fun hlinked => typeOf_links ih hlinked _,
        fun hlinked => mergedFields_links ih hlinked _⟩

end OpenApi
