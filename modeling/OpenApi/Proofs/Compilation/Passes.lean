-- SUMMARY: Both passes over the named schemas: what they build, and how they may fail.
import OpenApi.Proofs.Compilation.Roots
import OpenApi.Proofs.Compilation.Settling

/-!
# Passes

Between two named schemas nothing is open: all slots are filled, all anchors have their
variants, and nothing is being merged. So everything that a pass asks for is there when it
ends. Here it matters that the document is steady: what a schema asks for in one of its
contexts has been answered because its model was built in another.
-/

namespace OpenApi

open Relation (ReflTransGen TransGen)

variable {doc : Document}

namespace Compilation

/-! ## Between two named schemas -/

/-- Nothing is open between two named schemas of a pass. -/
structure Rested (pass : doc.Pass) (state : Compilation) : Prop where
  ready : state.Ready .standard pass
  merging : state.merging = []
  unions : state.unions = []
  filled : ∀ m : ModelId, state.slots[m]? ≠ some none
  finished : ∀ entry ∈ state.anchors, state.Finished doc .standard entry.1 entry.2

variable {pass : doc.Pass} {state after : Compilation} {id : SchemaId}

theorem rested_start : ({} : Compilation).Rested doc.firstPass where
  ready :=
    { linked := Document.linked_start
      isModel := fun h => nomatch h
      built := fun h => by simp at h
      known := fun _ h => h.elim
      merging := by simp
      anchors := by simp }
  merging := rfl
  unions := rfl
  filled := by simp
  finished := by simp

theorem Rested.leaves (h : state.Rested pass) (hleaves : state.Leaves .standard pass after) :
    after.Rested pass where
  ready := hleaves.ready
  merging := hleaves.merging.trans h.merging
  unions := hleaves.unions.trans h.unions
  filled := fun m hslot => h.filled m (hleaves.filled hslot)
  finished := by
    intro entry hmem
    rcases hleaves.finished entry hmem with hold | hdone
    · exact (h.finished entry hold).mono hleaves.carries
    · exact hdone

theorem carries_addRoot (state : Compilation) (name : String) (type : Option Ty) :
    state.Carries (state.addRoot name type) where
  models := fun _ _ hm => hm
  answered := by
    intro id known h
    cases known with
    | none => exact h
    | some known => exact Knows.addRoot h name type

theorem Rested.addRoot (h : state.Rested pass) (name : String) (type : Option Ty) :
    (state.addRoot name type).Rested pass where
  ready :=
    { linked := h.ready.linked.addRoot name type
      isModel := h.ready.isModel
      built := fun hslot => (h.ready.built hslot).mono (carries_addRoot state name type)
      known := h.ready.known
      merging := h.ready.merging
      anchors := h.ready.anchors }
  merging := h.merging
  unions := h.unions
  filled := h.filled
  finished := fun entry hmem => (h.finished entry hmem).mono (carries_addRoot state name type)

/-- A schema of the pass can be asked for: nothing that is open leads to it. -/
theorem Rested.schema_settles (h : state.Rested pass) (hasks : pass.asks {} id) :
    (Compile.schema doc .standard id).Ends state (Types .standard pass state id)
      (doc.Fails .standard) := by
  refine (requests_settle doc .standard pass doc.depth).type ⟨h.ready, hasks, ?_, ?_, ?_⟩
  · simp [h.unions]
  · simp [h.merging]
  · exact fun _ _ htype => Nat.le_trans (Nat.add_le_add_left htype.size_le _) cost_le_depth

/-! ## What has been asked for -/

/-- What a schema that has been answered needs has been answered too, whichever context it was
built in. -/
theorem Rested.met_of_needs (h : state.Rested pass) (hsteady : doc.Steady)
    (hmodels : ∀ {id m}, state.model? id = some m →
      ∃ model, state.slots[m]? = some (some model) ∧ model.schema = id)
    {context context' : Context} {child : SchemaId} (hmet : state.Met doc .standard id)
    (hbuilds : doc.IsModel id → doc.Builds context id)
    (hneeds : doc.Needs context id context' child) : state.Met doc .standard child := by
  obtain ⟨type, htype, hanswered⟩ := hmet
  -- A model was built in some context, which narrows its properties like this one.
  have hmodel (hmodel : doc.IsModel id) : state.Met doc .standard child := by
    obtain ⟨m, hm, -⟩ := htype.of_isModel hmodel
    obtain ⟨model, hslot, rfl⟩ := hmodels hm
    obtain ⟨built, hbuilt, -, hall⟩ := (h.ready.built hslot).shape
    obtain ⟨context'', hneeds'⟩ := hneeds.of_alike fun name edge hobject hholds =>
      hsteady context built _ name edge hobject (hbuilds hmodel) hbuilt hholds
    exact hall _ _ hneeds'
  cases hneeds with
  | item harray hitems =>
      obtain ⟨items, known, hsome, hknown, rfl⟩ := htype.of_array harray
      cases hitems.symm.trans hsome
      refine ⟨known, hknown, ?_⟩
      cases known <;> exact hanswered
  | field hobject => exact hmodel hobject.model
  | alternative hisModel => exact hmodel hisModel
  | variant hanchor hentry hresolve =>
      cases htype.of_isAnchor hanchor
      obtain ⟨anchor, hmem⟩ := isSome_anchor?_iff.mp hanswered
      obtain ⟨variant, hvariant, hmet⟩ := (h.finished _ hmem).targets _ hentry
      cases hresolve.symm.trans hvariant
      exact hmet

/-- All that is asked for has been answered. -/
theorem Rested.met (h : state.Rested pass) (hsteady : doc.Steady)
    (hmodels : ∀ {id m}, state.model? id = some m →
      ∃ model, state.slots[m]? = some (some model) ∧ model.schema = id)
    {start : SchemaId → Prop} (hstart : ∀ id, start id → state.Met doc .standard id)
    (hpass : ∀ context id, doc.Asks start pass.known context id → pass.asks context id)
    {context : Context} (hasks : doc.Asks start pass.known context id) :
    state.Met doc .standard id := by
  induction hasks with
  | start hid => exact hstart _ hid
  | step howner hnew hneeds ih =>
      exact h.met_of_needs hsteady hmodels ih
        (fun hmodel => pass.builds (hpass _ _ howner) (hnew hmodel)) hneeds

end Compilation

namespace Document

/-! ## A whole compilation -/

variable (doc) in
/-- Between two named schemas of a pass nothing is open, and the models are those of their
schemas. -/
structure Between (pass : doc.Pass) (state : Compilation) : Prop where
  rested : state.Rested pass
  closed : doc.Closed doc.Reached state

variable {pass : doc.Pass} {state : Compilation} {id : SchemaId}

theorem Between.schema_settles (h : doc.Between pass state) (hasks : pass.asks {} id) :
    (Compile.schema doc .standard id).Ends state
      (fun type after => doc.Between pass after ∧ Types .standard pass state id type after)
      (doc.Fails .standard) :=
  ((h.rested.schema_settles hasks).and (schema_ends doc.reached_spreads h.closed (.start id))).mono
    (fun _ _ hafter => ⟨⟨h.rested.leaves hafter.1.leaves, hafter.2.1⟩, hafter.1⟩)
    fun _ _ hfails => hfails.1

theorem Between.addRoot (h : doc.Between pass state) (name : String) (type : Option Ty) :
    doc.Between pass (state.addRoot name type) :=
  ⟨h.rested.addRoot name type, h.closed.wellFormed, h.closed.built, h.closed.covers⟩

/-- The named schemas with a discriminator are compiled with all that they ask for. -/
theorem firstPass_settles :
    (doc.named.forM fun (_, id) => do
      if (doc.schema id).discriminator.isSome then
        discard (Compile.schema doc .standard id)).Ends {}
      (fun _ after => doc.Between doc.firstPass after ∧
        ∀ entry ∈ doc.named, (doc.schema entry.2).discriminator.isSome = true →
          after.Met doc .standard entry.2)
      (doc.Fails .standard) := by
  refine Compile.ends_forM (fun (done : Keyed SchemaId) now => doc.Between doc.firstPass now ∧
    ∀ entry ∈ done, (doc.schema entry.2).discriminator.isSome = true →
      now.Met doc .standard entry.2) ?_ ⟨⟨Compilation.rested_start, closed_start⟩, by simp⟩
  rintro done ⟨name, id⟩ now hmem ⟨hbetween, hdone⟩
  simp only [List.forall_mem_append, List.forall_mem_singleton]
  split
  · rename_i hsome
    rw [Compile.ends_discard]
    apply (hbetween.schema_settles (.start ⟨name, hmem, hsome⟩)).imp
    rintro type after ⟨hbetween', htype⟩
    exact ⟨hbetween', fun entry hentry hentrySome =>
      (hdone entry hentry hentrySome).mono htype.leaves.carries, fun _ => htype.met⟩
  · rename_i hnone
    exact ⟨hbetween, hdone, fun hsome => absurd hsome hnone⟩

/-- After the first pass all that it asks for has been answered, so the second can start. -/
theorem Between.later (h : doc.Between doc.firstPass state) (hsteady : doc.Steady)
    (hnamed : ∀ entry ∈ doc.named, (doc.schema entry.2).discriminator.isSome = true →
      state.Met doc .standard entry.2) :
    doc.Between doc.laterPass state ∧ ∀ id, doc.IsFirst id → state.Met doc .standard id := by
  have hmet (id : SchemaId) (hfirst : doc.IsFirst id) : state.Met doc .standard id := by
    obtain ⟨context, hasks⟩ := hfirst
    refine h.rested.met hsteady h.closed.exists_model ?_ (fun _ _ hasks => hasks) hasks
    rintro id ⟨name, hmem, hsome⟩
    exact hnamed _ hmem hsome
  have hready := h.rested.ready
  refine ⟨⟨⟨⟨hready.linked, hready.isModel, hready.built, ?_, hready.merging, hready.anchors⟩,
    h.rested.merging, h.rested.unions, h.rested.filled, h.rested.finished⟩, h.closed⟩, hmet⟩
  intro id hmodel hfirst
  obtain ⟨type, htype, -⟩ := hmet id hfirst
  obtain ⟨m, hm, -⟩ := htype.of_isModel hmodel
  exact ⟨m, hm⟩

variable (doc) in
/-- All that is asked for has been answered, and nothing is left open. -/
structure Answers (state : Compilation) : Prop where
  between : doc.Between doc.laterPass state
  met : ∀ id, doc.Asked id → state.Met doc .standard id

theorem compileNamed_settles (hnames : doc.named.keys.Nodup) (hsteady : doc.Steady) :
    doc.compileNamed.Ends {} (fun _ after => doc.Answers after)
      (doc.Fails .standard) := by
  simp only [compileNamed, Compile.ends_bind]
  apply firstPass_settles.imp
  rintro _ first ⟨hfirst, hnamed⟩
  obtain ⟨hlater, hmet⟩ := hfirst.later hsteady hnamed
  refine (Compile.ends_forM (fun done now => doc.Between doc.laterPass now ∧
    (∀ id, doc.IsFirst id → now.Met doc .standard id) ∧
    ∀ entry ∈ done, now.Met doc .standard entry.2) ?_ ⟨hlater, hmet, by simp⟩).imp ?_
  · rintro done ⟨name, id⟩ now hmem ⟨hbetween, hold, hdone⟩
    have hlookup : doc.lookup name = some id := lookup_of_mem hnames hmem
    simp only [Compile.ends_discard, Compile.named, hlookup, Compile.ends_bind,
      Compile.ends_modify, Compile.ends_pure]
    apply (hbetween.schema_settles (.start ⟨name, hmem⟩)).imp
    rintro type after ⟨hbetween', htype⟩
    have hcarries := Compilation.carries_addRoot after name type
    refine ⟨hbetween'.addRoot name type,
      fun id hid => ((hold id hid).mono htype.leaves.carries).mono hcarries, ?_⟩
    rw [List.forall_mem_append, List.forall_mem_singleton]
    exact ⟨fun entry hentry => ((hdone entry hentry).mono htype.leaves.carries).mono hcarries,
      htype.met.mono hcarries⟩
  · rintro _ after ⟨hbetween, hold, hnamed⟩
    refine ⟨hbetween, fun id hid => ?_⟩
    obtain ⟨context, hasks | hasks⟩ := hid
    · exact hold id ⟨context, hasks⟩
    · refine hbetween.rested.met hsteady hbetween.closed.exists_model ?_
        (fun _ _ hasks => hasks) hasks
      rintro id ⟨name, hmem⟩
      exact hnamed _ hmem

/-! ## Finishing -/

theorem exists_modelsOf {memo : List (SchemaId × ModelId)} {slots : List (Option Model)}
    (h : none ∉ slots) (place : Nat) :
    ∃ models, Compilation.modelsOf doc memo place slots = .ok models := by
  induction slots generalizing place with
  | nil => exact ⟨[], rfl⟩
  | cons slot rest ih =>
      rw [List.mem_cons, not_or] at h
      cases slot with
      | none => exact absurd rfl h.1
      | some model =>
          obtain ⟨models, hmodels⟩ := ih h.2 (place + 1)
          exact ⟨model :: models, by simp [Compilation.modelsOf, hmodels, Except.map]⟩

/-- A compilation without an empty slot is a model set. -/
theorem exists_finish_of_filled (h : ∀ m : ModelId, state.slots[m]? ≠ some none) :
    ∃ set, state.finish doc = .ok set := by
  have hfilled : none ∉ state.slots.toList := by
    intro hmem
    obtain ⟨m, hm⟩ := List.mem_iff_getElem?.mp hmem
    exact h m (by simpa using hm)
  obtain ⟨models, hmodels⟩ := exists_modelsOf hfilled 0
  exact ⟨_, by rw [Compilation.finish, hmodels]; rfl⟩

/-- A compilation that has answered all that it was asked for is a model set. -/
theorem Answers.exists_finish (h : doc.Answers state) : ∃ set, state.finish doc = .ok set :=
  exists_finish_of_filled h.between.rested.filled

/-- The compilation of a steady document that is sound only stops at loops. -/
theorem loops_of_compile (hnames : doc.named.keys.Nodup) (hsteady : doc.Steady)
    (hsound : doc.Sound .standard) {stop : Stop SchemaError} (h : doc.compile = .error stop) :
    doc.Loops stop := by
  have hends := compileNamed_settles hnames hsteady
  simp only [Compile.Ends, compile] at hends h
  split at hends
  · rename_i state hrun
    obtain ⟨set, hset⟩ := hends.exists_finish
    simp only [hrun, hset] at h
    cases h
  · rename_i hrun
    rw [hrun] at h
    cases h
    exact hends hsound

/-- A model set that a steady document compiles to is a compilation that has answered all that it
was asked for. -/
theorem exists_answers (hnames : doc.named.keys.Nodup) (hsteady : doc.Steady) {set : ModelSet}
    (h : doc.compile = .ok set) : ∃ state, doc.Answers state ∧ state.finish doc = .ok set :=
  exists_of_compile (compileNamed_settles hnames hsteady) h

end Document
end OpenApi
