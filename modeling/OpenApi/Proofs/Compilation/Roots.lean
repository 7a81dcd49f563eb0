-- SUMMARY: The roots of a compilation: the types of the named schemas, in their order.
import OpenApi.Proofs.Compilation.Links
import OpenApi.Proofs.Compilation.Result
import OpenApi.Proofs.Except
import OpenApi.Proofs.Schema.DistinctNames

/-!
# Roots

While all named schemas are compiled, the type of each is noted under its name. Names are
distinct, so what is noted are the types of the named schemas in their order, and each
points into the compilation.
-/

namespace OpenApi
namespace Document

variable {doc : Document} {set : ModelSet}

/-! ## Roots -/

/-- What is noted for a named schema: its type, and nothing for an anchor. -/
structure IsRoot (doc : Document) (models : ModelTable) (entry : String × SchemaId)
    (root : String × Option Ty) : Prop where
  name : root.1 = entry.1
  type : HasType doc .standard models entry.2 root.2
  none_iff : root.2 = none ↔ (doc.schema entry.2).isAnchor = true

theorem isRoot_of_hasType {models : ModelTable} {name : String} {id : SchemaId} {type : Option Ty}
    (h : HasType doc .standard models id type) : doc.IsRoot models (name, id) (name, type) := by
  refine ⟨rfl, h, ?_, h.of_isAnchor⟩
  rintro rfl
  cases h with
  | anchor hanchor => exact hanchor

theorem IsRoot.mono {models models' : ModelTable} {entry : String × SchemaId}
    {root : String × Option Ty} (h : doc.IsRoot models entry root) (hle : models.Le models') :
    doc.IsRoot models' entry root :=
  ⟨h.name, h.type.mono hle, h.none_iff⟩

theorem names_of_isRoot {models : ModelTable} {entries : List (String × SchemaId)}
    {roots : Keyed (Option Ty)} (h : List.Forall₂ (doc.IsRoot models) entries roots) :
    roots.keys = entries.map (·.1) := by
  induction h with
  | nil => rfl
  | cons hroot _ ih => exact congrArg₂ List.cons hroot.name ih

/-- What is noted under a name is the type of the schema of that name. -/
theorem roots_rel {models : ModelTable} {entries : List (String × SchemaId)}
    {roots : Keyed (Option Ty)} (h : List.Forall₂ (doc.IsRoot models) entries roots)
    (name : String) :
    Option.Rel (HasType doc .standard models) (List.lookup name entries) (roots.get? name) := by
  induction h with
  | nil => exact .none
  | @cons entry root _ _ hroot _ ih =>
      obtain ⟨other, id⟩ := entry
      obtain ⟨other', type⟩ := root
      obtain rfl : other' = other := hroot.name
      rw [List.lookup_cons, Keyed.get?_cons]
      cases name == other' with
      | true => exact .some hroot.type
      | false => exact ih

/-! ## Linked compilations -/

theorem linked_start : ({} : Compilation).Linked where
  memo := by simp
  schemas := List.nodup_nil
  types := by simp
  variants := by simp

variable (doc) in
/-- The named schemas that are done are noted, and the types of all roots point into the
compilation. -/
structure Noted (done : List (String × SchemaId)) (state : Compilation) : Prop where
  linked : state.Linked
  known : ∀ root ∈ state.roots, ∀ type, root.2 = some type → state.Knows type
  roots : (done.map (·.1)).Nodup →
    List.Forall₂ (doc.IsRoot state.arena.models) done state.roots

theorem Noted.addRoot {done : List (String × SchemaId)} {state before : Compilation}
    (h : doc.Noted done state) (hlinks : state.Links before)
    (hgrows : state.arena.Grows before.arena) {name : String} {id : SchemaId} {type : Option Ty}
    (htype : HasType doc .standard before.arena.models id type)
    (hknown : ∀ known, type = some known → before.Knows known) :
    doc.Noted (done ++ [(name, id)]) (before.addRoot name type) where
  linked := hlinks.linked.addRoot name type
  known := by
    intro root hmem known heq
    have hbefore : before.Knows known := by
      rcases Keyed.mem_of_mem_insert hmem with hmem | hroot
      · exact (h.known root (hlinks.roots ▸ hmem) known heq).mono hlinks.toExtends
      · exact hknown known (hroot.symm.trans heq)
    exact hbefore.addRoot name type
  roots := by
    intro hnodup
    rw [List.map_append, List.nodup_append] at hnodup
    have hold : List.Forall₂ (doc.IsRoot before.arena.models) done before.roots :=
      hlinks.roots ▸ (h.roots hnodup.1).imp fun _ _ hroot => hroot.mono hgrows.models
    have hnew : name ∉ before.roots.keys := by
      rw [names_of_isRoot hold]
      exact fun hmem => hnodup.2.2 name hmem name (by simp) rfl
    have hroots : (before.addRoot name type).roots = before.roots ++ [(name, type)] :=
      Keyed.insert_of_notMem hnew type
    rw [hroots]
    exact List.rel_append hold (.cons (isRoot_of_hasType htype) .nil)

/-- A named schema is noted with its type. -/
theorem named_noted (hnamed : doc.named.keys.Nodup) {done : List (String × SchemaId)}
    {state : Compilation} (hclosed : doc.Closed doc.Reached state) (hnoted : doc.Noted done state)
    {name : String} {id : SchemaId} (hmem : (name, id) ∈ doc.named) :
    (Compile.named doc .standard name).Ends state
      (fun _ after => doc.Noted (done ++ [(name, id)]) after) fun _ _ => True := by
  have hlookup : doc.lookup name = some id := lookup_of_mem hnamed hmem
  have hat : At doc state.arena state.unions id :=
    fun other hopen => absurd hopen (hclosed.built other)
  simp only [Compile.named, hlookup, Compile.ends_bind, Compile.ends_modify, Compile.ends_pure]
  have hsound := (requests_sound doc.reached_spreads doc.depth).type hclosed.wellFormed hat
    (.start id)
  have hlink : ((requests doc .standard doc.depth).type {} id).Ends state
      (fun type after => state.Links after ∧ Answered id after type) fun _ _ => True :=
    (requests_link doc .standard doc.depth).type hnoted.linked
  refine (hsound.and hlink).mono ?_ fun _ _ _ => trivial
  intro type after h
  obtain ⟨hanswer, hlinks, hanswered⟩ := h
  refine hnoted.addRoot hlinks hanswer.grows hanswer.hasType ?_
  rintro known rfl
  exact hanswered

/-- Before any schema is named, all that is built is linked and nothing is noted. -/
theorem schema_links {state : Compilation} (hlinked : state.Linked) (hroots : state.roots = [])
    (id : SchemaId) :
    (Compile.schema doc .standard id).Ends state
      (fun _ after => after.Linked ∧ after.roots = []) fun _ _ => True :=
  ((requests_link doc .standard doc.depth).type hlinked).imp
    fun _ _ h => ⟨h.1.linked, h.1.roots.trans hroots⟩

theorem compileNamed_noted (hnamed : doc.named.keys.Nodup) :
    doc.compileNamed.Ends {} (fun _ after => doc.Noted doc.named after) fun _ _ => True := by
  have himp {α : Type} {step : Compile α} {state : Compilation} {ok : α → Compilation → Prop}
      (h : step.Ends state ok fun _ _ => True ∧ True) : step.Ends state ok fun _ _ => True :=
    h.mono (fun _ _ => id) fun _ _ _ => trivial
  simp only [compileNamed, Compile.ends_bind]
  refine (Compile.ends_forM (fun _ now => doc.Closed doc.Reached now ∧ now.Linked ∧
    now.roots = []) ?_ ⟨closed_start, linked_start, rfl⟩).imp ?_
  · intro done entry now _ h
    obtain ⟨hclosed, hlinked, hroots⟩ := h
    obtain ⟨name, id⟩ := entry
    dsimp only
    split
    · rw [Compile.ends_discard]
      apply (himp ((schema_ends doc.reached_spreads hclosed (.start id)).and
        (schema_links hlinked hroots id))).imp
      exact fun _ _ h => ⟨h.1.1, h.2⟩
    · exact ⟨hclosed, hlinked, hroots⟩
  · intro _ first h
    obtain ⟨hclosed, hlinked, hroots⟩ := h
    have hnoted : doc.Noted [] first := ⟨hlinked, by simp [hroots], fun _ => hroots ▸ .nil⟩
    refine (Compile.ends_forM (fun done now => doc.Closed doc.Reached now ∧
      doc.Noted done now) ?_ ⟨hclosed, hnoted⟩).imp fun _ _ h => h.2
    intro done entry now hmem h
    obtain ⟨hclosed, hnoted⟩ := h
    rw [Compile.ends_discard]
    apply (himp ((named_ends hclosed entry.1).and (named_noted hnamed hclosed hnoted hmem))).imp
    exact fun _ _ h => ⟨h.1.1, h.2⟩

/-! ## Finishing -/

theorem finish_tables {state : Compilation} (h : state.finish doc = .ok set) :
    set.bySchema = state.memo ∧ set.roots = state.roots ∧ set.anchors = state.anchors ∧
      set.models.map some = state.slots := by
  obtain ⟨models, hmodels, h⟩ := exists_of_bind_eq_ok h
  cases h
  refine ⟨rfl, rfl, rfl, ?_⟩
  rw [List.map_toArray, ← Compilation.modelsOf_eq_ok hmodels, Array.toArray_toList]

/-- A model set is a finished compilation in which the named schemas are noted. -/
theorem exists_noted (hnamed : doc.named.keys.Nodup) (h : doc.compile = .ok set) :
    ∃ state, doc.Noted doc.named state ∧ state.finish doc = .ok set :=
  exists_of_compile (compileNamed_noted hnamed) h

/-- The roots of a model set are the named schemas of its document in their order. -/
theorem compile_roots (hnamed : doc.named.keys.Nodup) (h : doc.compile = .ok set) :
    List.Forall₂ (doc.IsRoot set.forSchema) doc.named set.roots := by
  obtain ⟨state, hnoted, hfinish⟩ := exists_noted hnamed h
  have hmodels : state.arena.models = set.forSchema := by
    rw [← Compilation.arena_finish hfinish]
    rfl
  rw [(finish_tables hfinish).2.1, ← hmodels]
  exact hnoted.roots hnamed

end Document
end OpenApi
