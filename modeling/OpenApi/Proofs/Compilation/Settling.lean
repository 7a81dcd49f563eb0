-- SUMMARY: Each step of a pass settles what it is asked for, or fails as sound documents may.
import OpenApi.Proofs.Compilation.Settled

/-!
# Settling

Within a pass, a request for a type may be made where it is one of the requests of the pass,
where the unions and members that are being worked on lead to the schema, and where the budget
suffices. Then in a sound document it only fails at one of two loops. The laws here say so of
each step, and that a successful step leaves the compilation ready, with all that was asked for
answered. The induction is on the bound on nested requests.
-/

namespace OpenApi

open Relation (ReflTransGen TransGen)

variable {doc : Document} (registry : Registry) (pass : doc.Pass) (depth : Nat)

/-! ## Requests within a pass -/

/-- The type of a schema may be asked for. -/
structure MayAsk (state : Compilation) (context : Context) (id : SchemaId) : Prop where
  ready : state.Ready registry pass
  asks : pass.asks context id
  unions : ∀ union ∈ state.unions, TransGen doc.Passes union id
  merging : ∀ part ∈ state.merging, doc.Descends part id
  budget : doc.Sound registry → ∀ type, HasType doc registry some id type →
    state.cost doc + (type.getD (.anchor id)).size ≤ depth

/-- The merged fields of an object, or of one of its members, may be asked for. -/
structure MayMerge (state : Compilation) (context : Context) (owner id : SchemaId) : Prop where
  ready : state.Ready registry pass
  asks : pass.asks context owner
  new : ¬ pass.known owner
  object : doc.IsObject owner
  walk : ReflTransGen doc.Includes owner id
  members : (doc.schema id).allOf ≠ []
  source : (∃ m, state.model? id = some m) ∨ ∃ owner, doc.Includes owner id
  merging : ∀ part ∈ state.merging, TransGen doc.Includes part id ∨ doc.Descends part id
  inside : id ∈ state.merging → doc.Sound registry →
    doc.Loops (.failed (.cyclicAllOf (doc.schema id).label))
  budget : doc.Sound registry → state.cost doc < depth

/-- The model of a schema is being built, and the budget suffices to ask for any type. -/
structure Works (state : Compilation) (context : Context) (owner : SchemaId) : Prop where
  ready : state.Ready registry pass
  asks : pass.asks context owner
  new : ¬ pass.known owner
  model : doc.IsModel owner
  budget : doc.Sound registry → state.cost doc + (doc.schemas.size + 1) ≤ depth

/-- A type has been answered. -/
structure Types (state : Compilation) (id : SchemaId) (type : Option Ty) (after : Compilation) :
    Prop where
  leaves : state.Leaves registry pass after
  hasType : HasType doc registry after.model? id type
  answered : Answered id after type

/-- The fields of a schema have been built. -/
structure Fields (state : Compilation) (context : Context) (id : SchemaId) (fields : List Field)
    (after : Compilation) : Prop where
  leaves : state.Leaves registry pass after
  hasFields : HasFields doc (IsField doc registry after.model? context) id fields
  gathered : after.Gathered doc registry context id

/-- Some members of a schema have been merged. -/
structure Joined (state : Compilation) (context : Context) (id : SchemaId) (done : List Edge)
    (merged : List Field) (after : Compilation) : Prop where
  leaves : state.Leaves registry pass after
  members : ∀ edge ∈ done, edge ∈ (doc.schema id).allOf
  merged : ∃ parts, Contribute doc (IsField doc registry after.model? context) done parts ∧
    Merges parts merged
  gathered : ∀ edge ∈ done, doc.Mergeable edge.id ∧ after.Gathered doc registry context edge.id

/-- Some targets of a mapping have been answered. -/
structure Collected (state : Compilation) (done : List String) (types : List (Option Ty))
    (after : Compilation) : Prop where
  leaves : state.Leaves registry pass after
  types : List.Forall₂ (fun target type => ∃ variant, doc.resolve target = some variant ∧
    HasType doc registry after.model? variant type) done types
  targets : ∀ target ∈ done, ∃ variant, doc.resolve target = some variant ∧
    after.Met doc registry variant

/-- Requests that may be made are answered, or fail as they may. -/
structure Requests.Settles (ask : Requests) : Prop where
  type : ∀ {state : Compilation} {context : Context} {id : SchemaId},
    MayAsk registry pass depth state context id →
    (ask.type context id).Ends state (Types registry pass state id) (doc.Fails registry)
  merged : ∀ {state : Compilation} {context : Context} {name : String} {owner id : SchemaId},
    MayMerge registry pass depth state context owner id →
    (ask.merged context name id).Ends state (Fields registry pass state context id)
      (doc.Fails registry)

variable {registry pass depth}

/-! ## Laws of requests -/

section Laws

variable {state after : Compilation} {context : Context} {owner : SchemaId}

theorem Types.met {id : SchemaId} {type : Option Ty} (h : Types registry pass state id type after) :
    after.Met doc registry id :=
  ⟨type, h.hasType, h.answered⟩

theorem Works.builds (h : Works registry pass depth state context owner) :
    doc.Builds context owner := pass.builds h.asks h.new

theorem Works.next (h : Works registry pass depth state context owner)
    (hleaves : state.Leaves registry pass after) :
    Works registry pass depth after context owner where
  ready := hleaves.ready
  asks := h.asks
  new := h.new
  model := h.model
  budget := fun hsound => Nat.le_trans (Nat.add_le_add_right hleaves.cost_le _) (h.budget hsound)

/-- What the model needs may be asked for. -/
theorem Works.mayAsk (h : Works registry pass depth state context owner) {context' : Context}
    {child : SchemaId} (hneeds : doc.Needs context owner context' child)
    (hunions : ∀ union ∈ state.unions, TransGen doc.Passes union child)
    (hmerging : ∀ part ∈ state.merging, doc.Descends part child) :
    MayAsk registry pass depth state context' child where
  ready := h.ready
  asks := pass.needs h.asks (fun _ => h.new) hneeds
  unions := hunions
  merging := hmerging
  budget := fun hsound _ htype =>
    Nat.le_trans (Nat.add_le_add_left htype.size_le _) (h.budget hsound)

/-- One more target is answered. -/
theorem Collected.add {done : List String} {types : List (Option Ty)} {target : String}
    {variant : SchemaId} {type : Option Ty} {now : Compilation}
    (h : Collected registry pass state done types now)
    (hresolve : doc.resolve target = some variant)
    (hafter : Types registry pass now variant type after) :
    Collected registry pass state (done ++ [target]) (types ++ [type]) after where
  leaves := h.leaves.trans hafter.leaves
  types := by
    refine List.rel_append (h.types.imp ?_) (.cons ⟨variant, hresolve, hafter.hasType⟩ .nil)
    rintro target type ⟨variant, hresolve, htype⟩
    exact ⟨variant, hresolve, htype.mono hafter.leaves.models⟩
  targets := by
    rw [List.forall_mem_append, List.forall_mem_singleton]
    refine ⟨fun other hother => ?_, variant, hresolve, hafter.met⟩
    obtain ⟨variant, hresolve, hvariant⟩ := h.targets other hother
    exact ⟨variant, hresolve, hvariant.mono hafter.leaves.carries⟩

end Laws

section Steps

variable {ask : Requests} (hask : ask.Settles registry pass depth)
variable {state : Compilation} {context : Context} {name : String} {owner part : SchemaId}
include hask

/-! ## Fields -/

theorem elementType_settles {edge : Edge} (hstate : state.Ready registry pass)
    (h : MayAsk registry pass depth { state with unions := [] } {} edge.id) :
    (elementType ask edge).Ends state
      (fun type after => state.Leaves registry pass after ∧ ∃ known,
        HasType doc registry after.model? edge.id known ∧ Answered edge.id after known ∧
        type = known.getD (.anchor edge.id))
      (doc.Fails registry) := by
  simp only [elementType, Compile.ends_bind, Compile.ends_get, Compile.ends_between,
    Compile.ends_pure]
  apply (hask.type h).imp
  intro known after hafter
  have hlast : after.Agree { after with unions := state.unions } := ⟨rfl, rfl, rfl, rfl⟩
  exact ⟨hafter.leaves.agree hstate ⟨rfl, rfl, rfl, rfl⟩ hlast hafter.leaves.merging rfl,
    known, hafter.hasType, hafter.answered.mono hlast.extension, rfl⟩

theorem fieldOf_settles (h : Works registry pass depth state context owner)
    (hobject : doc.IsObject owner) {edge : Edge} (hholds : doc.Holds owner name edge)
    (hmerging : ∀ part ∈ state.merging, doc.Descends part edge.id) (schema : Schema) :
    (fieldOf doc ask context schema name edge).Ends state
      (fun field after => state.Leaves registry pass after ∧
        IsField doc registry after.model? context schema (name, edge) field ∧
        (context.narrow name = .ok none → after.Met doc registry edge.id))
      (doc.Fails registry) := by
  simp only [fieldOf, Compile.ends_bind, Compile.ends_ofExcept]
  refine ⟨?_, ?_⟩
  · intro answer hnarrow
    cases answer with
    | some tag =>
        exact ⟨.refl h.ready, ⟨.narrowed hnarrow, rfl⟩,
          fun hnone => by cases hnarrow.symm.trans hnone⟩
    | none =>
        simp only [Compile.ends_bind, Compile.ends_pure]
        have hask' : MayAsk registry pass depth { state with unions := [] } {} edge.id :=
          { ready := h.ready.agree ⟨rfl, rfl, rfl, rfl⟩ h.ready.merging
            asks := pass.needs h.asks (fun _ => h.new) (.field hobject hholds hnarrow)
            unions := by simp
            merging := hmerging
            budget := fun hsound type htype =>
              Nat.le_trans (Nat.add_le_add_left htype.size_le _) (h.budget hsound) }
        apply (elementType_settles hask h.ready hask').imp
        rintro _ after ⟨hleaves, known, hknown, hanswered, rfl⟩
        exact ⟨hleaves, ⟨.plain hnarrow ⟨known, hknown, rfl⟩, rfl⟩,
          fun _ => ⟨known, hknown, hanswered⟩⟩
  · -- A sound document leaves no property without a type.
    intro error hnarrow hsound
    obtain ⟨type, htype⟩ := hsound.fields context owner name edge h.builds hobject hholds
    cases htype with
    | narrowed hnarrow' | plain hnarrow' => cases hnarrow.symm.trans hnarrow'

theorem fieldsOf_settles (h : Works registry pass depth state context owner)
    (hobject : doc.IsObject owner) (hwalk : ReflTransGen doc.Includes owner part)
    (hmerging : ∀ member ∈ state.merging, doc.Reaches member part) :
    (fieldsOf doc ask context (doc.schema part)).Ends state
      (fun fields after => state.Leaves registry pass after ∧
        List.Forall₂ (IsField doc registry after.model? context (doc.schema part))
          (doc.schema part).properties fields ∧
        ∀ entry ∈ (doc.schema part).properties, context.narrow entry.1 = .ok none →
          after.Met doc registry entry.2.id)
      (doc.Fails registry) := by
  refine Compile.ends_mapM (fun done (fields : List Field) now =>
    state.Leaves registry pass now ∧
      List.Forall₂ (IsField doc registry now.model? context (doc.schema part)) done fields ∧
      ∀ entry ∈ done, context.narrow entry.1 = .ok none → now.Met doc registry entry.2.id) ?_
    ⟨.refl h.ready, .nil, by simp⟩
  rintro done ⟨name, edge⟩ fields now hmem ⟨hleaves, hfields, hmet⟩
  have hdown : ∀ member ∈ now.merging, doc.Descends member edge.id := by
    rw [hleaves.merging]
    exact fun member hmember => (hmerging member hmember).below (.field hmem)
  apply (fieldOf_settles hask (h.next hleaves) hobject ⟨part, hwalk, hmem⟩ hdown _).imp
  rintro field after ⟨hleaves', hfield, hfieldMet⟩
  have hold := hfields.imp fun _ _ => IsField.mono hleaves'.models
  refine ⟨hleaves.trans hleaves', List.rel_append hold (.cons hfield .nil), ?_⟩
  simp only [List.forall_mem_append, List.forall_mem_singleton]
  exact ⟨fun entry hentry hnone =>
    (hmet entry hentry hnone).mono hleaves'.carries, hfieldMet⟩

/-! ## Merging -/

theorem contribution_settles (h : Works registry pass depth state context owner)
    (hobject : doc.IsObject owner) (hwalk : ReflTransGen doc.Includes owner part) {member : Edge}
    (hmem : member ∈ (doc.schema part).allOf)
    (hmerging : ∀ other ∈ state.merging,
      TransGen doc.Includes other member.id ∨ doc.Descends other member.id) :
    (contribution doc ask context name (doc.schema part) member).Ends state
      (fun fields after => Fields registry pass state context member.id fields after ∧
        doc.Mergeable member.id)
      (doc.Fails registry) := by
  have hincludes : doc.Includes part member.id := ⟨member, hmem, rfl⟩
  have hwalk' : TransGen doc.Includes owner member.id := .tail' hwalk hincludes
  rcases contribution_cases doc context name (doc.schema part) member with
    ⟨hne, heq⟩ | ⟨⟨hnone, htype⟩, heq⟩ | ⟨hnot, identity, label, heq⟩
  · have hmerge : MayMerge registry pass depth state context owner member.id :=
      { ready := h.ready
        asks := h.asks
        new := h.new
        object := hobject
        walk := hwalk'.to_reflTransGen
        members := hne
        source := .inr ⟨part, hincludes⟩
        merging := hmerging
        inside := fun hmember hsound =>
          hsound.loops_of_merging (pass.asked h.asks) hobject hwalk' hne (hmerging _ hmember)
        budget := fun hsound => Nat.lt_of_lt_of_le (by omega) (h.budget hsound) }
    rw [heq]
    exact (hask.merged hmerge).imp fun fields after hafter => ⟨hafter, .inl hne⟩
  · have hreaches : ∀ other ∈ state.merging, doc.Reaches other member.id := by
      intro other hother
      rcases hmerging other hother with hinner | hdown
      · exact Document.reaches_of_includes hinner.to_reflTransGen
      · exact hdown.reaches
    rw [heq]
    apply (fieldsOf_settles hask h hobject hwalk'.to_reflTransGen hreaches).imp
    rintro fields after ⟨hleaves, hfields, hmet⟩
    refine ⟨⟨hleaves, .plain hnone hfields, .of_members hmet ?_⟩, .inr ⟨hnone, htype⟩⟩
    simp [Schema.allOf_of_none hnone]
  · rw [heq, Compile.ends_throw]
    intro hsound
    exact absurd ((hsound.members owner part (pass.asked h.asks) hobject hwalk).2 member hmem) hnot

/-- One more member is merged. -/
theorem mergeMember_settles (h : Works registry pass depth state context owner)
    (hobject : doc.IsObject owner) (hwalk : ReflTransGen doc.Includes owner part)
    (hmerging : ∀ other ∈ state.merging,
      ReflTransGen doc.Includes other part ∨ doc.Descends other part)
    {done : List Edge} {member : Edge} {merged : List Field} {now : Compilation}
    (hmem : member ∈ (doc.schema part).allOf)
    (hjoined : Joined registry pass state context part done merged now) :
    (contribution doc ask context name (doc.schema part) member).Ends now
      (fun fields after =>
        (∀ next, absorb name merged fields = .ok next →
          Joined registry pass state context part (done ++ [member]) next after) ∧
        ∀ error, absorb name merged fields = .error error →
          doc.Fails registry (.failed error) after)
      (doc.Fails registry) := by
  obtain ⟨parts, hparts, hmerges⟩ := hjoined.merged
  have hmerging' : ∀ other ∈ now.merging,
      TransGen doc.Includes other member.id ∨ doc.Descends other member.id := by
    have hincludes : doc.Includes part member.id := ⟨member, hmem, rfl⟩
    rw [hjoined.leaves.merging]
    exact fun other hother =>
      (hmerging other hother).imp (.tail' · hincludes) (·.beside (.member hmem))
  apply (contribution_settles hask (h.next hjoined.leaves) hobject hwalk hmem hmerging').imp
  rintro fields after ⟨hafter, hmergeable⟩
  have hmembers : ∀ edge ∈ done ++ [member], edge ∈ (doc.schema part).allOf := by
    rw [List.forall_mem_append, List.forall_mem_singleton]
    exact ⟨hjoined.members, hmem⟩
  have hparts' : Contribute doc (IsField doc registry after.model? context) (done ++ [member])
      (parts ++ fields) := by
    have hall := (hparts.imp fun _ _ _ => IsField.mono hafter.leaves.models).append
      (.cons hafter.hasFields .nil)
    rwa [List.append_nil] at hall
  have hgathered : ∀ edge ∈ done ++ [member],
      doc.Mergeable edge.id ∧ after.Gathered doc registry context edge.id := by
    rw [List.forall_mem_append, List.forall_mem_singleton]
    exact ⟨fun edge hedge =>
      (hjoined.gathered edge hedge).imp_right (·.mono hafter.leaves.carries),
      hmergeable, hafter.gathered⟩
  refine ⟨fun next habsorb => ⟨hjoined.leaves.trans hafter.leaves, hmembers,
    ⟨_, hparts', hmerges.absorb habsorb⟩, hgathered⟩, fun error habsorb => ?_⟩
  exact Document.fails_of_absorb h.builds hobject
    (Document.allOf_ne_nil_of_includes hwalk (List.ne_nil_of_mem hmem)) hmerges
    (Document.holdsType_of_contribute hwalk hmembers hparts') habsorb after

theorem mergeMembers_settles (h : Works registry pass depth state context owner)
    (hobject : doc.IsObject owner) (hwalk : ReflTransGen doc.Includes owner part)
    (hne : (doc.schema part).allOf ≠ [])
    (hmerging : ∀ other ∈ state.merging,
      ReflTransGen doc.Includes other part ∨ doc.Descends other part) :
    (mergeMembers doc ask context name (doc.schema part)).Ends state
      (Fields registry pass state context part) (doc.Fails registry) := by
  simp only [mergeMembers, Compile.ends_bind, Compile.ends_ofExcept, Compile.ends_pure]
  refine (Compile.ends_foldlM (Joined registry pass state context part)
    (fun done member merged now hmem hjoined => ?_)
    ⟨.refl h.ready, by simp, ⟨[], .nil, .nil⟩, by simp⟩).imp ?_
  · simp only [Compile.ends_bind, Compile.ends_ofExcept]
    exact mergeMember_settles hask h hobject hwalk hmerging hmem hjoined
  · intro inherited now hjoined
    obtain ⟨parts, hparts, hmerges⟩ := hjoined.merged
    have hreaches : ∀ other ∈ now.merging, doc.Reaches other part := by
      rw [hjoined.leaves.merging]
      exact fun other hother =>
        (hmerging other hother).elim Document.reaches_of_includes (·.reaches)
    apply (fieldsOf_settles hask (h.next hjoined.leaves) hobject hwalk hreaches).imp
    rintro own after ⟨hleaves, hown, hmet⟩
    have hparts' := hparts.imp fun _ _ _ => IsField.mono hleaves.models
    have hgathered : after.Gathered doc registry context part := .of_members hmet
      fun edge hedge => (hjoined.gathered edge hedge).imp_right (·.mono hleaves.carries)
    have htypes : ∀ field ∈ parts ++ own,
        doc.HoldsType registry after.model? context owner field.name field.type := by
      rw [List.forall_mem_append]
      refine ⟨Document.holdsType_of_contribute hwalk hjoined.members hparts', ?_⟩
      intro field hfield
      obtain ⟨property, hproperty, hlaw⟩ := exists_property hown hfield
      exact Document.holdsType_of_isField hwalk hproperty hlaw
    refine ⟨fun merged habsorb => ⟨hjoined.leaves.trans hleaves,
      .merged hne hparts' hown (hmerges.absorb habsorb), hgathered⟩, fun error habsorb => ?_⟩
    exact Document.fails_of_absorb h.builds hobject
      (Document.allOf_ne_nil_of_includes hwalk hne) hmerges htypes habsorb after

theorem mergedFields_settles
    (h : MayMerge registry pass (depth + 1) state context owner part) :
    (mergedFields doc ask context name part).Ends state
      (Fields registry pass state context part) (doc.Fails registry) := by
  simp only [mergedFields, Compile.ends_bind, Compile.ends_get]
  split
  · rename_i hmem
    rw [Compile.ends_throw]
    exact h.inside (by simpa using hmem)
  · rename_i hnew
    rw [Compile.ends_between]
    have hstart : state.Agree { state with merging := part :: state.merging } :=
      ⟨rfl, rfl, rfl, rfl⟩
    have hready : Compilation.Ready registry pass
        { state with merging := part :: state.merging } :=
      h.ready.agree hstart (List.forall_mem_cons.mpr ⟨⟨h.members, h.source⟩, h.ready.merging⟩)
    have hlt : part < doc.schemas.size := by
      apply doc.lt_size_of_ne
      intro hschema
      exact h.members (by simp [hschema])
    have hworks : Works registry pass depth { state with merging := part :: state.merging }
        context owner :=
      { ready := hready
        asks := h.asks
        new := h.new
        model := h.object.model
        budget := fun hsound => Nat.le_trans (Compilation.cost_merging hlt (by simpa using hnew))
          (Nat.lt_succ_iff.mp (h.budget hsound)) }
    have hmerging : ∀ other ∈ part :: state.merging,
        ReflTransGen doc.Includes other part ∨ doc.Descends other part := by
      rw [List.forall_mem_cons]
      exact ⟨.inl .refl, fun other hother => (h.merging other hother).imp_left (·.to_reflTransGen)⟩
    apply (mergeMembers_settles hask hworks h.object h.walk h.members hmerging).imp
    intro fields after hafter
    have hlast : after.Agree { after with merging := after.merging.erase part } :=
      ⟨rfl, rfl, rfl, rfl⟩
    have hmerging' : after.merging.erase part = state.merging := by
      simp [hafter.leaves.merging]
    exact ⟨hafter.leaves.agree h.ready hstart hlast hmerging' hafter.leaves.unions,
      hafter.hasFields, hafter.gathered.mono hlast.carries⟩

/-! ## Unions and anchors -/

theorem unionOf_settles (h : Works registry pass depth state context owner)
    (hunions : ∀ union ∈ state.unions, TransGen doc.Passes union owner)
    (hmerging : ∀ part ∈ state.merging, doc.Descends part owner)
    (hne : (doc.schema owner).alternatives ≠ []) :
    (unionOf doc ask context owner (doc.schema owner).alternatives).Ends state
      (fun shape after => state.Leaves registry pass after ∧
        Depicts doc registry after.model? context owner shape ∧
        ∀ edge ∈ (doc.schema owner).alternatives, after.Met doc registry edge.id)
      (doc.Fails registry) := by
  have hstart : state.Agree { state with unions := owner :: state.unions } := ⟨rfl, rfl, rfl, rfl⟩
  have hready := h.ready.agree hstart h.ready.merging
  have hworks : Works registry pass depth { state with unions := owner :: state.unions }
      context owner := ⟨hready, h.asks, h.new, h.model, h.budget⟩
  simp only [unionOf, Compile.ends_bind, Compile.ends_between, Compile.ends_pure, alternativesOf]
  refine (Compile.ends_foldlM (fun done (found : List (Edge × Ty)) now =>
    Compilation.Leaves registry pass { state with unions := owner :: state.unions } now ∧
      HasAlternatives doc registry now.model? done found ∧
      ∀ edge ∈ done, now.Met doc registry edge.id) ?_ ⟨.refl hready, .nil, by simp⟩).imp ?_
  · rintro done member found now hmem ⟨hleaves, hfound, hmet⟩
    have hpasses : doc.Passes owner member.id := .alternative h.model hmem
    have hmember : MayAsk registry pass depth now _ member.id :=
      (hworks.next hleaves).mayAsk (.alternative h.model hmem)
        (by
          rw [hleaves.unions, List.forall_mem_cons]
          exact ⟨.single hpasses, fun union hunion => (hunions union hunion).tail hpasses⟩)
        (by
          rw [hleaves.merging]
          exact fun part hpart => (hmerging part hpart).beside (.alternative hmem))
    simp only [Compile.ends_bind]
    apply (hask.type hmember).imp
    intro type after hafter
    have hold := hfound.mono hafter.leaves.models
    have hmet' : ∀ edge ∈ done ++ [member], after.Met doc registry edge.id := by
      rw [List.forall_mem_append, List.forall_mem_singleton]
      exact ⟨fun edge hedge => (hmet edge hedge).mono hafter.leaves.carries,
        hafter.met⟩
    cases type with
    | none =>
        have hall := hold.append (.anchor hafter.hasType .nil)
        rw [List.append_nil] at hall
        exact ⟨hleaves.trans hafter.leaves, hall, hmet'⟩
    | some type =>
        exact ⟨hleaves.trans hafter.leaves, hold.append (.typed hafter.hasType .nil), hmet'⟩
  · rintro found after ⟨hleaves, hfound, hmet⟩
    have hlast : after.Agree { after with unions := after.unions.tail } := ⟨rfl, rfl, rfl, rfl⟩
    refine ⟨hleaves.agree h.ready hstart hlast hleaves.merging (by rw [hleaves.unions]; rfl),
      .union hne (hfound.mono hlast.models), ?_⟩
    exact fun edge hedge => (hmet edge hedge).mono hlast.carries

theorem variantsOf_settles {id : SchemaId} (hready : state.Ready registry pass)
    (hasks : pass.asks context id) (hanchor : (doc.schema id).isAnchor = true)
    (hunions : ∀ union ∈ state.unions, TransGen doc.Passes union id)
    (hmerging : ∀ part ∈ state.merging, doc.Descends part id)
    (hbudget : doc.Sound registry → state.cost doc + (doc.schemas.size + 1) ≤ depth) :
    (variantsOf doc ask context (doc.schema id) ((doc.schema id).mapping.map (·.2))).Ends state
      (fun variants after => state.Leaves registry pass after ∧
        HasVariants doc registry after.model? id variants ∧
        ∀ target ∈ (doc.schema id).mapping.map (·.2), ∃ variant,
          doc.resolve target = some variant ∧ after.Met doc registry variant)
      (doc.Fails registry) := by
  have hnot : doc.IsModel id → ¬ pass.known id := by
    intro hmodel
    simp [hmodel.anchor] at hanchor
  refine (Compile.ends_foldlM (fun done (variants : List ModelId) now =>
    ∃ types, Collected registry pass state done types now ∧ variants = modelsAmong types) ?_
    ⟨[], ⟨.refl hready, .nil, by simp⟩, rfl⟩).imp ?_
  · rintro done target variants now hmem ⟨types, hcollected, rfl⟩
    obtain ⟨tag, hentry⟩ : ∃ tag, (tag, target) ∈ (doc.schema id).mapping := by
      obtain ⟨⟨tag, _⟩, hentry, rfl⟩ := List.mem_map.mp hmem
      exact ⟨tag, hentry⟩
    cases hresolve : doc.resolve target with
    | none =>
        intro hsound
        obtain ⟨variant, hvariant⟩ :=
          hsound.targets id tag target (pass.asked hasks) hanchor hentry
        cases hresolve.symm.trans hvariant
    | some variant =>
        have hleaves := hcollected.leaves
        have hpasses : doc.Passes id variant := .variant hanchor hentry hresolve
        have hvariant : MayAsk registry pass depth now _ variant :=
          { ready := hleaves.ready
            asks := pass.needs hasks hnot (.variant hanchor hentry hresolve)
            unions := by
              rw [hleaves.unions]
              exact fun union hunion => (hunions union hunion).tail hpasses
            merging := by
              rw [hleaves.merging]
              exact fun part hpart => (hmerging part hpart).beside (.variant hentry hresolve)
            budget := fun hsound _ htype =>
              Nat.le_trans (Nat.add_le_add hleaves.cost_le htype.size_le) (hbudget hsound) }
        simp only [Compile.ends_bind]
        apply (hask.type hvariant).imp
        intro type after hafter
        have hall := hcollected.add hresolve hafter
        split
        · exact ⟨_, hall, (modelsAmong_append_some rfl).symm⟩
        · rename_i hother
          exact ⟨_, hall, (modelsAmong_append_none (modelOf_eq_none hother)).symm⟩
  · rintro variants after ⟨types, hcollected, hvariants⟩
    exact ⟨hcollected.leaves, ⟨types, hcollected.types, hvariants⟩, hcollected.targets⟩

theorem registerAnchor_settles {id : SchemaId}
    (h : MayAsk registry pass (depth + 1) state context id)
    (hanchor : (doc.schema id).isAnchor = true) :
    (registerAnchor doc ask context id).Ends state
      (fun _ after => Types registry pass state id none after) (doc.Fails registry) := by
  have htype {models : ModelTable} : HasType doc registry models id none := .anchor hanchor
  simp only [registerAnchor, Compile.ends_bind, Compile.ends_get]
  split
  · rename_i hknown
    exact ⟨.refl h.ready, htype, hknown⟩
  · rename_i hnew
    simp only [Compile.ends_bind, Compile.ends_modify]
    have hadded : ((state.addAnchor id (doc.schema id).label).anchor? id).isSome = true :=
      Compilation.isSome_anchor?_addAnchor.mpr (.inl rfl)
    have hready := h.ready.addAnchor hanchor (pass.asked h.asks)
    split
    · rename_i hnone
      have hmapping : (doc.schema id).mapping = [] := by simp [Schema.mapping, hnone]
      exact ⟨.addAnchor h.ready hready hmapping, htype, hadded⟩
    · rename_i mapping hsome
      have hmapping : (doc.schema id).mapping = mapping := by simp [Schema.mapping, hsome]
      have hlt : id < doc.schemas.size := by
        apply doc.lt_size_of_ne
        intro hschema
        simp [hschema] at hsome
      have hbudget : doc.Sound registry →
          (state.addAnchor id (doc.schema id).label).cost doc + (doc.schemas.size + 1) ≤ depth := by
        intro hsound
        have hcost := Compilation.cost_addAnchor hlt hanchor (by simpa using hnew)
          (doc.schema id).label
        have hall := h.budget hsound none htype
        have hpos := Ty.size_pos (.anchor id)
        simp only [Option.getD_none] at hall
        omega
      simp only [← hmapping, Compile.ends_bind, Compile.ends_modify]
      apply (variantsOf_settles hask hready h.asks hanchor h.unions h.merging hbudget).imp
      rintro variants after ⟨hleaves, hvariants, hmet⟩
      refine ⟨.setVariants h.ready hleaves hvariants fun entry hentry =>
        hmet entry.2 (List.mem_map_of_mem hentry), htype, ?_⟩
      exact Compilation.isSome_anchor?_setVariants.mpr (hleaves.anchors id hadded)

/-! ## Models -/

theorem shapeOf_settles (h : Works registry pass depth state context owner)
    (hunions : ∀ union ∈ state.unions, TransGen doc.Passes union owner)
    (hmerging : ∀ part ∈ state.merging, doc.Descends part owner)
    (hinside : owner ∈ state.merging → doc.Sound registry →
      doc.Loops (.failed (.cyclicAllOf (doc.schema owner).label)))
    (hknown : ∃ m, state.model? owner = some m) :
    (shapeOf doc ask context name owner).Ends state
      (fun shape after => state.Leaves registry pass after ∧
        after.Depicted doc registry { name, schema := owner, shape })
      (doc.Fails registry) := by
  -- An object is done with what its members and properties bring along.
  have hobject (hnil : (doc.schema owner).alternatives = []) {fields : List Field}
      {after : Compilation} (hafter : Fields registry pass state context owner fields after) :
      state.Leaves registry pass after ∧
        after.Depicted doc registry { name, schema := owner, shape := .object fields } := by
    refine ⟨hafter.leaves, ⟨context, h.builds, .object hnil hafter.hasFields, ?_⟩,
      fun _ => hafter.gathered.mergeable⟩
    exact fun context' child => Compilation.met_of_needs h.model
      (fun _ => hafter.gathered.met) (by simp [hnil])
  rcases shapeOf_cases doc context name owner with
    ⟨⟨members, hcomb⟩, heq⟩ | ⟨hcomb, heq⟩ | ⟨hcomb, heq⟩
  · have hnil : (doc.schema owner).alternatives = [] := by simp [Schema.alternatives, hcomb]
    have hmerge : MayMerge registry pass (depth + 1) state context owner owner :=
      { ready := h.ready
        asks := h.asks
        new := h.new
        object := ⟨h.model, hnil⟩
        walk := .refl
        members := Schema.allOf_ne_nil_of_combination hcomb
        source := .inl hknown
        merging := fun part hpart => .inr (hmerging part hpart)
        inside := hinside
        budget := fun hsound => by
          have hbudget := h.budget hsound
          omega }
    simp only [heq, Compile.ends_bind, Compile.ends_pure]
    exact (mergedFields_settles hask hmerge).imp fun _ _ => hobject hnil
  · have hne : (doc.schema owner).alternatives ≠ [] := by
      rcases hcomb with hcomb | hcomb <;>
        exact Schema.alternatives_ne_nil (by simp [hcomb]) (by simp [hcomb])
    rw [heq]
    apply (unionOf_settles hask h hunions hmerging hne).imp
    rintro shape after ⟨hleaves, hdepicts, hmet⟩
    refine ⟨hleaves, ⟨context, h.builds, hdepicts, fun context' child => ?_⟩,
      fun hobject => absurd hobject.alternatives hne⟩
    exact Compilation.met_of_needs h.model (fun hobject => absurd hobject.alternatives hne) hmet
  · have hnil : (doc.schema owner).alternatives = [] := by simp [Schema.alternatives, hcomb]
    simp only [heq, Compile.ends_bind, Compile.ends_pure]
    apply (fieldsOf_settles hask h ⟨h.model, hnil⟩ .refl
      fun part hpart => (hmerging part hpart).reaches).imp
    rintro fields after ⟨hleaves, hfields, hmet⟩
    exact hobject hnil ⟨hleaves, .plain hcomb hfields,
      .of_members hmet (by simp [Schema.allOf_of_none hcomb])⟩

omit hask in
theorem modelName_ends_of {ok : String → Compilation → Prop}
    {fails : Stop SchemaError → Compilation → Prop} (schema : Schema)
    (hok : ∀ name anonymous, ok name { state with anonymous }) :
    (modelName schema).Ends state ok fails := by
  unfold modelName
  cases schema.title.or schema.identity with
  | some name => exact hok name state.anonymous
  | none =>
      simp only [Compile.ends_bind, Compile.ends_modify, Compile.ends_get, Compile.ends_pure]
      exact hok _ _

/-- The model of a schema is built behind an index that was reserved for it. -/
theorem reserved_settles (hlink : ask.Link) {id : SchemaId}
    (h : MayAsk registry pass (depth + 1) state context id) (hmodel : doc.IsModel id)
    (hnew : state.model? id = none) :
    (shapeOf doc ask context name id).Ends (state.reserve id)
      (fun shape after =>
        state.Leaves registry pass (after.fill state.slots.size { name, schema := id, shape }) ∧
          (after.fill state.slots.size { name, schema := id, shape }).model? id =
            some state.slots.size)
      (doc.Fails registry) := by
  have hready := h.ready.reserve hmodel hnew
  have hm : (state.reserve id).model? id = some state.slots.size := by
    rw [Compilation.model?_reserve, if_pos rfl]
  have hworks : Works registry pass depth (state.reserve id) context id :=
    { ready := hready
      asks := h.asks
      new := by
        intro hknown
        obtain ⟨m, hm⟩ := h.ready.known hmodel hknown
        simp [hnew] at hm
      model := hmodel
      budget := by
        intro hsound
        have hcost := Compilation.cost_reserve hmodel.lt_size hmodel.anchor hnew
        have hall := h.budget hsound (some (.model id)) (.model hmodel rfl)
        simp only [Option.getD_some, Ty.size] at hall
        omega }
  -- Only a member of another schema is merged before it has a model.
  have hinside : id ∈ state.merging → doc.Sound registry →
    doc.Loops (.failed (.cyclicAllOf (doc.schema id).label)) := by
    intro hmem _
    obtain ⟨hne, ⟨m, hm⟩ | ⟨owner, hincludes⟩⟩ := h.ready.merging id hmem
    · simp [hnew] at hm
    · exact .merged hincludes hne (h.merging id hmem)
  apply ((shapeOf_settles hask hworks h.unions h.merging hinside ⟨_, hm⟩).and
    (shapeOf_links hlink hready.linked id)).mono
  · rintro shape after ⟨⟨hleaves, hdepicted⟩, -, htypes⟩
    exact ⟨.fill h.ready hnew hleaves hdepicted htypes, hleaves.models id _ hm⟩
  · exact fun _ _ hfails => hfails.1

theorem buildModel_settles (hlink : ask.Link) {id : SchemaId}
    (h : MayAsk registry pass (depth + 1) state context id) (hmodel : doc.IsModel id)
    (hnew : state.model? id = none) :
    (buildModel doc ask context id).Ends state
      (fun m after => state.Leaves registry pass after ∧ after.model? id = some m)
      (doc.Fails registry) := by
  simp only [buildModel, Compile.ends_bind]
  apply modelName_ends_of
  intro name anonymous
  simp only [Compile.ends_get, Compile.ends_modify, Compile.ends_pure]
  have hagree : state.Agree { state with anonymous } := ⟨rfl, rfl, rfl, rfl⟩
  have hnamed : MayAsk registry pass (depth + 1) { state with anonymous } context id :=
    ⟨h.ready.agree hagree h.ready.merging, h.asks, h.unions, h.merging, h.budget⟩
  apply (reserved_settles hask hlink hnamed hmodel hnew).imp
  rintro shape after ⟨hleaves, hm⟩
  exact ⟨hleaves.agree h.ready hagree ⟨rfl, rfl, rfl, rfl⟩ hleaves.merging hleaves.unions, hm⟩

/-! ## Types -/

theorem modelType_settles (hlink : ask.Link) {id : SchemaId}
    (h : MayAsk registry pass (depth + 1) state context id)
    (htype : (doc.schema id).type = none ∨ (doc.schema id).type = some .object) :
    (modelType doc ask context id).Ends state (Types registry pass state id)
      (doc.Fails registry) := by
  simp only [modelType, Compile.ends_bind, Compile.ends_get]
  cases hknown : state.model? id with
  | some m =>
      simp only
      split
      · rename_i hmem
        rw [Compile.ends_throw]
        exact fun _ => .union (h.unions id (by simpa using hmem))
      · exact ⟨.refl h.ready, .model (h.ready.isModel hknown) hknown,
          h.ready.linked.lt_size_of_model? hknown⟩
  | none =>
      simp only
      split <;> simp only [Compile.ends_bind, Compile.ends_pure]
      · rename_i hanchor
        exact registerAnchor_settles hask h hanchor
      · rename_i hanchor
        have hmodel : doc.IsModel id := ⟨htype, by simpa using hanchor⟩
        apply (buildModel_settles hask hlink h hmodel hknown).imp
        rintro m after ⟨hleaves, hm⟩
        exact ⟨hleaves, .model hmodel hm, hleaves.ready.linked.lt_size_of_model? hm⟩

theorem typeOf_settles (hlink : ask.Link) {id : SchemaId}
    (h : MayAsk registry pass (depth + 1) state context id) :
    (typeOf doc registry ask context id).Ends state (Types registry pass state id)
      (doc.Fails registry) := by
  have htypes (hsound : doc.Sound registry) := hsound.types id (pass.asked h.asks)
  rcases typeOf_cases doc registry context id with
    ⟨items, htype, hitems, heq⟩ | ⟨htype, hitems, heq⟩ | ⟨primitive, htype, hscalar, heq⟩ |
      ⟨htype, heq⟩
  · -- The items start anew, and their type is smaller than that of the array.
    have hitemsAsk : MayAsk registry pass depth { state with unions := [] } {} items.id :=
      { ready := h.ready.agree ⟨rfl, rfl, rfl, rfl⟩ h.ready.merging
        asks := pass.needs h.asks
          (fun hmodel => absurd htype hmodel.not_array)
          (.item htype hitems)
        unions := by simp
        merging := fun part hpart => ⟨id, items.id, (h.merging part hpart).reaches,
          .item hitems, .refl⟩
        budget := by
          intro hsound known hknown
          have hall := h.budget hsound _ (.array htype hitems hknown)
          simp only [Option.getD_some, Ty.size] at hall
          change state.cost doc + _ ≤ depth
          omega }
    simp only [heq, Compile.ends_bind, Compile.ends_pure]
    apply (elementType_settles hask h.ready hitemsAsk).imp
    rintro _ after ⟨hleaves, known, hknown, hanswered, rfl⟩
    refine ⟨hleaves, .array htype hitems hknown, ?_⟩
    cases known <;> exact hanswered
  · rw [heq, Compile.ends_throw]
    intro hsound
    obtain ⟨type, hhas⟩ := htypes hsound
    obtain ⟨items, known, hsome, -⟩ := hhas.of_array htype
    cases hitems.symm.trans hsome
  · simp only [heq, Compile.ends_bind, Compile.ends_ofExcept, Compile.ends_pure]
    refine ⟨fun type hresolve => ⟨.refl h.ready, .scalar htype hscalar hresolve, trivial⟩, ?_⟩
    intro error herror hsound
    obtain ⟨type, hhas⟩ := htypes hsound
    obtain ⟨scalar, hresolve⟩ := hhas.of_scalar htype hscalar
    cases herror.symm.trans hresolve
  · rw [heq]
    exact modelType_settles hask hlink h htype

end Steps

/-! ## Whole requests -/

/-- All requests that may be made are answered, or stop as they may. -/
theorem requests_settle (doc : Document) (registry : Registry) (pass : doc.Pass) (depth : Nat) :
    (requests doc registry depth).Settles registry pass depth := by
  induction depth with
  | zero =>
      constructor
      · intro state context id h hsound
        obtain ⟨type, htype⟩ := hsound.types id (pass.asked h.asks)
        have hbudget := h.budget hsound type htype
        have hpos := Ty.size_pos (type.getD (.anchor id))
        omega
      · exact fun h hsound => absurd (h.budget hsound) (Nat.not_lt_zero _)
  | succ depth ih =>
      exact ⟨fun h => typeOf_settles ih (requests_link doc registry depth) h,
        fun h => mergedFields_settles ih h⟩

end OpenApi
