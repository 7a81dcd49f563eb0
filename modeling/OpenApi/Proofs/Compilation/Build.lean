-- SUMMARY: What a successful compilation builds: one law for each step, and the law of a whole run.
import OpenApi.Proofs.Compilation.Cases
import OpenApi.Proofs.Model.Arena
import OpenApi.Proofs.Step

/-!
# Building models

A step that succeeds leaves a well-formed arena with the same schemas open as
before. To know this of a request, one has to know how the open schemas stand to the
requested one: each of them leads to it, and those that are not on the chain of
unions lead to it by a walk below. Each law below says what a step answers under
that condition, given that the requests it makes answer likewise; the laws are tied
together by induction on the depth in `requests_sound`.
-/

namespace OpenApi

variable (doc : Document) (registry : Registry) (reach : Context → SchemaId → Prop)

/-! ## Conditions -/

/-- How open schemas stand to a schema whose type is asked for. -/
def At (arena : Arena) (unions : List SchemaId) (id : SchemaId) : Prop :=
  ∀ other, arena.Open other → (other ∈ unions ∧ doc.Reaches other id) ∨ doc.Descends other id

/-- How open schemas stand to a schema whose fields are asked for. -/
def Within (arena : Arena) (id : SchemaId) : Prop :=
  ∀ other, arena.Open other → doc.Reaches other id

/-- What the targets of an anchor mean has a model, unless it is of a kind that gets none. -/
def Covers (models : ModelTable) (anchor : SchemaId) : Prop :=
  ∀ tag target variant, (tag, target) ∈ (doc.schema anchor).mapping →
    doc.resolve target = some variant → doc.IsModel variant → ∃ m, models variant = some m

/-- What a step does to the state where it succeeds. -/
structure Progress (before after : Compilation) : Prop where
  wellFormed : after.arena.WellFormed doc registry reach
  grows : before.arena.Grows after.arena
  unions : after.unions = before.unions
  anchors : ∀ id, (after.anchor? id).isSome = true →
    (before.anchor? id).isSome = true ∨ Covers doc after.arena.models id

/-- What a request for a type answers. -/
structure TypeAnswer (before : Compilation) (id : SchemaId) (type : Option Ty)
    (after : Compilation) : Prop extends Progress doc registry reach before after where
  hasType : HasType doc registry after.arena.models id type
  /-- Only an anchor that is being registered is not covered yet. -/
  anchored : type = none →
    (before.anchor? id).isSome = true ∨ Covers doc after.arena.models id
  /-- A union on the chain is never answered, so an answer that is still open is a way around. -/
  chain : before.arena.Open id → id ∉ before.unions

/-- What the requests of a compilation answer where they succeed. -/
structure Requests.Sound (ask : Requests) : Prop where
  type : ∀ {context : Context} {id : SchemaId} {state : Compilation},
    state.arena.WellFormed doc registry reach → At doc state.arena state.unions id →
    reach context id →
    (ask.type context id).Ends state (TypeAnswer doc registry reach state id) fun _ _ => True
  merged : ∀ {context : Context} {name : String} {id : SchemaId} {state : Compilation},
    state.arena.WellFormed doc registry reach → Within doc state.arena id →
    doc.Lends reach context id →
    (ask.merged context name id).Ends state
      (fun fields after => Progress doc registry reach state after ∧
        Merged doc registry after.arena.models context name id fields)
      fun _ _ => True

variable {doc registry reach}

theorem Covers.mono {models models' : ModelTable} {anchor : SchemaId} (h : Covers doc models anchor)
    (hle : models.Le models') : Covers doc models' anchor := by
  intro tag target variant hentry hresolve hmodel
  obtain ⟨m, hm⟩ := h tag target variant hentry hresolve hmodel
  exact ⟨m, hle variant m hm⟩

theorem Progress.refl {state : Compilation} (h : state.arena.WellFormed doc registry reach) :
    Progress doc registry reach state state := ⟨h, .refl _, rfl, fun _ => .inl⟩

theorem Progress.trans {first second third : Compilation}
    (h : Progress doc registry reach first second) (h' : Progress doc registry reach second third) :
    Progress doc registry reach first third where
  wellFormed := h'.wellFormed
  grows := h.grows.trans h'.grows
  unions := h'.unions.trans h.unions
  anchors := by
    intro id hanchor
    rcases h'.anchors id hanchor with hanchor | hcovers
    · exact (h.anchors id hanchor).imp_right fun hcovers => hcovers.mono h'.grows.models
    · exact .inr hcovers

theorem At.within {arena : Arena} {unions : List SchemaId} {id : SchemaId}
    (h : At doc arena unions id) : Within doc arena id := by
  intro other hopen
  rcases h other hopen with ⟨-, hreach⟩ | hdown
  · exact hreach
  · exact hdown.reaches

theorem At.beside {arena : Arena} {unions : List SchemaId} {id next : SchemaId}
    (h : At doc arena unions id) (hstep : doc.Beside id next) : At doc arena unions next := by
  intro other hopen
  rcases h other hopen with ⟨hmem, hreach⟩ | hdown
  · exact .inl ⟨hmem, hreach.beside hstep⟩
  · exact .inr (hdown.beside hstep)

theorem Within.below {arena : Arena} {id child : SchemaId} (h : Within doc arena id)
    (hstep : doc.Below id child) : At doc arena [] child :=
  fun other hopen => .inr ((h other hopen).below hstep)

theorem Within.beside {arena : Arena} {id next : SchemaId} (h : Within doc arena id)
    (hstep : doc.Beside id next) : Within doc arena next :=
  fun other hopen => (h other hopen).beside hstep

theorem At.grows {before after : Arena} {unions : List SchemaId} {id : SchemaId}
    (h : At doc before unions id) (hgrows : before.Grows after) : At doc after unions id :=
  fun other hopen => h other ((hgrows.opens other).mp hopen)

theorem Within.grows {before after : Arena} {id : SchemaId} (h : Within doc before id)
    (hgrows : before.Grows after) : Within doc after id :=
  fun other hopen => h other ((hgrows.opens other).mp hopen)

/-! ## Fields -/

variable {ask : Requests} (hspreads : doc.Spreads reach) (hask : ask.Sound doc registry reach)
variable {context : Context} {name : String}
variable {state : Compilation} (hwf : state.arena.WellFormed doc registry reach)
include hspreads hask hwf

omit hspreads in
theorem elementType_ends {edge : Edge} (hat : At doc state.arena [] edge.id)
    (hreached : reach {} edge.id) :
    (elementType ask edge).Ends state
      (fun type after => Progress doc registry reach state after ∧
        HasElementType doc registry after.arena.models edge type) fun _ _ => True := by
  simp only [elementType, Compile.ends_bind, Compile.ends_get, Compile.ends_between,
    Compile.ends_pure]
  have hwf' : ({ state with unions := [] } : Compilation).arena.WellFormed doc registry reach := hwf
  -- An item is asked for in no context and with an empty chain, which is restored afterwards.
  apply (hask.type hwf' hat hreached).imp
  intro type after h
  exact ⟨⟨h.wellFormed, h.grows, rfl, h.anchors⟩, type, h.hasType, rfl⟩

theorem fieldOf_ends {owner : SchemaId} {edge : Edge} (hwithin : Within doc state.arena owner)
    (hlends : doc.Lends reach context owner) (hbelow : doc.Below owner edge.id) :
    (fieldOf doc ask context (doc.schema owner) name edge).Ends state
      (fun field after => Progress doc registry reach state after ∧
        IsField doc registry after.arena.models context (doc.schema owner) (name, edge) field)
      fun _ _ => True := by
  simp only [fieldOf, Compile.ends_bind, Compile.ends_ofExcept]
  refine ⟨?_, fun _ _ => trivial⟩
  intro answer hnarrow
  cases answer with
  | some tag => exact ⟨.refl hwf, .narrowed hnarrow, rfl⟩
  | none =>
      simp only [Compile.ends_bind, Compile.ends_pure]
      apply (elementType_ends hask hwf (hwithin.below hbelow) (hspreads.child hlends hbelow)).imp
      intro type after h
      obtain ⟨hprogress, htype⟩ := h
      exact ⟨hprogress, .plain hnarrow htype, rfl⟩

theorem fieldsOf_ends {owner : SchemaId} (hwithin : Within doc state.arena owner)
    (hlends : doc.Lends reach context owner) :
    (fieldsOf doc ask context (doc.schema owner)).Ends state
      (fun fields after => Progress doc registry reach state after ∧
        AreFields doc registry after.arena.models context (doc.schema owner) fields)
      fun _ _ => True := by
  refine Compile.ends_mapM (fun done fields now => Progress doc registry reach state now ∧
    List.Forall₂ (IsField doc registry now.arena.models context (doc.schema owner)) done fields)
    ?_ ⟨.refl hwf, .nil⟩
  intro done entry fields now hmem h
  obtain ⟨name, edge⟩ := entry
  obtain ⟨hprogress, hfields⟩ := h
  apply (fieldOf_ends hspreads hask hprogress.wellFormed (hwithin.grows hprogress.grows) hlends
    (.field hmem)).imp
  intro field after h
  obtain ⟨hprogress', hfield⟩ := h
  -- What was said of the fields that are done still holds with more models.
  have hold : List.Forall₂ (IsField doc registry after.arena.models context (doc.schema owner))
      done fields := hfields.imp fun _ _ h => ⟨h.type.mono hprogress'.grows.models, h.rest⟩
  exact ⟨hprogress.trans hprogress', List.rel_append hold (.cons hfield .nil)⟩

/-! ## Merging -/

theorem contribution_ends {owner : SchemaId} {member : Edge}
    (hwithin : Within doc state.arena member.id) (hlends : doc.Lends reach context member.id) :
    (contribution doc ask context name (doc.schema owner) member).Ends state
      (fun fields after => Progress doc registry reach state after ∧
        ∀ start next, absorb name start fields = .ok next →
          Inherits doc registry after.arena.models context name [member] start next)
      fun _ _ => True := by
  rcases contribution_cases doc context name (doc.schema owner) member with
    ⟨hne, heq⟩ | ⟨⟨hcomb, -⟩, heq⟩ | ⟨-, identity, label, heq⟩
  · rw [heq]
    apply (hask.merged hwf hwithin hlends).imp
    intro fields after h
    obtain ⟨hprogress, inherited, own, part, hinherited, hown, hpart, rfl⟩ := h
    exact ⟨hprogress, fun start next habsorb =>
      .merged hne hinherited hown hpart habsorb .nil⟩
  · rw [heq]
    apply (fieldsOf_ends hspreads hask hwf hwithin hlends).imp
    intro fields after h
    obtain ⟨hprogress, hfields⟩ := h
    exact ⟨hprogress, fun start next habsorb => .object hcomb hfields habsorb .nil⟩
  · rw [heq]
    exact (Compile.ends_throw _).mpr trivial

theorem mergeMembers_ends {id : SchemaId} (hwithin : Within doc state.arena id)
    (hlends : doc.Lends reach context id) :
    (mergeMembers doc ask context name (doc.schema id)).Ends state
      (fun fields after => Progress doc registry reach state after ∧
        Merged doc registry after.arena.models context name id fields)
      fun _ _ => True := by
  simp only [mergeMembers, Compile.ends_bind, Compile.ends_ofExcept, Compile.ends_pure]
  refine (Compile.ends_foldlM (fun done fields now => Progress doc registry reach state now ∧
    Inherits doc registry now.arena.models context name done [] fields) ?_
    ⟨.refl hwf, .nil⟩).imp ?_
  · intro done member start now hmem h
    obtain ⟨hprogress, hdone⟩ := h
    simp only [Compile.ends_bind, Compile.ends_ofExcept]
    apply (contribution_ends hspreads hask hprogress.wellFormed
      ((hwithin.beside (.member hmem)).grows hprogress.grows) (hlends.member hmem)).imp
    intro fields after h
    obtain ⟨hprogress', hmember⟩ := h
    refine ⟨fun next habsorb => ⟨hprogress.trans hprogress', ?_⟩, fun _ _ => trivial⟩
    exact (hdone.mono hprogress'.grows.models).append (hmember start next habsorb)
  · intro inherited now h
    obtain ⟨hprogress, hinherited⟩ := h
    apply (fieldsOf_ends hspreads hask hprogress.wellFormed (hwithin.grows hprogress.grows)
      hlends).imp
    intro own after h
    obtain ⟨hprogress', hown⟩ := h
    refine ⟨fun part habsorb => ⟨hprogress.trans hprogress', ?_⟩, fun _ _ => trivial⟩
    exact ⟨inherited, own, part, hinherited.mono hprogress'.grows.models, hown, habsorb, rfl⟩

theorem mergedFields_ends {id : SchemaId} (hwithin : Within doc state.arena id)
    (hlends : doc.Lends reach context id) :
    (mergedFields doc ask context name id).Ends state
      (fun fields after => Progress doc registry reach state after ∧
        Merged doc registry after.arena.models context name id fields)
      fun _ _ => True := by
  simp only [mergedFields, Compile.ends_bind, Compile.ends_get]
  split
  · trivial
  · rw [Compile.ends_between]
    have hwf' : ({ state with merging := id :: state.merging } : Compilation).arena.WellFormed
        doc registry reach := hwf
    apply (mergeMembers_ends hspreads hask hwf' hwithin hlends).imp
    intro fields after h
    obtain ⟨hprogress, hmerged⟩ := h
    exact ⟨⟨hprogress.wellFormed, hprogress.grows, hprogress.unions, hprogress.anchors⟩, hmerged⟩

/-! ## Unions -/

theorem alternativesOf_ends {id : SchemaId} (hat : At doc state.arena state.unions id)
    (hreached : reach context id) :
    (alternativesOf doc ask context (doc.schema id) (doc.schema id).alternatives).Ends state
      (fun found after => Progress doc registry reach state after ∧
        HasAlternatives doc registry after.arena.models (doc.schema id).alternatives found ∧
        ∀ edge type, (edge, type) ∈ found → state.arena.Open edge.id → edge.id ∉ state.unions)
      fun _ _ => True := by
  refine Compile.ends_foldlM (fun done found now => Progress doc registry reach state now ∧
    HasAlternatives doc registry now.arena.models done found ∧
    ∀ edge type, (edge, type) ∈ found → state.arena.Open edge.id → edge.id ∉ state.unions)
    ?_ ⟨.refl hwf, .nil, by simp⟩
  intro done member found now hmem h
  obtain ⟨hprogress, hfound, hchain⟩ := h
  simp only [Compile.ends_bind]
  have hnow : At doc now.arena now.unions member.id :=
    hprogress.unions ▸ (hat.beside (.alternative hmem)).grows hprogress.grows
  apply (hask.type hprogress.wellFormed hnow (hspreads.alternative hreached hmem)).imp
  intro type after hanswer
  have hold := hfound.mono hanswer.grows.models
  cases type with
  | none =>
      have hnew : HasAlternatives doc registry after.arena.models [member] [] :=
        .anchor hanswer.hasType .nil
      refine ⟨hprogress.trans hanswer.toProgress, ?_, hchain⟩
      simpa using hold.append hnew
  | some type =>
      have hnew : HasAlternatives doc registry after.arena.models [member] [(member, type)] :=
        .typed hanswer.hasType .nil
      refine ⟨hprogress.trans hanswer.toProgress, hold.append hnew, ?_⟩
      intro edge type' hentry hopen
      rcases List.mem_append.mp hentry with hentry | hentry
      · exact hchain edge type' hentry hopen
      · -- Steps keep the chain and the open schemas, so the last answer speaks of the first state.
        cases List.mem_singleton.mp hentry
        exact hprogress.unions ▸ hanswer.chain ((hprogress.grows.opens _).mpr hopen)

theorem unionOf_ends {id : SchemaId} (hat : At doc state.arena (id :: state.unions) id)
    (hreached : reach context id) :
    (unionOf doc ask context id (doc.schema id).alternatives).Ends state
      (fun shape after => Progress doc registry reach state after ∧
        IsUnion doc registry after.arena.models (doc.schema id) shape ∧
        ∀ inner schema, .model inner ∈ shape.alternatives →
          after.arena.models schema = some inner → after.arena.Open schema →
          doc.Descends schema id)
      fun _ _ => True := by
  simp only [unionOf, Compile.ends_bind, Compile.ends_between, Compile.ends_pure]
  have hwf' : ({ state with unions := id :: state.unions } : Compilation).arena.WellFormed
      doc registry reach := hwf
  apply (alternativesOf_ends hspreads hask hwf' hat hreached).imp
  intro found after h
  obtain ⟨hprogress, hfound, hchain⟩ := h
  have hunions : after.unions.tail = state.unions := by rw [hprogress.unions]; rfl
  refine ⟨⟨hprogress.wellFormed, hprogress.grows, hunions, hprogress.anchors⟩,
    ⟨found, hfound, rfl⟩, ?_⟩
  intro inner schema hmem hinner hopen
  obtain ⟨⟨edge, type⟩, hentry, rfl⟩ := List.mem_map.mp hmem
  have hedge : edge.id = schema :=
    hprogress.wellFormed.distinct (hfound.hasType hentry).2.models_of_model hinner
  subst hedge
  -- A schema that was open at the start is no member by way of the chain.
  have hopen' := (hprogress.grows.opens _).mp hopen
  rcases hat _ hopen' with ⟨hmem, -⟩ | hdown
  · exact absurd hmem (hchain edge _ hentry hopen')
  · exact hdown

/-! ## Anchors -/

theorem variantsOf_ends {id : SchemaId} (hat : At doc state.arena state.unions id)
    (hreached : reach context id) :
    (variantsOf doc ask context (doc.schema id) ((doc.schema id).mapping.map (·.2))).Ends state
      (fun _ after => Progress doc registry reach state after ∧ Covers doc after.arena.models id)
      fun _ _ => True := by
  refine (Compile.ends_foldlM (fun done _ now => Progress doc registry reach state now ∧
    ∀ target ∈ done, ∀ variant, doc.resolve target = some variant → doc.IsModel variant →
      ∃ m, now.arena.models variant = some m) ?_ ⟨.refl hwf, by simp⟩).imp ?_
  · intro done target variants now hmem h
    obtain ⟨hprogress, hdone⟩ := h
    obtain ⟨⟨tag, target⟩, hentry, rfl⟩ := List.mem_map.mp hmem
    cases hresolve : doc.resolve target with
    | none => trivial
    | some variant =>
        have hstep : doc.Beside id variant := .variant hentry hresolve
        have hnow : At doc now.arena now.unions variant :=
          hprogress.unions ▸ (hat.beside hstep).grows hprogress.grows
        simp only [Compile.ends_bind]
        apply (hask.type hprogress.wellFormed hnow
          (hspreads.variant hreached hentry hresolve)).imp
        intro type after hanswer
        have hafter := hprogress.trans hanswer.toProgress
        have hcovered : ∀ target' ∈ done ++ [target], ∀ variant',
            doc.resolve target' = some variant' → doc.IsModel variant' →
              ∃ m, after.arena.models variant' = some m := by
          intro target' hmem' variant' hresolve' hmodel'
          rcases List.mem_append.mp hmem' with hmem' | hmem'
          · obtain ⟨m, hm⟩ := hdone target' hmem' variant' hresolve' hmodel'
            exact ⟨m, hanswer.grows.models _ _ hm⟩
          · cases List.mem_singleton.mp hmem'
            cases hresolve.symm.trans hresolve'
            obtain ⟨m, hm, -⟩ := hanswer.hasType.of_isModel hmodel'
            exact ⟨m, hm⟩
        split <;> exact ⟨hafter, hcovered⟩
  · intro variants after h
    obtain ⟨hprogress, hdone⟩ := h
    refine ⟨hprogress, fun tag target variant hentry hresolve hmodel => ?_⟩
    exact hdone target (List.mem_map.mpr ⟨_, hentry, rfl⟩) variant hresolve hmodel

theorem registerAnchor_ends {id : SchemaId} (hat : At doc state.arena state.unions id)
    (hreached : reach context id) :
    (registerAnchor doc ask context id).Ends state
      (fun _ after => Progress doc registry reach state after ∧
        ((state.anchor? id).isSome = true ∨ Covers doc after.arena.models id))
      fun _ _ => True := by
  simp only [registerAnchor, Compile.ends_bind, Compile.ends_get]
  split
  · rename_i hknown
    exact ⟨.refl hwf, .inl hknown⟩
  · simp only [Compile.ends_bind, Compile.ends_modify]
    have hwf' : (state.addAnchor id (doc.schema id).label).arena.WellFormed doc registry reach :=
      hwf
    -- Of the anchors that are there afterwards only this one is new and not a variant's.
    have hanchors {after : Compilation} (hcovers : Covers doc after.arena.models id)
        (h : ∀ other, (after.anchor? other).isSome = true →
          ((state.addAnchor id (doc.schema id).label).anchor? other).isSome = true ∨
            Covers doc after.arena.models other) (other : SchemaId)
        (hother : (after.anchor? other).isSome = true) :
        (state.anchor? other).isSome = true ∨ Covers doc after.arena.models other := by
      rcases h other hother with hother | hother
      · rcases Compilation.isSome_anchor?_addAnchor.mp hother with rfl | hother
        · exact .inr hcovers
        · exact .inl hother
      · exact .inr hother
    split
    · rename_i hmapping
      have hcovers : Covers doc state.arena.models id := by
        simp [Covers, Schema.mapping, hmapping]
      exact ⟨⟨hwf, .refl _, rfl, hanchors hcovers fun _ => .inl⟩, .inr hcovers⟩
    · rename_i mapping hmapping
      have htargets : mapping = (doc.schema id).mapping := by simp [Schema.mapping, hmapping]
      subst htargets
      simp only [Compile.ends_bind, Compile.ends_modify]
      apply (variantsOf_ends hspreads hask hwf' hat hreached).imp
      intro variants after h
      obtain ⟨hprogress, hcovers⟩ := h
      refine ⟨⟨hprogress.wellFormed, hprogress.grows, hprogress.unions, ?_⟩, .inr hcovers⟩
      intro other hother
      rw [Compilation.isSome_anchor?_setVariants] at hother
      exact hanchors hcovers hprogress.anchors other hother

/-! ## Models -/

theorem shapeOf_ends {id : SchemaId} (hat : At doc state.arena (id :: state.unions) id)
    (hreached : reach context id) :
    (shapeOf doc ask context name id).Ends state
      (fun shape after => Progress doc registry reach state after ∧
        HasShape doc registry after.arena.models context name id shape ∧
        ∀ inner schema, .model inner ∈ shape.alternatives →
          after.arena.models schema = some inner → after.arena.Open schema →
          doc.Descends schema id)
      fun _ _ => True := by
  rcases shapeOf_cases doc context name id with
    ⟨⟨members, hcomb⟩, heq⟩ | ⟨hcomb, heq⟩ | ⟨hcomb, heq⟩
  · simp only [heq, Compile.ends_bind, Compile.ends_pure]
    apply (mergedFields_ends hspreads hask hwf hat.within (.self hreached)).imp
    intro fields after h
    obtain ⟨hprogress, hmerged⟩ := h
    refine ⟨hprogress, ?_, by simp [Shape.alternatives]⟩
    simp only [HasShape, hcomb]
    exact ⟨fields, hmerged, rfl⟩
  · rw [heq]
    apply (unionOf_ends hspreads hask hwf hat hreached).imp
    intro shape after h
    obtain ⟨hprogress, hunion, hdown⟩ := h
    refine ⟨hprogress, ?_, hdown⟩
    rcases hcomb with hcomb | hcomb <;> simpa only [HasShape, hcomb] using hunion
  · simp only [heq, Compile.ends_bind, Compile.ends_pure]
    apply (fieldsOf_ends hspreads hask hwf hat.within (.self hreached)).imp
    intro fields after h
    obtain ⟨hprogress, hfields⟩ := h
    refine ⟨hprogress, ?_, by simp [Shape.alternatives]⟩
    simp only [HasShape, hcomb]
    exact ⟨fields, hfields, rfl⟩

omit hspreads hask hwf in
theorem modelName_ends (schema : Schema) :
    (modelName schema).Ends state
      (fun name after => after.arena = state.arena ∧ after.unions = state.unions ∧
        after.anchors = state.anchors ∧
        ∀ given, schema.title.or schema.identity = some given → name = given)
      fun _ _ => True := by
  unfold modelName
  cases schema.title.or schema.identity with
  | some name => simp
  | none =>
      simp only [Compile.ends_bind, Compile.ends_modify, Compile.ends_get, Compile.ends_pure]
      exact ⟨rfl, trivial, trivial, by simp⟩

omit hspreads hask in
/-- Once its index is reserved, a schema is itself open and, as a union, on the chain. -/
theorem At.reserve {id : SchemaId} (hat : At doc state.arena state.unions id)
    (hnew : state.arena.models id = none) :
    At doc (state.arena.reserve id) (id :: state.unions) id := by
  intro other hopen
  rcases (Arena.open_reserve_iff hwf hnew other).mp hopen with rfl | hopen
  · exact .inl ⟨by simp, .refl⟩
  · rcases hat other hopen with ⟨hmem, hreach⟩ | hdown
    · exact .inl ⟨List.mem_cons_of_mem _ hmem, hreach⟩
    · exact .inr hdown

theorem buildModel_ends {id : SchemaId} (hat : At doc state.arena state.unions id)
    (hreached : reach context id) (hnew : state.arena.models id = none)
    (hmodel : doc.IsModel id) :
    (buildModel doc ask context id).Ends state
      (fun model after => Progress doc registry reach state after ∧
        after.arena.models id = some model)
      fun _ _ => True := by
  simp only [buildModel, Compile.ends_bind]
  apply (modelName_ends (doc.schema id)).imp
  intro name named h
  obtain ⟨harena, hunions, hanchors, hname⟩ := h
  simp only [Compile.ends_get, Compile.ends_modify, Compile.ends_pure]
  have hslots : named.slots.size = state.arena.slots.size := by rw [← harena]; rfl
  have hreserve : (named.reserve id).arena = state.arena.reserve id := by
    rw [Compilation.arena_reserve, harena]
  have hunions' : (named.reserve id).unions = state.unions := hunions
  have hwf' : (named.reserve id).arena.WellFormed doc registry reach :=
    hreserve ▸ hwf.reserve hnew hmodel
  have hat' : At doc (named.reserve id).arena (id :: (named.reserve id).unions) id := by
    rw [hreserve, hunions']
    exact hat.reserve hwf hnew
  apply (shapeOf_ends hspreads hask hwf' hat' hreached).imp
  intro shape after h
  obtain ⟨hprogress, hshape, hdown⟩ := h
  have hid : after.arena.models id = some named.slots.size := by
    refine hprogress.grows.models id _ ?_
    rw [hreserve, hslots, Arena.models_reserve, if_pos rfl]
  -- The shape is built while the slot stays empty: no step closes a schema that was open.
  have hopen : after.arena.slots[named.slots.size]? = some none := by
    have hself : after.arena.Open id := by
      rw [hprogress.grows.opens, hreserve, Arena.open_reserve_iff hwf hnew]
      exact .inl rfl
    obtain ⟨m, hm, hslot⟩ := hself
    cases hid.symm.trans hm
    exact hslot
  have hmeans : after.arena.Means doc registry reach ⟨name, id, shape⟩ :=
    ⟨hname, context, hreached, hshape⟩
  have hfilled : (after.arena.fill named.slots.size ⟨name, id, shape⟩).WellFormed doc registry
      reach :=
    hprogress.wellFormed.fill hid hopen hmeans hdown
  have hanchors' (other : SchemaId) (hother : (after.anchor? other).isSome = true) :
      (state.anchor? other).isSome = true ∨ Covers doc after.arena.models other := by
    have hsame : (named.reserve id).anchor? other = state.anchor? other := by
      simp only [Compilation.anchor?, Compilation.reserve, hanchors]
    exact hsame ▸ hprogress.anchors other hother
  refine ⟨⟨hfilled, ?_, hprogress.unions.trans hunions', hanchors'⟩, hid⟩
  have hgrows : (state.arena.reserve id).Grows after.arena := hreserve ▸ hprogress.grows
  exact hgrows.fill_reserve hwf hprogress.wellFormed hnew hid hopen

/-! ## Types -/

/-- A model that is known is answered while it is open, unless it is on the chain. -/
theorem modelType_ends {id : SchemaId} (hat : At doc state.arena state.unions id)
    (hreached : reach context id)
    (htype : (doc.schema id).type = none ∨ (doc.schema id).type = some .object) :
    (modelType doc ask context id).Ends state (TypeAnswer doc registry reach state id)
      fun _ _ => True := by
  simp only [modelType, Compile.ends_bind, Compile.ends_get]
  cases hknown : state.model? id with
  | some model =>
      have hmodel : state.arena.models id = some model := hknown
      simp only []
      split
      · trivial
      · rename_i hchain
        simp only [List.contains_eq_mem, decide_eq_true_eq] at hchain
        exact ⟨.refl hwf, .model (hwf.isModel hmodel) hmodel, by simp, fun _ => hchain⟩
  | none =>
      -- A schema without an index is not open, so there is nothing to say about the chain.
      have hnew : state.arena.models id = none := hknown
      have hclosed : ¬ state.arena.Open id := by
        intro h
        obtain ⟨model, hmodel, -⟩ := h
        simp [hnew] at hmodel
      simp only []
      split
      · rename_i hanchor
        simp only [Compile.ends_bind, Compile.ends_pure]
        apply (registerAnchor_ends hspreads hask hwf hat hreached).imp
        intro _ after h
        obtain ⟨hprogress, hcovers⟩ := h
        exact ⟨hprogress, .anchor hanchor, fun _ => hcovers, fun hopen => absurd hopen hclosed⟩
      · rename_i hanchor
        have hmodel : doc.IsModel id := ⟨htype, by simpa using hanchor⟩
        simp only [Compile.ends_bind, Compile.ends_pure]
        apply (buildModel_ends hspreads hask hwf hat hreached hnew hmodel).imp
        intro model after h
        obtain ⟨hprogress, hid⟩ := h
        exact ⟨hprogress, .model hmodel hid, by simp, fun hopen => absurd hopen hclosed⟩

theorem typeOf_ends {id : SchemaId} (hat : At doc state.arena state.unions id)
    (hreached : reach context id) :
    (typeOf doc registry ask context id).Ends state (TypeAnswer doc registry reach state id)
      fun _ _ => True := by
  -- Only schemas that get a model are ever open.
  have hnever (htype : ¬ ((doc.schema id).type = none ∨ (doc.schema id).type = some .object))
      (hopen : state.arena.Open id) : id ∉ state.unions := by
    obtain ⟨model, hmodel, -⟩ := hopen
    exact absurd (hwf.isModel hmodel).type htype
  rcases typeOf_cases doc registry context id with
    ⟨items, htype, hitems, heq⟩ | ⟨-, -, heq⟩ | ⟨primitive, htype, hscalar, heq⟩ | ⟨htype, heq⟩
  · simp only [heq, Compile.ends_bind, Compile.ends_pure]
    apply (elementType_ends hask hwf (hat.within.below (.item hitems))
      (hspreads.below hreached .refl (.item hitems))).imp
    intro type after h
    obtain ⟨hprogress, known, hknown, rfl⟩ := h
    exact ⟨hprogress, .array htype hitems hknown, by simp, hnever (by simp [htype])⟩
  · rw [heq]
    exact (Compile.ends_throw _).mpr trivial
  · simp only [heq, Compile.ends_bind, Compile.ends_ofExcept, Compile.ends_pure]
    refine ⟨?_, fun _ _ => trivial⟩
    intro type hresolve
    refine ⟨.refl hwf, .scalar htype hscalar hresolve, by simp, hnever ?_⟩
    rw [htype]
    rintro (h | h) <;> cases h
    cases hscalar
  · rw [heq]
    exact modelType_ends hspreads hask hwf hat hreached htype

omit hask hwf in
/-- Requests answer as they should, however deeply they may ask for others. -/
theorem requests_sound (depth : Nat) : (requests doc registry depth).Sound doc registry reach := by
  induction depth with
  | zero => exact ⟨fun _ _ _ => trivial, fun _ _ _ => trivial⟩
  | succ depth ih =>
      exact ⟨fun hwf hat hreached => typeOf_ends hspreads ih hwf hat hreached,
        fun hwf hwithin hlends => mergedFields_ends hspreads ih hwf hwithin hlends⟩

end OpenApi
