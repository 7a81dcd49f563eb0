-- SUMMARY: The variants of an anchor are the models of all its targets, however they refer back to it.
import Mathlib
import OpenApi.Proofs.Compilation.Indices
import OpenApi.Proofs.Compilation.Roots
import OpenApi.Proofs.Model.Depiction

/-!
# The variants of anchors

An anchor is entered into the table before its variants are built, so a variant that
refers back to it finds it there, still without variants. The step that has entered
it is the one that completes it: behind each step that succeeds every new anchor has
the variants of its whole mapping, and those that were there before are as they were,
complete or not. A compilation starts without anchors, so at its end all are complete.
-/

namespace OpenApi

/-! ## Targets -/

/-- The models of the targets in the mapping of a schema, each once, in the order of the mapping.
A target without a model is left out. -/
def ModelSet.targetModels (set : ModelSet) (doc : Document) (id : SchemaId) : List ModelId :=
  ((doc.schema id).mapping.filterMap fun entry =>
    (doc.resolve entry.2).bind set.forSchema).eraseDups

section Targets

variable {doc : Document} {registry : Registry} {models : ModelTable} {id : SchemaId}

theorem HasType.modelOf (hmodels : ∀ {id m}, models id = some m → doc.IsModel id)
    {type : Option Ty} (h : HasType doc registry models id type) :
    OpenApi.modelOf type = models id := by
  cases hm : models id with
  | some m =>
      obtain ⟨m', hm', rfl⟩ := h.of_isModel (hmodels hm)
      exact hm'.symm.trans hm
  | none =>
      apply modelOf_eq_none
      rintro m rfl
      cases hm.symm.trans h.models_of_model

/-- The variants that a mapping gives an anchor are found in the table of models. -/
theorem HasVariants.eq_eraseDups (hmodels : ∀ {id m}, models id = some m → doc.IsModel id)
    {variants : List ModelId} (h : HasVariants doc registry models id variants) :
    (∀ entry ∈ (doc.schema id).mapping, ∃ variant, doc.resolve entry.2 = some variant ∧
      (doc.IsModel variant ↔ ∃ m, models variant = some m)) ∧
    variants = ((doc.schema id).mapping.filterMap fun entry =>
      (doc.resolve entry.2).bind models).eraseDups := by
  obtain ⟨types, htypes, rfl⟩ := h
  rw [List.forall₂_map_left_iff] at htypes
  generalize (doc.schema id).mapping = mapping at htypes ⊢
  -- The mapping is followed entry by entry, each with the type of its target.
  suffices hsame : (∀ entry ∈ mapping, ∃ variant, doc.resolve entry.2 = some variant ∧
      (doc.IsModel variant ↔ ∃ m, models variant = some m)) ∧
      types.filterMap OpenApi.modelOf =
        mapping.filterMap fun entry => (doc.resolve entry.2).bind models from
    ⟨hsame.1, congrArg List.eraseDups hsame.2⟩
  induction htypes with
  | nil => simp
  | @cons entry type _ _ hfirst _ ih =>
      obtain ⟨variant, hresolve, htype⟩ := hfirst
      have hiff : doc.IsModel variant ↔ ∃ m, models variant = some m :=
        ⟨fun hmodel => (htype.of_isModel hmodel).imp fun _ h => h.1, fun ⟨_, hm⟩ => hmodels hm⟩
      refine ⟨List.forall_mem_cons.mpr ⟨⟨variant, hresolve, hiff⟩, ih.1⟩, ?_⟩
      simp only [List.filterMap_cons, htype.modelOf hmodels, hresolve, Option.bind_some, ih.2]

end Targets

/-! ## What a step registers -/

namespace Compilation

variable (doc : Document) (registry : Registry)

/-- An anchor is complete: it has the variants that the mapping of its schema gives it. -/
structure Registered (state : Compilation) (id : SchemaId) (anchor : Anchor) : Prop where
  isAnchor : (doc.schema id).isAnchor = true
  name : anchor.name = (doc.schema id).label
  variants : HasVariants doc registry state.model? id anchor.variants

/-- Models have been added, and anchors that are complete. -/
structure Registers (before after : Compilation) : Prop where
  indexed : after.arena.Indexed doc
  models : ModelTable.Le before.model? after.model?
  anchors : ∀ entry ∈ after.anchors,
    entry ∈ before.anchors ∨ after.Registered doc registry entry.1 entry.2

variable {doc registry} {first second third state : Compilation} {id : SchemaId}

theorem Registered.mono (hle : ModelTable.Le first.model? second.model?) {anchor : Anchor}
    (h : first.Registered doc registry id anchor) : second.Registered doc registry id anchor :=
  ⟨h.isAnchor, h.name, h.variants.mono hle⟩

theorem Registers.refl (h : state.arena.Indexed doc) : state.Registers doc registry state :=
  ⟨h, fun _ _ hm => hm, fun _ => .inl⟩

theorem Registers.trans (h : first.Registers doc registry second)
    (h' : second.Registers doc registry third) : first.Registers doc registry third where
  indexed := h'.indexed
  models := fun id m hm => h'.models id m (h.models id m hm)
  anchors := by
    intro entry hmem
    rcases h'.anchors entry hmem with hmem | hregistered
    · exact (h.anchors entry hmem).imp_right (·.mono h'.models)
    · exact .inr hregistered

/-- What is being merged or built, and the roots, are of no account. -/
theorem Registers.restore {before after : Compilation} (h : first.Registers doc registry second)
    (harena : before.arena = first.arena) (hanchors : before.anchors = first.anchors)
    (harena' : after.arena = second.arena) (hanchors' : after.anchors = second.anchors) :
    before.Registers doc registry after := by
  have hmodels : before.model? = first.model? := congrArg Arena.models harena
  have hmodels' : after.model? = second.model? := congrArg Arena.models harena'
  refine ⟨harena' ▸ h.indexed, hmodels ▸ hmodels' ▸ h.models, fun entry hmem => ?_⟩
  rw [hanchors]
  refine (h.anchors entry (hanchors' ▸ hmem)).imp_right fun hregistered => ?_
  exact ⟨hregistered.isAnchor, hregistered.name, hmodels' ▸ hregistered.variants⟩

/-- An anchor that has just been entered is completed by giving it its variants. -/
theorem Registers.setVariants (hanchor : (doc.schema id).isAnchor = true)
    (hnew : first.anchor? id = none)
    (h : (first.addAnchor id (doc.schema id).label).Registers doc registry second)
    {variants : List ModelId} (hvariants : HasVariants doc registry second.model? id variants) :
    first.Registers doc registry (second.setVariants id variants) where
  indexed := h.indexed
  models := h.models
  anchors := by
    have hmodels : ModelTable.Le second.model? (second.setVariants id variants).model? :=
      fun _ _ hm => hm
    intro entry hmem
    obtain ⟨⟨other, anchor⟩, hold, rfl⟩ := List.mem_map.mp hmem
    rcases h.anchors _ hold with hold | hregistered
    · rcases List.mem_cons.mp hold with heq | hold'
      · cases heq
        simp only [if_pos]
        exact .inr ⟨hanchor, rfl, hvariants.mono hmodels⟩
      · have hother : other ≠ id := by
          rintro rfl
          simpa using List.lookup_eq_none_iff.mp hnew _ hold'
        simp only [if_neg hother]
        exact .inl hold'
    · by_cases hother : other = id
      · subst hother
        simp only [if_pos]
        exact .inr ⟨hanchor, hregistered.name, hvariants.mono hmodels⟩
      · simp only [if_neg hother]
        exact .inr (hregistered.mono hmodels)

end Compilation

/-! ## Steps -/

namespace Compile

variable {α β : Type} (doc : Document) (registry : Registry)

/-- Where indices are right, they stay right, and all anchors that are entered are completed. -/
def registerRule : Rule where
  starts state := state.arena.Indexed doc
  changes := Compilation.Registers doc registry
  fails _ _ _ := True
  refl := .refl
  trans := .trans
  goesOn := (·.indexed)
  fails_trans := fun _ _ => trivial

/-- Started with indices that are right, a step that succeeds completes all anchors that it
enters. -/
abbrev Registers (step : Compile α) : Prop := step.Follows (registerRule doc registry)

variable {doc registry}

theorem registers_throw (stop : Stop SchemaError) :
    Registers doc registry (throw stop : Compile α) := follows_throw fun _ _ => trivial

theorem registers_ofExcept (result : Except SchemaError α) :
    Registers doc registry (ofExcept result) := follows_ofExcept fun _ _ _ _ => trivial

theorem registers_between {enter leave : Compilation → Compilation} {step : Compile α}
    (h : Registers doc registry step)
    (henter : ∀ state, (enter state).arena = state.arena ∧ (enter state).anchors = state.anchors :=
      by intro; exact ⟨rfl, rfl⟩)
    (hleave : ∀ state, (leave state).arena = state.arena ∧ (leave state).anchors = state.anchors :=
      by intro; exact ⟨rfl, rfl⟩) :
    Registers doc registry (between enter leave step) := by
  intro state (hstate : state.arena.Indexed doc)
  rw [ends_between]
  have hentered : (enter state).arena.Indexed doc := by rwa [(henter state).1]
  refine (h (enter state) hentered).mono (fun _ after hafter => ?_) fun _ _ => id
  exact hafter.restore (henter state).1.symm (henter state).2.symm (hleave after).1
    (hleave after).2

end Compile

/-- All requests complete the anchors that they enter. -/
structure Requests.Register (doc : Document) (registry : Registry) (ask : Requests) : Prop where
  type : ∀ context id, (ask.type context id).Registers doc registry
  merged : ∀ context name id, (ask.merged context name id).Registers doc registry

section Steps

variable {doc : Document} {registry : Registry} {ask : Requests}
variable (hask : ask.Register doc registry) (context : Context) (name : String)
include hask

/-! ### Fields and members -/

theorem elementType_registers (edge : Edge) :
    (elementType ask edge).Registers doc registry := by
  refine Compile.follows_bind Compile.follows_get fun _ => ?_
  exact Compile.follows_bind (Compile.registers_between (hask.type {} edge.id)) fun _ =>
    Compile.follows_pure _

theorem fieldsOf_registers (schema : Schema) :
    (fieldsOf doc ask context schema).Registers doc registry := by
  refine Compile.follows_mapM fun property _ => ?_
  refine Compile.follows_bind (Compile.registers_ofExcept _) ?_
  intro tag
  cases tag with
  | some tag => exact Compile.follows_pure _
  | none =>
      exact Compile.follows_bind (elementType_registers hask property.2) fun _ =>
        Compile.follows_pure _

theorem contribution_registers (owner : Schema) (member : Edge) :
    (contribution doc ask context name owner member).Registers doc registry := by
  rcases contribution_cases doc context name owner member with
    ⟨-, heq⟩ | ⟨-, heq⟩ | ⟨-, _, _, heq⟩ <;> rw [heq]
  · exact hask.merged context name member.id
  · exact fieldsOf_registers hask context _
  · exact Compile.registers_throw _

theorem mergedFields_registers (id : SchemaId) :
    (mergedFields doc ask context name id).Registers doc registry := by
  refine Compile.follows_bind Compile.follows_get fun _ => ?_
  split
  · exact Compile.registers_throw _
  · refine Compile.registers_between ?_
    refine Compile.follows_bind ?_ fun _ =>
      Compile.follows_bind (fieldsOf_registers hask context _) ?_
    · exact Compile.follows_foldlM (fun member _ _ => Compile.follows_bind
        (contribution_registers hask context name _ member)
        fun _ => Compile.registers_ofExcept _) []
    · exact fun _ => Compile.follows_bind (Compile.registers_ofExcept _) fun _ =>
        Compile.follows_pure _

/-! ### Unions and anchors -/

theorem unionOf_registers (id : SchemaId) (members : List Edge) :
    (unionOf doc ask context id members).Registers doc registry := by
  refine Compile.follows_bind (Compile.registers_between ?_) fun _ => Compile.follows_pure _
  refine Compile.follows_foldlM (fun member _ _ => ?_) []
  refine Compile.follows_bind (hask.type _ _) fun type => ?_
  cases type <;> exact Compile.follows_pure _

/-- The models among the answers for all targets are the variants of the mapping. -/
theorem variantsOf_registers (hanswer : ask.Answer doc registry) {state : Compilation}
    (hstate : state.arena.Indexed doc) (id : SchemaId) :
    (variantsOf doc ask context (doc.schema id) ((doc.schema id).mapping.map (·.2))).Ends state
      (fun variants after => state.Registers doc registry after ∧
        HasVariants doc registry after.model? id variants)
      fun _ _ => True := by
  -- The variants found so far are the models among the types of the targets that are done.
  refine Compile.ends_foldlM (fun done variants now => state.Registers doc registry now ∧
    ∃ types, List.Forall₂ (fun target type => ∃ variant, doc.resolve target = some variant ∧
      HasType doc registry now.model? variant type) done types ∧ variants = modelsAmong types)
    ?_ ⟨.refl hstate, [], .nil, rfl⟩
  rintro done target _ now - ⟨hnow, types, htypes, rfl⟩
  cases hresolve : doc.resolve target with
  | none => trivial
  | some variant =>
      simp only [Compile.ends_bind]
      apply ((hask.type _ variant now hnow.indexed).and
        (hanswer _ variant now hnow.indexed)).mono _ fun _ _ _ => trivial
      rintro type after ⟨hafter, htype⟩
      have hold := htypes.imp fun _ _ hone =>
        hone.imp fun _ hone => And.imp_right (·.mono hafter.models) hone
      have hall := List.rel_append hold (.cons ⟨variant, hresolve, htype⟩ .nil)
      split
      · exact ⟨hnow.trans hafter, _, hall, (modelsAmong_append_some rfl).symm⟩
      · rename_i hnone
        exact ⟨hnow.trans hafter, _, hall,
          (modelsAmong_append_none (modelOf_eq_none hnone)).symm⟩

theorem registerAnchor_registers (hanswer : ask.Answer doc registry) {id : SchemaId}
    (hanchor : (doc.schema id).isAnchor = true) :
    (registerAnchor doc ask context id).Registers doc registry := by
  intro state hstate
  simp only [registerAnchor, Compile.ends_bind, Compile.ends_get]
  split
  · exact .refl hstate
  · rename_i hnew
    have hnew : state.anchor? id = none := Option.not_isSome_iff_eq_none.mp hnew
    simp only [Compile.ends_bind, Compile.ends_modify]
    cases hmapping : (doc.schema id).discriminator.bind (·.mapping) with
    | none =>
        refine ⟨hstate, fun _ _ hm => hm, List.forall_mem_cons.mpr ⟨.inr ?_, fun _ => .inl⟩⟩
        exact ⟨hanchor, rfl, [], by simp [Schema.mapping, hmapping], rfl⟩
    | some mapping =>
        have hmapping : mapping = (doc.schema id).mapping := by simp [Schema.mapping, hmapping]
        subst hmapping
        simp only [Compile.ends_bind, Compile.ends_modify]
        have hadded : (state.addAnchor id (doc.schema id).label).arena.Indexed doc := hstate
        exact (variantsOf_registers hask context hanswer hadded id).imp
          fun _ _ h => h.1.setVariants hanchor hnew h.2

/-! ### Models and types -/

theorem shapeOf_registers (id : SchemaId) :
    (shapeOf doc ask context name id).Registers doc registry := by
  rcases shapeOf_cases doc context name id with ⟨-, heq⟩ | ⟨-, heq⟩ | ⟨-, heq⟩ <;> rw [heq]
  · exact Compile.follows_bind (mergedFields_registers hask context name id) fun _ =>
      Compile.follows_pure _
  · exact unionOf_registers hask context id _
  · exact Compile.follows_bind (fieldsOf_registers hask context _) fun _ =>
      Compile.follows_pure _

variable (huphold : ask.Uphold fun arena => arena.Indexed doc) (hretain : ask.Retain doc)
include huphold hretain

theorem buildModel_registers {state : Compilation} {id : SchemaId}
    (hstate : state.arena.Indexed doc) (hnew : state.model? id = none) (hmodel : doc.IsModel id) :
    (buildModel doc ask context id).Ends state
      (fun _ after => state.Registers doc registry after) fun _ _ => True := by
  -- The indices are right at the end; of what is built in between, models and anchors are kept.
  have hindexed := buildModel_upholds huphold context (Arena.indexed_invariant doc) hretain hstate
    hnew hmodel
  suffices h : (buildModel doc ask context id).Ends state
      (fun _ after => after.arena.Indexed doc → state.Registers doc registry after)
      fun _ _ => True from
    (hindexed.and h).mono (fun _ _ h => h.2 h.1.1) fun _ _ _ => trivial
  simp only [buildModel, Compile.ends_bind, Compile.ends_get, Compile.ends_modify,
    Compile.ends_pure]
  refine (modelName_counts state (doc.schema id)).mono ?_ fun _ _ => False.elim
  rintro name now ⟨anonymous, rfl⟩
  have hreserve : (({ state with anonymous } : Compilation).reserve id).arena.Indexed doc := by
    rw [Compilation.arena_reserve]
    exact hstate.reserve hnew hmodel
  refine (shapeOf_registers hask context name id _ hreserve).imp fun shape after hafter => ?_
  intro hfilled
  have hmodels : ModelTable.Le state.model? after.model? := fun other m hm =>
    hafter.models other m (Compilation.model?_le_reserve hnew other m hm)
  refine ⟨hfilled, hmodels, fun entry hmem => ?_⟩
  refine (hafter.anchors entry hmem).imp_right fun h => ?_
  exact ⟨h.isAnchor, h.name, h.variants⟩

theorem modelType_registers (hanswer : ask.Answer doc registry) {id : SchemaId}
    (hend : (doc.schema id).type = none ∨ (doc.schema id).type = some .object) :
    (modelType doc ask context id).Registers doc registry := by
  intro state hstate
  simp only [modelType, Compile.ends_bind, Compile.ends_get]
  split
  · split
    · trivial
    · exact .refl hstate
  · rename_i hnew
    split <;> simp only [Compile.ends_bind, Compile.ends_pure]
    · rename_i hanchor
      exact registerAnchor_registers hask context hanswer hanchor state hstate
    · rename_i hanchor
      exact buildModel_registers hask context huphold hretain hstate hnew
        ⟨hend, by simpa using hanchor⟩

theorem typeOf_registers (hanswer : ask.Answer doc registry) (id : SchemaId) :
    (typeOf doc registry ask context id).Registers doc registry := by
  rcases typeOf_cases doc registry context id with
    ⟨_, -, -, heq⟩ | ⟨-, -, heq⟩ | ⟨_, -, -, heq⟩ | ⟨hend, heq⟩ <;> rw [heq]
  · exact Compile.follows_bind (elementType_registers hask _) fun _ => Compile.follows_pure _
  · exact Compile.registers_throw _
  · exact Compile.follows_bind (Compile.registers_ofExcept _) fun _ => Compile.follows_pure _
  · exact modelType_registers hask context huphold hretain hanswer hend

end Steps

/-- Requests of any depth complete the anchors that they enter. -/
theorem requests_register (doc : Document) (registry : Registry) (depth : Nat) :
    (requests doc registry depth).Register doc registry := by
  induction depth with
  | zero => exact ⟨fun _ _ => Compile.registers_throw _, fun _ _ _ => Compile.registers_throw _⟩
  | succ depth ih =>
      have huphold := requests_uphold (Arena.indexed_invariant doc) registry depth
      have hretain := requests_retain doc registry depth
      exact ⟨fun context id =>
          typeOf_registers ih context huphold hretain (requests_answer doc registry depth) id,
        fun context name id => mergedFields_registers ih context name id⟩

/-! ## Compiled anchors -/

namespace Document

variable {doc : Document} {set : ModelSet}

theorem named_registers (name : String) :
    (Compile.named doc .standard name).Registers doc .standard := by
  intro state hstate
  unfold Compile.named
  split
  · trivial
  · simp only [Compile.ends_bind, Compile.ends_modify, Compile.ends_pure]
    apply ((requests_register doc .standard doc.depth).type {} _ state hstate).imp
    exact fun _ _ h => h.restore rfl rfl rfl rfl

theorem compileNamed_registers : doc.compileNamed.Registers doc .standard := by
  refine Compile.follows_bind (Compile.follows_forM fun entry _ => ?_) fun _ =>
    Compile.follows_forM fun entry _ => Compile.follows_discard (named_registers entry.1)
  dsimp only
  split
  · exact Compile.follows_discard ((requests_register doc .standard doc.depth).type {} entry.2)
  · exact Compile.follows_pure _

/-- Each anchor of a model set is that of an anchor schema, and its variants are the models of the
targets in the mapping of that schema: no target that has a model is missing, wherever the anchor
was met first. -/
theorem compile_anchorVariants (h : doc.compile = .ok set) {id : SchemaId} {anchor : Anchor}
    (hanchor : (id, anchor) ∈ set.anchors) :
    (doc.schema id).isAnchor = true ∧ anchor.name = (doc.schema id).label ∧
      (∀ entry ∈ (doc.schema id).mapping, ∃ variant, doc.resolve entry.2 = some variant ∧
        (doc.IsModel variant ↔ ∃ m, set.forSchema variant = some m)) ∧
      anchor.variants = set.targetModels doc id ∧
      (∀ m ∈ anchor.variants, m < set.models.size ∧ set.forSchema (set.model m).schema = some m) ∧
      ((doc.schema id).discriminator.bind (·.mapping) = none → anchor.variants = []) := by
  obtain ⟨state, hstate, hfinish⟩ :=
    exists_of_compile (compileNamed_registers {} (Arena.indexed_start doc)) h
  obtain ⟨hmemo, -, hanchors, -⟩ := finish_tables hfinish
  have hwf := compile_wellFormed h
  have hmodels : state.model? = set.forSchema := by
    funext id
    simp only [Compilation.model?, ModelSet.forSchema, hmemo]
  rw [hanchors] at hanchor
  -- No anchor was there at the start.
  have hregistered : state.Registered doc .standard id anchor :=
    (hstate.anchors _ hanchor).resolve_left List.not_mem_nil
  obtain ⟨hisAnchor, hname, hvariants⟩ := hregistered
  rw [hmodels] at hvariants
  obtain ⟨htargets, hvariants⟩ := hvariants.eq_eraseDups hwf.isModel
  refine ⟨hisAnchor, hname, htargets, hvariants, fun m hmem => ?_, fun hnone => ?_⟩
  · rw [hvariants, List.mem_eraseDups, List.mem_filterMap] at hmem
    obtain ⟨entry, -, hm⟩ := hmem
    obtain ⟨variant, -, hm⟩ := Option.bind_eq_some_iff.mp hm
    have hlt := ModelSet.lt_size_of_forSchema hwf hm
    exact ⟨hlt, ModelSet.forSchema_schema hwf hlt⟩
  · simp [hvariants, Schema.mapping, hnone]

/-- A hierarchy without types of its own. Dogs keep company with any of it, cats are a part of it,
and chips are strings. -/
def companyValue : Json :=
  .obj [
    ("openapi", .str "3.0.3"),
    ("components", .obj [("schemas", .obj [
      ("Pet", .obj [("discriminator", .obj [
        ("propertyName", .str "kind"),
        ("mapping", .obj [
          ("dog", .str "#/components/schemas/Dog"),
          ("chip", .str "#/components/schemas/Chip"),
          ("cat", .str "Cat"),
          ("puppy", .str "Dog")])])]),
      ("Dog", .obj [
        ("type", .str "object"),
        ("properties", .obj [("company", .obj [("$ref", .str "#/components/schemas/Pet")])])]),
      ("Cat", .obj [("allOf", .arr [
        .obj [("$ref", .str "#/components/schemas/Pet")],
        .obj [("$ref", .str "#/components/schemas/Dog")]])]),
      ("Chip", .obj [("type", .str "string")])])])]

/-- The tags of `companyValue`. -/
def companyKind : Discriminator where
  property := "kind"
  mapping := some [
    ("dog", "#/components/schemas/Dog"), ("chip", "#/components/schemas/Chip"),
    ("cat", "Cat"), ("puppy", "Dog")]

/-- The document of `companyValue`. -/
def company : Document where
  dialect := .openApi30
  schemas := #[
    { dialect := .openApi30, identity := some "Pet", discriminator := some companyKind },
    { dialect := .openApi30, identity := some "Dog", type := some .object
      properties := [("company", { id := 0, reference := some "#/components/schemas/Pet" })] },
    { dialect := .openApi30, identity := some "Cat"
      allOf := [
        { id := 0, reference := some "#/components/schemas/Pet" },
        { id := 1, reference := some "#/components/schemas/Dog" }] },
    { dialect := .openApi30, identity := some "Chip", type := some .string }]
  named := [("Pet", 0), ("Dog", 1), ("Cat", 2), ("Chip", 3)]

/-- Both variants refer back to the anchor while it has none; in the end it has both, once. -/
theorem company_anchorVariants :
    ofJson companyValue = .ok company ∧ ∃ set, company.compile = .ok set ∧
      (0, { name := "Pet", variants := [0, 1] }) ∈ set.anchors ∧
      (company.IsModel 3 ↔ ∃ m, set.forSchema 3 = some m) ∧ ¬ company.IsModel 3 ∧
      set.targetModels company 0 = [0, 1] := by
  have hload : ofJson companyValue = .ok company := by cbv
  obtain ⟨set, hset, hanchor⟩ : ∃ set, company.compile = .ok set ∧
      (0, { name := "Pet", variants := [0, 1] }) ∈ set.anchors := ⟨_, rfl, List.mem_cons_self⟩
  obtain ⟨-, -, htargets, hvariants, -⟩ := compile_anchorVariants hset hanchor
  obtain ⟨chip, hchip, hmodel⟩ := htargets ("chip", "#/components/schemas/Chip")
    (List.mem_cons_of_mem _ List.mem_cons_self)
  obtain rfl : 3 = chip := Option.some.inj hchip
  exact ⟨hload, set, hset, hanchor, hmodel, fun h => by simpa [company, schema] using h.type,
    hvariants.symm⟩

end Document
end OpenApi
