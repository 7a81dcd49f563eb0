-- SUMMARY: A step only adds to a compilation, whether it succeeds or not.
import OpenApi.Proofs.Compilation.Budget
import OpenApi.Proofs.Compilation.Cases
import OpenApi.Proofs.Step

/-!
# What is retained

A step reserves slots and registers anchors, fills the slots that it has reserved, and
gives the anchors that it has registered their variants. It touches nothing that was
there before, and nothing of this is taken back where the step fails. So a slot that is
left empty stays empty, and an anchor that is left without variants stays without.
-/

namespace OpenApi

namespace Compilation

variable (doc : Document)

/-- The second compilation has all that the first has, and stands where it stands. -/
structure Retains (before after : Compilation) : Prop where
  slots : ∀ {m : ModelId} {slot : Option Model},
    before.slots[m]? = some slot → after.slots[m]? = some slot
  models : ModelTable.Le before.model? after.model?
  anchors : ∀ {id : SchemaId} {anchor : Anchor},
    before.anchor? id = some anchor → after.anchor? id = some anchor
  /-- An anchor has no model. -/
  unmodelled : ∀ {id : SchemaId}, (doc.schema id).isAnchor = true →
    before.model? id = none → after.model? id = none
  merging : after.merging = before.merging
  unions : after.unions = before.unions

variable {doc} {first second third before after : Compilation} {id : SchemaId}

theorem Retains.refl (state : Compilation) : state.Retains doc state :=
  ⟨fun h => h, fun _ _ h => h, fun h => h, fun _ h => h, rfl, rfl⟩

theorem Retains.trans (h : first.Retains doc second) (h' : second.Retains doc third) :
    first.Retains doc third where
  slots := fun hslot => h'.slots (h.slots hslot)
  models := fun id m hm => h'.models id m (h.models id m hm)
  anchors := fun hanchor => h'.anchors (h.anchors hanchor)
  unmodelled := fun hanchor hnone => h'.unmodelled hanchor (h.unmodelled hanchor hnone)
  merging := h'.merging.trans h.merging
  unions := h'.unions.trans h.unions

/-! ## Changes of a compilation -/

/-- Only what is being merged or built has changed. -/
theorem Retains.restore (h : first.Retains doc second) (hslots : before.slots = first.slots)
    (hmemo : before.memo = first.memo) (hanchors : before.anchors = first.anchors)
    (hslots' : after.slots = second.slots) (hmemo' : after.memo = second.memo)
    (hanchors' : after.anchors = second.anchors) (hmerging : after.merging = before.merging)
    (hunions : after.unions = before.unions) : before.Retains doc after where
  slots := by
    rw [hslots, hslots']
    exact h.slots
  models := by
    intro id m hm
    rw [model?, hmemo] at hm
    rw [model?, hmemo']
    exact h.models id m hm
  anchors := by
    intro id anchor hanchor
    rw [anchor?, hanchors] at hanchor
    rw [anchor?, hanchors']
    exact h.anchors hanchor
  unmodelled := by
    intro id hanchor hnone
    rw [model?, hmemo] at hnone
    rw [model?, hmemo']
    exact h.unmodelled hanchor hnone
  merging := hmerging
  unions := hunions

theorem retains_reserve (hnew : before.model? id = none)
    (hmodel : (doc.schema id).isAnchor = false) : before.Retains doc (before.reserve id) where
  slots := by
    intro m slot hslot
    have hlt := (Array.getElem?_eq_some_iff.mp hslot).1
    simp only [reserve, Array.getElem?_push_lt hlt]
    exact (Array.getElem?_eq_some_iff.mp hslot).2 ▸ rfl
  models := model?_le_reserve hnew
  anchors := fun h => h
  unmodelled := by
    intro other hanchor hnone
    rw [model?_reserve, if_neg, hnone]
    rintro rfl
    simp [hmodel] at hanchor
  merging := rfl
  unions := rfl

/-- Filling a slot that was not there at first. -/
theorem Retains.fill (h : before.Retains doc after) {m : ModelId} (hnew : before.slots.size ≤ m)
    (model : Model) : before.Retains doc (after.fill m model) where
  slots := by
    intro place slot hslot
    have hlt := (Array.getElem?_eq_some_iff.mp hslot).1
    rw [Compilation.fill, Array.getElem?_setIfInBounds_ne (by omega)]
    exact h.slots hslot
  models := h.models
  anchors := h.anchors
  unmodelled := h.unmodelled
  merging := h.merging
  unions := h.unions

theorem retains_addAnchor (hnew : before.anchor? id = none) (name : String) :
    before.Retains doc (before.addAnchor id name) where
  slots := fun h => h
  models := fun _ _ h => h
  anchors := by
    intro other anchor hanchor
    have hne : (other == id) = false := by
      rw [beq_eq_false_iff_ne]
      rintro rfl
      cases hnew.symm.trans hanchor
    simpa only [anchor?, addAnchor, List.lookup_cons, hne] using hanchor
  unmodelled := fun _ h => h
  merging := rfl
  unions := rfl

theorem anchor?_setVariants (state : Compilation) (id other : SchemaId)
    (variants : List ModelId) :
    (state.setVariants id variants).anchor? other =
      (state.anchor? other).map fun anchor =>
        if other = id then { anchor with variants } else anchor := by
  simp only [anchor?, setVariants]
  induction state.anchors with
  | nil => rfl
  | cons entry rest ih =>
      obtain ⟨key, anchor⟩ := entry
      simp only [List.map_cons, List.lookup_cons, ih]
      by_cases heq : other = key
      · subst heq
        simp
      · have hne : (other == key) = false := by simpa using heq
        simp only [hne]

/-- Giving variants to an anchor that was not there at first. -/
theorem Retains.setVariants (h : before.Retains doc after) (hnew : before.anchor? id = none)
    (variants : List ModelId) : before.Retains doc (after.setVariants id variants) where
  slots := h.slots
  models := h.models
  anchors := by
    intro other anchor hanchor
    rw [anchor?_setVariants, h.anchors hanchor, Option.map_some, if_neg]
    rintro rfl
    cases hnew.symm.trans hanchor
  unmodelled := h.unmodelled
  merging := h.merging
  unions := h.unions

end Compilation

/-! ## Steps -/

namespace Compile

variable {α β : Type} {doc : Document} {state : Compilation}

/-- A step only adds to a compilation, whether it succeeds or not. -/
abbrev Retains (doc : Document) (step : Compile α) (state : Compilation) : Prop :=
  step.Ends state (fun _ after => state.Retains doc after) fun _ after => state.Retains doc after

theorem retains_pure (answer : α) : Retains doc (pure answer : Compile α) state := .refl state

theorem retains_throw (stop : Stop SchemaError) : Retains doc (throw stop : Compile α) state :=
  .refl state

theorem retains_ofExcept (result : Except SchemaError α) :
    Retains doc (ofExcept result) state :=
  (ends_ofExcept result).mpr ⟨fun _ _ => .refl state, fun _ _ => .refl state⟩

/-- What is done behind a step only adds to what the step leaves behind. -/
theorem Retains.after {step : Compile α} {now : Compilation} (h : state.Retains doc now)
    (hstep : Retains doc step now) :
    step.Ends now (fun _ after => state.Retains doc after) fun _ after => state.Retains doc after :=
  hstep.mono (fun _ _ h' => h.trans h') fun _ _ h' => h.trans h'

theorem retains_bind {step : Compile α} {next : α → Compile β} (h : Retains doc step state)
    (hnext : ∀ answer after, state.Retains doc after → Retains doc (next answer) after) :
    Retains doc (step >>= next) state := by
  rw [Retains, ends_bind]
  exact h.imp fun answer after hafter => Retains.after hafter (hnext answer after hafter)

theorem retains_foldlM {elements : List α} {step : β → α → Compile β}
    (hstep : ∀ found element now, element ∈ elements → Retains doc (step found element) now)
    (found : β) : Retains doc (elements.foldlM step found) state := by
  refine ends_foldlM (fun _ _ now => state.Retains doc now) ?_ (.refl state)
  intro done element found now hmem hnow
  exact Retains.after hnow (hstep found element now hmem)

theorem retains_mapM {elements : List α} {step : α → Compile β}
    (hstep : ∀ element now, element ∈ elements → Retains doc (step element) now) :
    Retains doc (elements.mapM step) state := by
  refine ends_mapM (fun _ _ now => state.Retains doc now) ?_ (.refl state)
  intro done element answers now hmem hnow
  exact Retains.after hnow (hstep element now hmem)

end Compile

/-- An item takes no step where its type takes none. -/
theorem elementType_of_type {ask : Requests} {edge : Edge} {state : Compilation}
    {answer : Except (Stop SchemaError) (Option Ty)}
    (h : ask.type {} edge.id { state with unions := [] } = (answer, { state with unions := [] })) :
    elementType ask edge state = (answer.map fun type => type.getD (.anchor edge.id), state) := by
  have hget : (get : Compile Compilation) state = (.ok state, state) := rfl
  cases answer <;> simp only [elementType, Compile.bind_apply, hget, Compile.between, h] <;> rfl

/-- All requests only add to a compilation. -/
structure Requests.Retain (doc : Document) (ask : Requests) : Prop where
  type : ∀ context id state, (ask.type context id).Retains doc state
  merged : ∀ context name id state, (ask.merged context name id).Retains doc state

section Steps

variable {doc : Document} {registry : Registry} {ask : Requests} (hask : ask.Retain doc)
variable (context : Context) (name : String) (state : Compilation)
include hask

/-! ### Fields -/

theorem elementType_retains (edge : Edge) : (elementType ask edge).Retains doc state := by
  simp only [elementType, Compile.Retains, Compile.ends_bind, Compile.ends_get,
    Compile.ends_between, Compile.ends_pure]
  exact (hask.type {} edge.id { state with unions := [] }).mono
    (fun _ _ h => h.restore rfl rfl rfl rfl rfl rfl h.merging rfl)
    fun _ _ h => h.restore rfl rfl rfl rfl rfl rfl h.merging rfl

theorem fieldOf_retains (schema : Schema) (edge : Edge) :
    (fieldOf doc ask context schema name edge).Retains doc state := by
  refine Compile.retains_bind (Compile.retains_ofExcept _) fun tag after _ => ?_
  cases tag with
  | some tag => exact Compile.retains_pure _
  | none =>
      exact Compile.retains_bind (elementType_retains hask after edge)
        fun _ _ _ => Compile.retains_pure _

theorem fieldsOf_retains (schema : Schema) :
    (fieldsOf doc ask context schema).Retains doc state :=
  Compile.retains_mapM fun entry now _ => fieldOf_retains hask context entry.1 now schema entry.2

/-! ### Merging -/

theorem contribution_retains (owner : Schema) (member : Edge) :
    (contribution doc ask context name owner member).Retains doc state := by
  rcases contribution_cases doc context name owner member with
    ⟨-, heq⟩ | ⟨-, heq⟩ | ⟨-, _, _, heq⟩ <;> rw [heq]
  · exact hask.merged context name member.id state
  · exact fieldsOf_retains hask context state _
  · exact Compile.retains_throw _

theorem mergeMembers_retains (schema : Schema) :
    (mergeMembers doc ask context name schema).Retains doc state := by
  refine Compile.retains_bind ?_ fun _ _ _ => ?_
  · refine Compile.retains_foldlM (fun _ member now _ => ?_) []
    exact Compile.retains_bind (contribution_retains hask context name now schema member)
      fun _ _ _ => Compile.retains_ofExcept _
  · refine Compile.retains_bind (fieldsOf_retains hask context _ schema) fun _ _ _ => ?_
    exact Compile.retains_bind (Compile.retains_ofExcept _) fun _ _ _ => Compile.retains_pure _

theorem mergedFields_retains (id : SchemaId) :
    (mergedFields doc ask context name id).Retains doc state := by
  simp only [mergedFields, Compile.Retains, Compile.ends_bind, Compile.ends_get]
  split
  · exact Compile.retains_throw _
  · rw [Compile.ends_between]
    have hrestore {after : Compilation}
        (h : Compilation.Retains doc { state with merging := id :: state.merging } after) :
        state.Retains doc { after with merging := after.merging.erase id } :=
      h.restore rfl rfl rfl rfl rfl rfl (by simp [h.merging]) h.unions
    exact (mergeMembers_retains hask context name _ _).mono (fun _ _ => hrestore)
      fun _ _ => hrestore

/-! ### Unions and anchors -/

theorem alternativesOf_retains (schema : Schema) (members : List Edge) :
    (alternativesOf doc ask context schema members).Retains doc state := by
  refine Compile.retains_foldlM (fun _ member now _ => ?_) []
  refine Compile.retains_bind (hask.type _ _ _) fun type _ _ => ?_
  cases type <;> exact Compile.retains_pure _

theorem unionOf_retains (id : SchemaId) (members : List Edge) :
    (unionOf doc ask context id members).Retains doc state := by
  refine Compile.retains_bind ?_ fun _ _ _ => Compile.retains_pure _
  rw [Compile.Retains, Compile.ends_between]
  have hrestore {after : Compilation}
      (h : Compilation.Retains doc { state with unions := id :: state.unions } after) :
      state.Retains doc { after with unions := after.unions.tail } :=
    h.restore rfl rfl rfl rfl rfl rfl h.merging (by simp [h.unions])
  exact (alternativesOf_retains hask context _ _ members).mono (fun _ _ => hrestore)
    fun _ _ => hrestore

theorem variantsOf_retains (schema : Schema) (targets : List String) :
    (variantsOf doc ask context schema targets).Retains doc state := by
  refine Compile.retains_foldlM (fun _ target now _ => ?_) []
  cases doc.resolve target with
  | none => exact Compile.retains_throw _
  | some id =>
      refine Compile.retains_bind (hask.type _ _ _) fun type _ _ => ?_
      split <;> exact Compile.retains_pure _

/-- An anchor whose variants fail is there without them. -/
theorem registerAnchor_retains (id : SchemaId) :
    (registerAnchor doc ask context id).Ends state (fun _ after => state.Retains doc after)
      fun _ after => state.Retains doc after ∧ state.anchor? id = none ∧
        after.anchor? id = some { name := (doc.schema id).label } := by
  simp only [registerAnchor, Compile.ends_bind, Compile.ends_get]
  split
  · exact .refl state
  · rename_i hnew
    have hnew : state.anchor? id = none := Option.not_isSome_iff_eq_none.mp hnew
    have hadd : state.Retains doc (state.addAnchor id (doc.schema id).label) :=
      Compilation.retains_addAnchor hnew _
    simp only [Compile.ends_bind, Compile.ends_modify]
    split
    · exact hadd
    · simp only [Compile.ends_bind, Compile.ends_modify]
      refine (variantsOf_retains hask context _ _ _).mono ?_ ?_
      · intro variants after h
        exact (hadd.trans h).setVariants hnew variants
      · intro error after h
        refine ⟨hadd.trans h, hnew, h.anchors ?_⟩
        simp [Compilation.anchor?, Compilation.addAnchor]

/-! ### Models and types -/

theorem shapeOf_retains (id : SchemaId) : (shapeOf doc ask context name id).Retains doc state := by
  rcases shapeOf_cases doc context name id with ⟨-, heq⟩ | ⟨-, heq⟩ | ⟨-, heq⟩ <;> rw [heq]
  · exact Compile.retains_bind (mergedFields_retains hask context name state id)
      fun _ _ _ => Compile.retains_pure _
  · exact unionOf_retains hask context state id _
  · exact Compile.retains_bind (fieldsOf_retains hask context state _)
      fun _ _ _ => Compile.retains_pure _

omit hask in
theorem modelName_counts (schema : Schema) :
    (modelName schema).Ends state
      (fun _ after => ∃ anonymous, after = { state with anonymous }) fun _ _ => False := by
  unfold modelName
  split
  · exact ⟨state.anonymous, rfl⟩
  · exact ⟨state.anonymous + 1, rfl⟩

/-- A model whose body fails has a slot that is left empty. -/
theorem buildModel_retains {id : SchemaId} (hnew : state.model? id = none)
    (hmodel : (doc.schema id).isAnchor = false) :
    (buildModel doc ask context id).Ends state (fun _ after => state.Retains doc after)
      fun _ after => state.Retains doc after ∧
        ∃ m, after.model? id = some m ∧ after.slots[m]? = some none := by
  simp only [buildModel, Compile.ends_bind, Compile.ends_get, Compile.ends_modify,
    Compile.ends_pure]
  refine (modelName_counts state (doc.schema id)).mono ?_ fun _ _ => False.elim
  rintro name now ⟨anonymous, rfl⟩
  have hreserve : state.Retains doc
      (({ state with anonymous } : Compilation).reserve id) :=
    (Compilation.retains_reserve hnew hmodel).restore rfl rfl rfl rfl rfl rfl rfl rfl
  refine (shapeOf_retains hask context name _ id).mono ?_ ?_
  · intro shape after h
    exact (hreserve.trans h).fill (Nat.le_refl _) _
  · intro error after h
    refine ⟨hreserve.trans h, state.slots.size, h.models id _ ?_, h.slots ?_⟩
    · rw [Compilation.model?_reserve, if_pos rfl]
    · simp [Compilation.reserve]

theorem modelType_retains (id : SchemaId) :
    (modelType doc ask context id).Retains doc state := by
  simp only [modelType, Compile.Retains, Compile.ends_bind, Compile.ends_get]
  split
  · split
    · exact Compile.retains_throw _
    · exact Compile.retains_pure _
  · rename_i hnew
    split
    · exact Compile.retains_bind
        ((registerAnchor_retains hask context state id).mono (fun _ _ h => h) fun _ _ h => h.1)
        fun _ _ _ => Compile.retains_pure _
    · rename_i hmodel
      exact Compile.retains_bind
        ((buildModel_retains hask context state hnew (by simpa using hmodel)).mono
          (fun _ _ h => h) fun _ _ h => h.1)
        fun _ _ _ => Compile.retains_pure _

theorem typeOf_retains (id : SchemaId) :
    (typeOf doc registry ask context id).Retains doc state := by
  rcases typeOf_cases doc registry context id with
    ⟨_, -, -, heq⟩ | ⟨-, -, heq⟩ | ⟨_, -, -, heq⟩ | ⟨-, heq⟩ <;> rw [heq]
  · exact Compile.retains_bind (elementType_retains hask state _) fun _ _ _ =>
      Compile.retains_pure _
  · exact Compile.retains_throw _
  · exact Compile.retains_bind (Compile.retains_ofExcept _) fun _ _ _ => Compile.retains_pure _
  · exact modelType_retains hask context state id

end Steps

/-- Requests of any depth only add to a compilation. -/
theorem requests_retain (doc : Document) (registry : Registry) (depth : Nat) :
    (requests doc registry depth).Retain doc := by
  induction depth with
  | zero => exact ⟨fun _ _ _ => Compile.retains_throw _, fun _ _ _ _ => Compile.retains_throw _⟩
  | succ depth ih =>
      exact ⟨fun context id state => typeOf_retains ih context state id,
        fun context name id state => mergedFields_retains ih context name state id⟩

end OpenApi
