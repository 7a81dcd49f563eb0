-- SUMMARY: A step that is taken again finds what it has built: it answers the same and changes nothing.
import OpenApi.Proofs.Compilation.Retained
import OpenApi.Proofs.FlatMerge

/-!
# Steps taken again

What a step builds stays in the compilation. So a step that has succeeded can be taken
again at any later time: models are found by their indices, anchors are registered, and
merging goes through the same members again. It then answers what it has answered and
leaves the compilation as it is. Two checks might still stop it. A union must not be met
while it is being built, but fields and items start without such unions. And members must
not be merged into themselves, so the schemas that are being merged must be among those
that were being merged the first time.
-/

namespace OpenApi

namespace Compilation

variable {doc : Document} {first second third : Compilation}

variable (doc) in
/-- The second compilation has the models and the anchors of the first, and has no models for
anchors either. -/
structure Within (first second : Compilation) : Prop where
  models : ModelTable.Le first.model? second.model?
  anchors : ∀ {id : SchemaId}, (first.anchor? id).isSome = true → (second.anchor? id).isSome = true
  unmodelled : ∀ {id : SchemaId}, (doc.schema id).isAnchor = true →
    first.model? id = none → second.model? id = none

theorem Within.trans (h : first.Within doc second) (h' : second.Within doc third) :
    first.Within doc third :=
  ⟨fun id m hm => h'.models id m (h.models id m hm), fun hanchor => h'.anchors (h.anchors hanchor),
    fun hanchor hnone => h'.unmodelled hanchor (h.unmodelled hanchor hnone)⟩

theorem Retains.within (h : first.Retains doc second) : first.Within doc second where
  models := h.models
  anchors := by
    intro id hanchor
    obtain ⟨anchor, hanchor⟩ := Option.isSome_iff_exists.mp hanchor
    rw [h.anchors hanchor]
    rfl
  unmodelled := h.unmodelled

end Compilation

/-! ## Laws -/

namespace Compile

variable {α β : Type} {doc : Document}

variable (doc) in
/-- Where a step has succeeded, a second one answers the same later, and changes nothing. -/
def Again (step again : Compile α) : Prop :=
  ∀ ⦃state after : Compilation⦄ ⦃answer : α⦄, step state = (.ok answer, after) →
    ∀ ⦃later : Compilation⦄, after.Within doc later → later.merging ⊆ state.merging →
      again later = (.ok answer, later)

theorem Retains.of_ok {step : Compile α} {state after : Compilation} {answer : α}
    (h : step.Retains doc state) (hstep : step state = (.ok answer, after)) :
    state.Retains doc after := by
  unfold Retains Ends at h
  rwa [hstep] at h

theorem again_pure (answer : α) : Again doc (pure answer) (pure answer : Compile α) := by
  rintro _ _ _ ⟨⟩ later - -
  rfl

theorem again_ofExcept (result : Except SchemaError α) :
    Again doc (ofExcept result) (ofExcept result) := by
  intro _ _ answer h later _ _
  exact ofExcept_eq_ok_iff.mpr ⟨(ofExcept_eq_ok_iff.mp h).1, rfl⟩

/-- What follows a step keeps all that the step has built. -/
theorem again_bind {step step' : Compile α} {next next' : α → Compile β}
    (h : Again doc step step') (hnext : ∀ answer, Again doc (next answer) (next' answer))
    (hstepRetains : ∀ state, step.Retains doc state)
    (hnextRetains : ∀ answer state, (next answer).Retains doc state) :
    Again doc (step >>= next) (step' >>= next') := by
  intro state after answer hstep later hlater hmerging
  obtain ⟨middle, now, hfirst, hrest⟩ := bind_eq_ok_iff.mp hstep
  have hnow := (hstepRetains state).of_ok hfirst
  have hafter := (hnextRetains middle now).of_ok hrest
  refine bind_eq_ok_iff.mpr ⟨middle, later, h hfirst (hafter.within.trans hlater) hmerging, ?_⟩
  exact hnext middle hrest hlater (hnow.merging ▸ hmerging)

theorem again_mapM {elements : List α} {step step' : α → Compile β}
    (hstep : ∀ element, Again doc (step element) (step' element))
    (hretains : ∀ element state, (step element).Retains doc state) :
    Again doc (elements.mapM step) (elements.mapM step') := by
  induction elements with
  | nil => exact again_pure _
  | cons element rest ih =>
      simp only [List.mapM_cons]
      have hrest : ∀ state, (rest.mapM step).Retains doc state := fun state =>
        retains_mapM fun element now _ => hretains element now
      refine again_bind (hstep element) (fun answer => ?_) (hretains element) fun answer state =>
        retains_bind (hrest state) fun _ _ _ => retains_pure _
      exact again_bind ih (fun _ => again_pure _) hrest fun _ _ => retains_pure _

end Compile

/-- Requests that have been answered are answered again by others. -/
structure Requests.Again (doc : Document) (ask again : Requests) : Prop where
  type : ∀ {context : Context} {id : SchemaId} {state after : Compilation} {type : Option Ty},
    ask.type context id state = (.ok type, after) →
      ∀ {later : Compilation}, after.Within doc later → later.unions = [] →
        again.type context id later = (.ok type, later)
  merged : ∀ context model id, (ask.merged context model id).Again doc
    (again.merged context model id)

/-! ## Steps -/

section Steps

variable {doc : Document} {registry : Registry} {ask again : Requests}
variable (hagain : ask.Again doc again) (hretain : ask.Retain doc)
variable (context : Context) (model : String)
include hagain

/-- A field or an item starts without unions, at any time. -/
theorem elementType_again {edge : Edge} {state after later : Compilation} {type : Ty}
    (h : elementType ask edge state = (.ok type, after)) (hlater : after.Within doc later) :
    elementType again edge later = (.ok type, later) := by
  simp only [elementType, Compile.bind_eq_ok_iff, Compile.between_eq_ok_iff] at h ⊢
  obtain ⟨_, _, ⟨⟩, known, _, ⟨last, hlast, rfl⟩, ⟨⟩⟩ := h
  have hwithin : last.Within doc { later with unions := [] } :=
    ⟨hlater.models, hlater.anchors, hlater.unmodelled⟩
  exact ⟨later, later, rfl, known, later, ⟨_, hagain.type hlast hwithin rfl, rfl⟩, rfl⟩

include hretain

theorem fieldOf_again (schema : Schema) (name : String) (edge : Edge) :
    (fieldOf doc ask context schema name edge).Again doc
      (fieldOf doc again context schema name edge) := by
  refine Compile.again_bind (Compile.again_ofExcept _) (fun tag => ?_)
    (fun _ => Compile.retains_ofExcept _) fun tag state => ?_
  · cases tag with
    | some tag => exact Compile.again_pure _
    | none =>
        exact Compile.again_bind
          (fun _ _ _ h _ hlater _ => elementType_again hagain h hlater)
          (fun _ => Compile.again_pure _) (fun state => elementType_retains hretain state edge) fun _ _ => Compile.retains_pure _
  · cases tag with
    | some tag => exact Compile.retains_pure _
    | none =>
        exact Compile.retains_bind (elementType_retains hretain state edge) fun _ _ _ =>
          Compile.retains_pure _

theorem fieldsOf_again (schema : Schema) :
    (fieldsOf doc ask context schema).Again doc (fieldsOf doc again context schema) :=
  Compile.again_mapM (fun entry => fieldOf_again hagain hretain context schema entry.1 entry.2)
    fun entry state => fieldOf_retains hretain context entry.1 state schema entry.2

/-- The edge by which a member is included again, and its owner, matter only where the member
cannot be merged at all. -/
theorem contribution_again (owner owner' : Schema) {member member' : Edge}
    (hid : member'.id = member.id) :
    (contribution doc ask context model owner member).Again doc
      (contribution doc again context model owner' member') := by
  rcases contribution_cases doc context model owner member with
    ⟨hall, heq⟩ | ⟨⟨hnone, htype⟩, heq⟩ | ⟨-, _, _, heq⟩
  · obtain ⟨_, hcomb⟩ := Schema.exists_combination_of_allOf hall
    have heq' : contribution doc again context model owner' member' =
        again.merged context model member.id := by
      simp only [contribution, hid, hcomb]
    rw [heq, heq']
    exact hagain.merged context model member.id
  · have heq' : contribution doc again context model owner' member' =
        fieldsOf doc again context (doc.schema member.id) := by
      rcases htype with htype | htype <;> simp only [contribution, hid, hnone, htype]
    rw [heq, heq']
    exact fieldsOf_again hagain hretain context _
  · rw [heq]
    rintro _ _ _ ⟨⟩

theorem memberParts_again (schema : Schema) :
    (memberParts doc ask context model schema).Again doc
      (memberParts doc again context model schema) := by
  have hfields := fun state => fieldsOf_retains hretain context state schema
  refine Compile.again_bind
    (Compile.again_mapM (fun member => contribution_again hagain hretain context model _ _ rfl)
      fun member state => contribution_retains hretain context model state schema member)
    (fun _ => Compile.again_bind (fieldsOf_again hagain hretain context schema)
      (fun _ => Compile.again_pure _) hfields fun _ _ => Compile.retains_pure _)
    (fun state => Compile.retains_mapM fun member now _ =>
      contribution_retains hretain context model now schema member)
    fun _ state => Compile.retains_bind (hfields state) fun _ _ _ => Compile.retains_pure _

theorem mergedFields_again (id : SchemaId) :
    (mergedFields doc ask context model id).Again doc
      (mergedFields doc again context model id) := by
  intro state after fields h later hlater hmerging
  rw [mergedFields_eq_ok_iff] at h ⊢
  obtain ⟨hnew, parts, merged, last, hparts, habsorb, rfl, rfl⟩ := h
  have hwithin : last.Within doc (later.beginMerge id) :=
    ⟨hlater.models, hlater.anchors, hlater.unmodelled⟩
  have hparts' := memberParts_again hagain hretain context model (doc.schema id) hparts hwithin
    (List.cons_subset_cons id hmerging)
  refine ⟨fun hmem => hnew (hmerging hmem), parts, merged, _, hparts', habsorb, rfl, ?_⟩
  simp [Compilation.beginMerge, Compilation.endMerge]

/-! ### Types -/

omit hagain

theorem registerAnchor_registered (id : SchemaId) (state : Compilation) :
    (registerAnchor doc ask context id).Ends state
      (fun _ after => (after.anchor? id).isSome = true) fun _ _ => True := by
  simp only [registerAnchor, Compile.ends_bind, Compile.ends_get]
  split
  · assumption
  · have hadded {state : Compilation} :
        ((state.addAnchor id (doc.schema id).label).anchor? id).isSome = true := by
      simp [Compilation.anchor?, Compilation.addAnchor]
    simp only [Compile.ends_bind, Compile.ends_modify]
    split
    · exact hadded
    · simp only [Compile.ends_bind, Compile.ends_modify]
      refine (variantsOf_retains hretain context _ _ _).mono (fun variants after h => ?_)
        fun _ _ _ => trivial
      rw [Compilation.anchor?_setVariants, Option.isSome_map]
      exact h.within.anchors hadded

theorem buildModel_known (id : SchemaId) (state : Compilation) :
    (buildModel doc ask context id).Ends state (fun m after => after.model? id = some m)
      fun _ _ => True := by
  simp only [buildModel, Compile.ends_bind, Compile.ends_get, Compile.ends_modify,
    Compile.ends_pure]
  refine (modelName_counts state (doc.schema id)).mono ?_ fun _ _ => False.elim
  rintro name now ⟨anonymous, rfl⟩
  refine (shapeOf_retains hretain context name _ id).mono (fun shape after h => ?_)
    fun _ _ _ => trivial
  refine h.models id _ ?_
  rw [Compilation.model?_reserve, if_pos rfl]

/-- Behind an answer the model has its index, or the anchor is registered and has no model. -/
theorem modelType_known (id : SchemaId) (state : Compilation) :
    (modelType doc ask context id).Ends state
      (fun type after => (∃ m, after.model? id = some m ∧ type = some (.model m)) ∨
        (doc.schema id).isAnchor = true ∧ after.model? id = none ∧
          (after.anchor? id).isSome = true ∧ type = none)
      fun _ _ => True := by
  simp only [modelType, Compile.ends_bind, Compile.ends_get]
  split
  · rename_i m hm
    split
    · trivial
    · exact .inl ⟨m, hm, rfl⟩
  · rename_i hnone
    split <;> simp only [Compile.ends_bind, Compile.ends_pure]
    · rename_i hanchor
      refine ((registerAnchor_registered hretain context id state).and
        (registerAnchor_retains hretain context state id)).mono (fun _ after h => ?_)
        fun _ _ _ => trivial
      exact .inr ⟨hanchor, h.2.unmodelled hanchor hnone, h.1, trivial⟩
    · exact (buildModel_known hretain context id state).mono (fun m _ h => .inl ⟨m, h, rfl⟩)
        fun _ _ _ => trivial

include hagain

/-- A model has its index, and an anchor is registered. -/
theorem typeOf_again {id : SchemaId} {state after later : Compilation} {type : Option Ty}
    (h : typeOf doc registry ask context id state = (.ok type, after))
    (hlater : after.Within doc later) (hunions : later.unions = []) :
    typeOf doc registry again context id later = (.ok type, later) := by
  rcases typeOf_cases doc registry context id with
    ⟨items, -, -, heq⟩ | ⟨-, -, heq⟩ | ⟨primitive, -, -, heq⟩ | ⟨-, heq⟩ <;> rw [heq] at h ⊢
  · obtain ⟨item, _, hitem, ⟨⟩⟩ := Compile.bind_eq_ok_iff.mp h
    exact Compile.bind_eq_ok_iff.mpr ⟨item, later, elementType_again hagain hitem hlater, rfl⟩
  · cases h
  · obtain ⟨scalar, _, hscalar, ⟨⟩⟩ := Compile.bind_eq_ok_iff.mp h
    have hresolve := (Compile.ofExcept_eq_ok_iff.mp hscalar).1
    exact Compile.bind_eq_ok_iff.mpr
      ⟨scalar, later, Compile.ofExcept_eq_ok_iff.mpr ⟨hresolve, rfl⟩, rfl⟩
  · have hknown := modelType_known hretain context id state
    rw [Compile.Ends, h] at hknown
    rw [Compile.eq_ok_iff_ends]
    simp only [modelType, Compile.ends_bind, Compile.ends_get]
    rcases hknown with ⟨m, hm, rfl⟩ | ⟨hanchor, hnone, hregistered, rfl⟩
    · simp [hlater.models id m hm, hunions]
    · simp only [hlater.unmodelled hanchor hnone, hanchor, if_true, registerAnchor,
        Compile.ends_bind, Compile.ends_get, hlater.anchors hregistered, Compile.ends_pure,
        and_self]

end Steps

/-- Requests that have been answered with some bound on their depth are answered again with any that
is not smaller. -/
theorem requests_again (doc : Document) (registry : Registry) {depth depth' : Nat}
    (hle : depth ≤ depth') :
    (requests doc registry depth).Again doc (requests doc registry depth') := by
  induction depth generalizing depth' with
  | zero => exact ⟨nofun, fun _ _ _ _ _ _ h => nomatch h⟩
  | succ depth ih =>
      obtain ⟨depth', rfl⟩ : ∃ k, depth' = k + 1 := ⟨depth' - 1, by omega⟩
      have hagain := ih (Nat.le_of_succ_le_succ hle)
      have hretain := requests_retain doc registry depth
      refine ⟨fun h _ => ?_, mergedFields_again hagain hretain⟩
      exact typeOf_again hagain hretain _ h

end OpenApi
