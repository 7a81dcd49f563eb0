-- SUMMARY: The compilation of a document and of its current form differ only in what is required.
import OpenApi.Proofs.Compilation.Cases
import OpenApi.Proofs.Except
import OpenApi.Proofs.Model.Merge
import OpenApi.Proofs.Schema.Dialects
import OpenApi.Proofs.Step

/-!
# Compilation of both dialects

No step of a compilation looks at whether a field is required. So a document and its
current form are compiled side by side: each step ends the same way in both, with the
same answer and the same compilation but for the required fields.
-/

namespace OpenApi

/-! ## All but what is required -/

/-- A field without a word on whether it is required. -/
def Field.unrequired (field : Field) : Field := { field with required := false }

/-- Fields without a word on which are required. -/
abbrev unrequiredFields (fields : List Field) : List Field := fields.map Field.unrequired

/-- A shape without a word on which fields are required. -/
def Shape.unrequired : Shape → Shape
  | .object fields => .object (unrequiredFields fields)
  | .union alternatives discriminator tags => .union alternatives discriminator tags

/-- A model without a word on which fields are required. -/
def Model.unrequired (model : Model) : Model := { model with shape := model.shape.unrequired }

/-- A model set without a word on which fields are required. -/
def ModelSet.unrequired (set : ModelSet) : ModelSet :=
  { set with models := set.models.map Model.unrequired }

/-- A compilation without a word on which fields are required. -/
def Compilation.unrequired (state : Compilation) : Compilation :=
  { state with slots := state.slots.map (Option.map Model.unrequired) }

namespace Compilation

theorem size_of_unrequired {state state' : Compilation}
    (h : state.unrequired = state'.unrequired) : state.slots.size = state'.slots.size := by
  have hsize := congrArg (fun state => state.slots.size) h
  simpa [unrequired] using hsize

theorem reserve_unrequired (state : Compilation) (schema : SchemaId) :
    (state.reserve schema).unrequired = state.unrequired.reserve schema := by
  simp [unrequired, reserve]

theorem fill_unrequired (state : Compilation) (id : ModelId) (model : Model) :
    (state.fill id model).unrequired = state.unrequired.fill id model.unrequired := by
  simp [unrequired, fill, Array.map_setIfInBounds]

end Compilation

theorem Model.fields_unrequired (model : Model) :
    model.unrequired.fields = unrequiredFields model.fields := by
  obtain ⟨name, schema, shape⟩ := model
  cases shape <;> rfl

theorem ModelSet.model_unrequired (set : ModelSet) (m : ModelId) :
    set.unrequired.model m = (set.model m).unrequired := by
  simp only [model, unrequired, Array.getD_eq_getD_getElem?, Array.getElem?_map]
  cases set.models[m]? <;> rfl

/-! ## Absorbing -/

theorem absorbField_unrequired (model : String) (merged : List Field) (field : Field) :
    absorbField model (unrequiredFields merged) field.unrequired =
      unrequiredFields <$> absorbField model merged field := by
  induction merged with
  | nil => rfl
  | cons first rest ih =>
      simp only [unrequiredFields, List.map_cons, absorbField]
      change (if first.name = field.name then if first.type = field.type then _ else _ else _) = _
      split
      · split <;> rfl
      · rw [ih]
        cases absorbField model rest field <;> rfl

theorem absorb_unrequired (model : String) (merged fields : List Field) :
    absorb model (unrequiredFields merged) (unrequiredFields fields) =
      unrequiredFields <$> absorb model merged fields := by
  induction fields generalizing merged with
  | nil => rfl
  | cons field rest ih =>
      rw [unrequiredFields, unrequiredFields, List.map_cons, absorb_cons, absorb_cons]
      change absorbField model (unrequiredFields merged) field.unrequired >>= _ = _
      rw [absorbField_unrequired]
      cases absorbField model merged field with
      | error error => rfl
      | ok next => exact ih next

theorem requireOwn_unrequired (schema : Schema) (fields : List Field) :
    unrequiredFields (requireOwn schema fields) = unrequiredFields fields := by
  simp [requireOwn_eq_map, Schema.requireField, unrequiredFields, Field.unrequired]

/-! ## Steps -/

namespace Compile

variable {α β γ δ : Type}

/-- How a step ends, without a word on which fields are required. -/
def view (see : α → β) (ended : Except (Stop SchemaError) α × Compilation) :
    Except (Stop SchemaError) β × Compilation :=
  (see <$> ended.1, ended.2.unrequired)

/-- From compilations that differ in the required fields only, both steps end the same way, up to
what is seen of their answers. -/
def Alike (see : α → β) (first second : Compile α) : Prop :=
  ∀ state state' : Compilation, state.unrequired = state'.unrequired →
    view see (first state) = view see (second state')

theorem alike_pure {see : α → β} {answer answer' : α} (h : see answer = see answer') :
    Alike see (pure answer) (pure answer') := by
  intro state state' hstate
  exact Prod.ext (congrArg Except.ok h) hstate

theorem alike_throw {see : α → β} (stop : Stop SchemaError) :
    Alike see (throw stop : Compile α) (throw stop) :=
  fun _ _ hstate => Prod.ext rfl hstate

theorem alike_ofExcept {see : α → β} {result result' : Except SchemaError α}
    (h : see <$> result = see <$> result') : Alike see (ofExcept result) (ofExcept result') := by
  rcases cases_of_map_eq_map h with ⟨error, rfl, rfl⟩ | ⟨_, _, rfl, rfl, hsame⟩
  · exact fun _ _ hstate => Prod.ext rfl hstate
  · exact fun _ _ hstate => Prod.ext (congrArg Except.ok hsame) hstate

theorem alike_bind {see : α → β} {see' : γ → δ} {first second : Compile α}
    {next next' : α → Compile γ} (h : Alike see first second)
    (hnext : ∀ answer answer', see answer = see answer' →
      Alike see' (next answer) (next' answer')) :
    Alike see' (first >>= next) (second >>= next') := by
  intro state state' hstate
  have hends := h state state' hstate
  rw [bind_apply, bind_apply]
  obtain ⟨hanswer, hafter⟩ := Prod.mk.inj hends
  rcases hfirst : first state with ⟨answer, after⟩
  rcases hsecond : second state' with ⟨answer', after'⟩
  rw [hfirst, hsecond] at hanswer hafter
  rcases cases_of_map_eq_map hanswer with ⟨error, rfl, rfl⟩ | ⟨found, found', rfl, rfl, hfound⟩
  · exact Prod.ext rfl hafter
  · exact hnext found found' hfound after after' hafter

theorem alike_map {see : α → β} {see' : γ → δ} {first second : Compile α} {f f' : α → γ}
    (h : Alike see first second)
    (hf : ∀ answer answer', see answer = see answer' → see' (f answer) = see' (f' answer')) :
    Alike see' (f <$> first) (f' <$> second) := by
  simp only [← bind_pure_comp]
  exact alike_bind h fun answer answer' hanswer => alike_pure (hf answer answer' hanswer)

theorem alike_get : Alike Compilation.unrequired get get :=
  fun _ _ hstate => Prod.ext (congrArg Except.ok hstate) hstate

theorem alike_modify {change change' : Compilation → Compilation}
    (h : ∀ state state' : Compilation, state.unrequired = state'.unrequired →
      (change state).unrequired = (change' state').unrequired) :
    Alike id (modify change : Compile PUnit) (modify change') :=
  fun state state' hstate => Prod.ext rfl (h state state' hstate)

theorem alike_between {see : α → β} {enter leave : Compilation → Compilation}
    {first second : Compile α}
    (henter : ∀ state state' : Compilation, state.unrequired = state'.unrequired →
      (enter state).unrequired = (enter state').unrequired)
    (hleave : ∀ state state' : Compilation, state.unrequired = state'.unrequired →
      (leave state).unrequired = (leave state').unrequired)
    (h : Alike see first second) :
    Alike see (between enter leave first) (between enter leave second) := by
  intro state state' hstate
  obtain ⟨hanswer, hafter⟩ := Prod.mk.inj (h (enter state) (enter state') (henter _ _ hstate))
  exact Prod.ext hanswer (hleave _ _ hafter)

/-! ## Loops -/

theorem alike_foldlM {see : β → δ} {elements : List α} {step step' : β → α → Compile β}
    (hstep : ∀ element ∈ elements, ∀ found found', see found = see found' →
      Alike see (step found element) (step' found' element))
    {found found' : β} (hfound : see found = see found') :
    Alike see (elements.foldlM step found) (elements.foldlM step' found') := by
  induction elements generalizing found found' with
  | nil => exact alike_pure hfound
  | cons element rest ih =>
      rw [List.forall_mem_cons] at hstep
      simp only [List.foldlM_cons]
      exact alike_bind (hstep.1 found found' hfound) fun _ _ hanswer => ih hstep.2 hanswer

theorem alike_mapM {see : β → δ} {elements : List α} {step step' : α → Compile β}
    (hstep : ∀ element ∈ elements, Alike see (step element) (step' element)) :
    Alike (List.map see) (elements.mapM step) (elements.mapM step') := by
  induction elements with
  | nil =>
      simp only [List.mapM_nil]
      exact alike_pure rfl
  | cons element rest ih =>
      rw [List.forall_mem_cons] at hstep
      simp only [List.mapM_cons]
      refine alike_bind hstep.1 fun answer answer' hanswer => ?_
      refine alike_bind (ih hstep.2) fun answers answers' hanswers => alike_pure ?_
      rw [List.map_cons, List.map_cons, hanswer, hanswers]

theorem alike_forM {elements : List α} {step step' : α → Compile PUnit}
    (hstep : ∀ element ∈ elements, Alike id (step element) (step' element)) :
    Alike id (elements.forM step) (elements.forM step') := by
  induction elements with
  | nil => exact alike_pure rfl
  | cons element rest ih =>
      rw [List.forall_mem_cons] at hstep
      simp only [List.forM_eq_forM, List.forM_cons]
      exact alike_bind hstep.1 fun _ _ _ => ih hstep.2

end Compile

/-! ## Fields -/

/-- Both give the same answers to all requests, but for what is required. -/
structure Requests.Alike (ask ask' : Requests) : Prop where
  type : ∀ context schema, Compile.Alike id (ask.type context schema) (ask'.type context schema)
  merged : ∀ context name schema, Compile.Alike unrequiredFields (ask.merged context name schema)
    (ask'.merged context name schema)

section Steps

open Compile

variable {doc : Document} {registry : Registry} {ask ask' : Requests} (hask : ask.Alike ask')
variable (context : Context) (name : String)
include hask

theorem elementType_alike {edge edge' : Edge} (hid : edge'.id = edge.id) :
    Alike id (elementType ask edge) (elementType ask' edge') := by
  refine alike_bind alike_get fun state state' hstate => ?_
  have hunions : state.unions = state'.unions := (congrArg Compilation.unions hstate :)
  rw [hunions, hid]
  refine alike_bind (alike_between ?_ ?_ (hask.type {} edge.id)) ?_
  · exact fun now now' hnow => congrArg (fun state => { state with unions := [] }) hnow
  · exact fun now now' hnow =>
      congrArg (fun state => { state with unions := state'.unions }) hnow
  · rintro type _ rfl
    exact alike_pure rfl

theorem fieldOf_alike (schema : Schema) (edge : Edge) :
    Alike Field.unrequired (fieldOf doc ask context schema name edge)
      (fieldOf doc.current ask' context schema.current name edge.unmarked) := by
  have htag : Alike id (Compile.ofExcept (context.narrow name))
      (Compile.ofExcept (context.narrow name)) := alike_ofExcept rfl
  refine alike_bind htag ?_
  rintro tag _ rfl
  cases tag with
  | some tag => exact alike_pure (by simp [Field.unrequired, Edge.unmarked])
  | none =>
      refine alike_bind (elementType_alike hask rfl) ?_
      rintro type _ rfl
      exact alike_pure (by simp [Field.unrequired, Edge.unmarked])

theorem fieldsOf_alike (schema : Schema) :
    Alike unrequiredFields (fieldsOf doc ask context schema)
      (fieldsOf doc.current ask' context schema.current) := by
  unfold fieldsOf
  simp only [Schema.current, List.mapM_map]
  exact alike_mapM fun property _ => fieldOf_alike hask context property.1 schema property.2

/-! ## Merging -/

omit hask in
/-- Absorbing goes the same way whatever is required. -/
theorem absorb_alike {merged merged' fields fields' : List Field}
    (hmerged : unrequiredFields merged = unrequiredFields merged')
    (hfields : unrequiredFields fields = unrequiredFields fields') :
    Alike unrequiredFields (Compile.ofExcept (absorb name merged fields))
      (Compile.ofExcept (absorb name merged' fields')) := by
  refine alike_ofExcept ?_
  rw [← absorb_unrequired, ← absorb_unrequired, hmerged, hfields]

theorem contribution_alike (owner : Schema) (member : Edge) :
    Alike unrequiredFields (contribution doc ask context name owner member)
      (contribution doc.current ask' context name owner.current member) := by
  simp only [contribution, Document.schema_current, Schema.combination_current,
    Schema.type_current, Schema.label_current]
  split
  · exact hask.merged context name member.id
  · split
    · exact fieldsOf_alike hask context _
    · exact fieldsOf_alike hask context _
    · exact alike_throw _
  · exact alike_throw _
  · exact alike_throw _

theorem mergeMembers_alike (schema : Schema) :
    Alike unrequiredFields (mergeMembers doc ask context name schema)
      (mergeMembers doc.current ask' context name schema.current) := by
  have hmembers : Alike unrequiredFields
      (schema.allOf.foldlM (fun merged member => do
        let fields ← contribution doc ask context name schema member
        Compile.ofExcept (absorb name merged fields)) [])
      (schema.allOf.foldlM (fun merged member => do
        let fields ← contribution doc.current ask' context name schema.current member
        Compile.ofExcept (absorb name merged fields)) []) := by
    refine alike_foldlM (fun member _ merged merged' hmerged => ?_) rfl
    exact alike_bind (contribution_alike hask context name schema member) fun _ _ hfields =>
      absorb_alike name hmerged hfields
  refine alike_bind hmembers fun inherited inherited' hinherited => ?_
  refine alike_bind (fieldsOf_alike hask context schema) fun own own' hown => ?_
  refine alike_bind (absorb_alike name hinherited hown) fun merged merged' hmerged => ?_
  refine alike_pure ?_
  rw [requireOwn_unrequired, requireOwn_unrequired, hmerged]

theorem mergedFields_alike (schema : SchemaId) :
    Alike unrequiredFields (mergedFields doc ask context name schema)
      (mergedFields doc.current ask' context name schema) := by
  refine alike_bind alike_get fun state state' hstate => ?_
  have hmerging : state.merging = state'.merging := (congrArg Compilation.merging hstate :)
  rw [hmerging, Document.schema_current, Schema.label_current]
  split
  · exact alike_throw _
  · refine alike_between ?_ ?_ (mergeMembers_alike hask context name _)
    · exact fun now now' hnow =>
        congrArg (fun state => { state with merging := schema :: state.merging }) hnow
    · exact fun now now' hnow =>
        congrArg (fun state => { state with merging := state.merging.erase schema }) hnow

/-! ## Unions and anchors -/

omit hask in
theorem memberStep_current (doc : Document) (member : Edge) :
    memberStep doc.current member = memberStep doc member := by
  simp [memberStep]

theorem alternativesOf_alike (schema : Schema) (members : List Edge) :
    Alike id (alternativesOf doc ask context schema members)
      (alternativesOf doc.current ask' context schema.current members) := by
  refine alike_foldlM (fun member _ found found' hfound => ?_) rfl
  cases hfound
  rw [memberStep_current]
  refine alike_bind (hask.type _ _) ?_
  rintro type _ rfl
  cases type <;> exact alike_pure rfl

theorem unionOf_alike (schema : SchemaId) (members : List Edge) :
    Alike Shape.unrequired (unionOf doc ask context schema members)
      (unionOf doc.current ask' context schema members) := by
  unfold unionOf
  rw [Document.schema_current]
  refine alike_bind (alike_between ?_ ?_ (alternativesOf_alike hask context _ members)) ?_
  · exact fun now now' hnow =>
      congrArg (fun state => { state with unions := schema :: state.unions }) hnow
  · exact fun now now' hnow =>
      congrArg (fun state => { state with unions := state.unions.tail }) hnow
  · rintro found _ rfl
    exact alike_pure rfl

theorem variantsOf_alike (schema : Schema) (targets : List String) :
    Alike id (variantsOf doc ask context schema targets)
      (variantsOf doc.current ask' context schema.current targets) := by
  refine alike_foldlM (fun target _ variants variants' hvariants => ?_) rfl
  cases hvariants
  rw [Document.resolve_current]
  cases doc.resolve target with
  | none => exact alike_throw _
  | some id =>
      refine alike_bind (hask.type _ _) fun type type' htype => ?_
      obtain rfl : type = type' := htype
      split <;> exact alike_pure rfl

theorem registerAnchor_alike (schema : SchemaId) :
    Alike id (registerAnchor doc ask context schema)
      (registerAnchor doc.current ask' context schema) := by
  refine alike_bind alike_get fun state state' hstate => ?_
  have hanchors : state.anchors = state'.anchors := (congrArg Compilation.anchors hstate :)
  rw [Document.schema_current, Compilation.anchor?, Compilation.anchor?, hanchors]
  split
  · exact alike_pure rfl
  · refine alike_bind (alike_modify fun now now' hnow => ?_) fun _ _ _ => ?_
    · exact congrArg (fun state => state.addAnchor schema (doc.schema schema).label) hnow
    · rw [Schema.discriminator_current]
      split
      · exact alike_pure rfl
      · refine alike_bind (variantsOf_alike hask context _ _) ?_
        rintro variants _ rfl
        exact alike_modify fun now now' hnow =>
          congrArg (fun state => state.setVariants schema variants) hnow

/-! ## Models and types -/

omit hask in
theorem modelName_alike (schema : Schema) :
    Alike id (modelName schema) (modelName schema.current) := by
  unfold modelName
  rw [Schema.title_current, Schema.identity_current]
  split
  · exact alike_pure rfl
  · refine alike_bind (alike_modify fun now now' hnow => ?_) fun _ _ _ => ?_
    · exact congrArg (fun state => { state with anonymous := state.anonymous + 1 }) hnow
    · refine alike_bind alike_get fun state state' hstate => ?_
      have hcount : state.anonymous = state'.anonymous :=
        (congrArg Compilation.anonymous hstate :)
      rw [hcount]
      exact alike_pure rfl

theorem shapeOf_alike (schema : SchemaId) :
    Alike Shape.unrequired (shapeOf doc ask context name schema)
      (shapeOf doc.current ask' context name schema) := by
  simp only [shapeOf, Document.schema_current, Schema.combination_current]
  split
  · exact alike_bind (mergedFields_alike hask context name schema) fun _ _ hfields =>
      alike_pure (congrArg Shape.object hfields)
  · exact unionOf_alike hask context schema _
  · exact unionOf_alike hask context schema _
  · exact alike_bind (fieldsOf_alike hask context _) fun _ _ hfields =>
      alike_pure (congrArg Shape.object hfields)

theorem buildModel_alike (schema : SchemaId) :
    Alike id (buildModel doc ask context schema)
      (buildModel doc.current ask' context schema) := by
  unfold buildModel
  rw [Document.schema_current]
  refine alike_bind (modelName_alike _) ?_
  rintro name _ rfl
  refine alike_bind alike_get fun state state' hstate => ?_
  rw [Compilation.size_of_unrequired hstate]
  refine alike_bind (alike_modify fun now now' hnow => ?_) fun _ _ _ => ?_
  · rw [Compilation.reserve_unrequired, Compilation.reserve_unrequired, hnow]
  refine alike_bind (shapeOf_alike hask context name schema) fun shape shape' hshape => ?_
  refine alike_bind (alike_modify fun now now' hnow => ?_) fun _ _ _ => alike_pure rfl
  simp only [Compilation.fill_unrequired, Model.unrequired, hnow, hshape]
  rfl

theorem modelType_alike (schema : SchemaId) :
    Alike id (modelType doc ask context schema)
      (modelType doc.current ask' context schema) := by
  refine alike_bind alike_get fun state state' hstate => ?_
  have hmemo : state.memo = state'.memo := (congrArg Compilation.memo hstate :)
  have hunions : state.unions = state'.unions := (congrArg Compilation.unions hstate :)
  rw [Document.schema_current, Compilation.model?, Compilation.model?, hmemo, hunions,
    Schema.label_current, Schema.isAnchor_current]
  split
  · split
    · exact alike_throw _
    · exact alike_pure rfl
  · split
    · exact alike_bind (registerAnchor_alike hask context schema) fun _ _ _ => alike_pure rfl
    · refine alike_bind (buildModel_alike hask context schema) ?_
      rintro model _ rfl
      exact alike_pure rfl

theorem typeOf_alike (schema : SchemaId) :
    Alike id (typeOf doc registry ask context schema)
      (typeOf doc.current registry ask' context schema) := by
  simp only [typeOf, Document.schema_current, Schema.type_current, Schema.items_current,
    Schema.label_current, Schema.format_current]
  split
  · split
    · refine alike_bind (elementType_alike hask rfl) ?_
      rintro type _ rfl
      exact alike_pure rfl
    · exact alike_throw _
  · exact modelType_alike hask context schema
  · exact modelType_alike hask context schema
  · rename_i scalar _ _ _
    have hscalar : Alike id
        (Compile.ofExcept (registry.resolve scalar (doc.schema schema).format))
        (Compile.ofExcept (registry.resolve scalar (doc.schema schema).format)) :=
      alike_ofExcept rfl
    refine alike_bind hscalar ?_
    rintro type _ rfl
    exact alike_pure rfl

end Steps

/-! ## Compilation -/

theorem requests_alike (doc : Document) (registry : Registry) (depth : Nat) :
    (requests doc registry depth).Alike (requests doc.current registry depth) := by
  induction depth with
  | zero => exact ⟨fun _ _ => Compile.alike_throw _, fun _ _ _ => Compile.alike_throw _⟩
  | succ depth ih =>
      exact ⟨fun context schema => typeOf_alike ih context schema,
        fun context name schema => mergedFields_alike ih context name schema⟩

/-- The bound on requests is that of the document. -/
theorem Document.depth_current (doc : Document) : doc.current.depth = doc.depth := by
  simp [Document.depth]

theorem schema_alike (doc : Document) (registry : Registry) (schema : SchemaId) :
    Compile.Alike id (Compile.schema doc registry schema)
      (Compile.schema doc.current registry schema) := by
  unfold Compile.schema
  rw [Document.depth_current]
  exact (requests_alike doc registry doc.depth).type {} schema

theorem named_alike (doc : Document) (registry : Registry) (name : String) :
    Compile.Alike id (Compile.named doc registry name)
      (Compile.named doc.current registry name) := by
  unfold Compile.named
  rw [Document.lookup_current]
  split
  · exact Compile.alike_throw _
  · refine Compile.alike_bind (schema_alike doc registry _) ?_
    rintro type _ rfl
    refine Compile.alike_bind (Compile.alike_modify fun state state' hstate => ?_) fun _ _ _ =>
      Compile.alike_pure rfl
    exact congrArg (fun state => state.addRoot name type) hstate

namespace Document

theorem compileNamed_alike (doc : Document) :
    Compile.Alike id doc.compileNamed doc.current.compileNamed := by
  refine Compile.alike_bind (Compile.alike_forM fun entry _ => ?_) fun _ _ _ =>
    Compile.alike_forM fun entry _ => ?_
  · simp only [schema_current, Schema.discriminator_current]
    split
    · exact Compile.alike_map (schema_alike doc .standard entry.2) fun _ _ _ => rfl
    · exact Compile.alike_pure rfl
  · exact Compile.alike_map (named_alike doc .standard entry.1) fun _ _ _ => rfl

theorem modelsOf_current (doc : Document) (memo : List (SchemaId × ModelId)) (place : Nat)
    (slots : List (Option Model)) :
    Compilation.modelsOf doc.current memo place slots = Compilation.modelsOf doc memo place slots := by
  induction slots generalizing place with
  | nil => rfl
  | cons slot rest ih => cases slot <;> simp [Compilation.modelsOf, ih]

theorem modelsOf_unrequired (doc : Document) (memo : List (SchemaId × ModelId)) (place : Nat)
    (slots : List (Option Model)) :
    Compilation.modelsOf doc memo place (slots.map (Option.map Model.unrequired)) =
      List.map Model.unrequired <$> Compilation.modelsOf doc memo place slots := by
  induction slots generalizing place with
  | nil => rfl
  | cons slot rest ih =>
      cases slot with
      | none => rfl
      | some model =>
          simp only [List.map_cons, Option.map_some, Compilation.modelsOf, ih]
          cases Compilation.modelsOf doc memo (place + 1) rest <;> rfl

theorem finish_current (doc : Document) (state : Compilation) :
    state.finish doc.current = state.finish doc := by
  simp only [Compilation.finish, modelsOf_current]

theorem finish_unrequired (doc : Document) (state : Compilation) :
    state.unrequired.finish doc = ModelSet.unrequired <$> state.finish doc := by
  simp only [Compilation.finish, Compilation.unrequired, Array.toList_map, modelsOf_unrequired]
  cases Compilation.modelsOf doc state.memo 0 state.slots.toList with
  | error error => rfl
  | ok models =>
      refine congrArg Except.ok ?_
      simp [ModelSet.unrequired]

/-- A document and its current form compile to the same models, but for what is required, or both
fail with the same error. -/
theorem compile_current_unrequired (doc : Document) :
    ModelSet.unrequired <$> doc.current.compile = ModelSet.unrequired <$> doc.compile := by
  have hview := doc.compileNamed_alike {} {} rfl
  unfold compile
  rcases hrun : doc.compileNamed {} with ⟨answer, state⟩
  rcases hrun' : doc.current.compileNamed {} with ⟨answer', state'⟩
  rw [hrun, hrun'] at hview
  obtain ⟨hanswer, hstate⟩ := Prod.mk.inj hview
  rcases cases_of_map_eq_map hanswer with ⟨error, rfl, rfl⟩ | ⟨_, _, rfl, rfl, -⟩
  · rfl
  · simp only [map_mapError, finish_current, ← finish_unrequired]
    rw [hstate]

end Document
end OpenApi
