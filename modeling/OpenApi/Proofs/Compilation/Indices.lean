-- SUMMARY: However steps end, no two schemas share an index, and each answer is the type of its schema.
import OpenApi.Proofs.Compilation.Retained

/-!
# Indices

To the arena of a compilation steps do two things alone: they reserve an index for a
schema that has a model and no index yet, and they fill the slot that they have reserved.
What both keep holds behind every step, also behind one that fails with slots left empty.
So no two schemas ever share an index, and a step that answers with a type answers with
the one that the schema has by the indices that there are.
-/

namespace OpenApi

/-! ## Invariants of arenas -/

/-- What holds of an arena still holds when a schema with a model gets its index, and when the slot
at the index of a schema is filled. -/
structure Arena.Invariant (doc : Document) (holds : Arena → Prop) : Prop where
  reserve : ∀ {arena : Arena} {id : SchemaId}, holds arena → arena.models id = none →
    doc.IsModel id → holds (arena.reserve id)
  fill : ∀ {arena : Arena} {m : ModelId} {model : Model}, holds arena →
    arena.models model.schema = some m → arena.slots[m]? = some none → holds (arena.fill m model)

theorem Arena.indexed_invariant (doc : Document) :
    Arena.Invariant doc fun arena => arena.Indexed doc :=
  ⟨fun h => h.reserve, fun h => h.fill⟩

theorem Arena.indexed_start (doc : Document) : ({} : Compilation).arena.Indexed doc where
  bound := nofun
  distinct := nofun
  isModel := nofun
  owner := fun hslot => by simp [Compilation.arena] at hslot

theorem Compilation.arena_fill (state : Compilation) (m : ModelId) (model : Model) :
    (state.fill m model).arena = state.arena.fill m model := rfl

/-! ## Steps -/

namespace Compile

variable {α β : Type} {holds : Arena → Prop}

/-- What holds of the arena before a step holds behind it, whether it succeeds or not. -/
def Upholds (holds : Arena → Prop) (step : Compile α) : Prop :=
  ∀ state : Compilation, holds state.arena →
    step.Ends state (fun _ after => holds after.arena) fun _ after => holds after.arena

theorem upholds_pure (answer : α) : Upholds holds (pure answer : Compile α) := fun _ h => h

theorem upholds_throw (stop : Stop SchemaError) : Upholds holds (throw stop : Compile α) :=
  fun _ h => h

theorem upholds_ofExcept (result : Except SchemaError α) : Upholds holds (ofExcept result) :=
  fun _ h => (ends_ofExcept result).mpr ⟨fun _ _ => h, fun _ _ => h⟩

theorem upholds_get : Upholds holds (get : Compile Compilation) := fun _ h => h

theorem upholds_bind {step : Compile α} {next : α → Compile β} (h : Upholds holds step)
    (hnext : ∀ answer, Upholds holds (next answer)) : Upholds holds (step >>= next) := by
  intro state hstate
  rw [ends_bind]
  exact (h state hstate).imp fun answer after => hnext answer after

/-- What is merged or built as a union is not part of an arena. -/
theorem upholds_between {enter leave : Compilation → Compilation} {step : Compile α}
    (h : Upholds holds step) (henter : ∀ state, (enter state).arena = state.arena := by intro; rfl)
    (hleave : ∀ state, (leave state).arena = state.arena := by intro; rfl) :
    Upholds holds (between enter leave step) := by
  intro state hstate
  rw [ends_between]
  refine (h (enter state) (by rwa [henter])).mono ?_ ?_
  · intro _ after hafter
    rwa [hleave]
  · intro _ after hafter
    rwa [hleave]

theorem upholds_foldlM {elements : List α} {step : β → α → Compile β}
    (hstep : ∀ found element, Upholds holds (step found element)) (found : β) :
    Upholds holds (elements.foldlM step found) := by
  intro state hstate
  refine ends_foldlM (fun _ _ now => holds now.arena) ?_ hstate
  exact fun _ element found now _ => hstep found element now

theorem upholds_mapM {elements : List α} {step : α → Compile β}
    (hstep : ∀ element, Upholds holds (step element)) : Upholds holds (elements.mapM step) := by
  intro state hstate
  refine ends_mapM (fun _ _ now => holds now.arena) ?_ hstate
  exact fun _ element _ now _ => hstep element now

end Compile

/-- All requests keep what holds of the arena. -/
structure Requests.Uphold (holds : Arena → Prop) (ask : Requests) : Prop where
  type : ∀ context id, (ask.type context id).Upholds holds
  merged : ∀ context name id, (ask.merged context name id).Upholds holds

section Steps

variable {doc : Document} {registry : Registry} {ask : Requests} {holds : Arena → Prop}
variable (hask : ask.Uphold holds) (context : Context) (name : String)
include hask

/-! ### Fields -/

theorem elementType_upholds (edge : Edge) : (elementType ask edge).Upholds holds := by
  refine Compile.upholds_bind Compile.upholds_get fun _ => ?_
  exact Compile.upholds_bind (Compile.upholds_between (hask.type {} edge.id)) fun _ =>
    Compile.upholds_pure _

theorem fieldsOf_upholds (schema : Schema) : (fieldsOf doc ask context schema).Upholds holds := by
  refine Compile.upholds_mapM fun property => ?_
  refine Compile.upholds_bind (Compile.upholds_ofExcept _) ?_
  intro tag
  cases tag with
  | some tag => exact Compile.upholds_pure _
  | none =>
      exact Compile.upholds_bind (elementType_upholds hask property.2) fun _ =>
        Compile.upholds_pure _

/-! ### Merging -/

theorem contribution_upholds (owner : Schema) (member : Edge) :
    (contribution doc ask context name owner member).Upholds holds := by
  rcases contribution_cases doc context name owner member with
    ⟨-, heq⟩ | ⟨-, heq⟩ | ⟨-, _, _, heq⟩ <;> rw [heq]
  · exact hask.merged context name member.id
  · exact fieldsOf_upholds hask context _
  · exact Compile.upholds_throw _

theorem mergedFields_upholds (id : SchemaId) :
    (mergedFields doc ask context name id).Upholds holds := by
  refine Compile.upholds_bind Compile.upholds_get fun _ => ?_
  split
  · exact Compile.upholds_throw _
  · refine Compile.upholds_between ?_
    refine Compile.upholds_bind ?_ fun _ =>
      Compile.upholds_bind (fieldsOf_upholds hask context _) ?_
    · exact Compile.upholds_foldlM (fun _ member => Compile.upholds_bind
        (contribution_upholds hask context name _ member) fun _ => Compile.upholds_ofExcept _) []
    · exact fun _ => Compile.upholds_bind (Compile.upholds_ofExcept _) fun _ =>
        Compile.upholds_pure _

/-! ### Unions and anchors -/

theorem unionOf_upholds (id : SchemaId) (members : List Edge) :
    (unionOf doc ask context id members).Upholds holds := by
  refine Compile.upholds_bind (Compile.upholds_between ?_)
    fun _ => Compile.upholds_pure _
  refine Compile.upholds_foldlM (fun _ member => ?_) []
  refine Compile.upholds_bind (hask.type _ _) fun type => ?_
  cases type <;> exact Compile.upholds_pure _

theorem variantsOf_upholds (schema : Schema) (targets : List String) :
    (variantsOf doc ask context schema targets).Upholds holds := by
  refine Compile.upholds_foldlM (fun _ target => ?_) []
  cases doc.resolve target with
  | none => exact Compile.upholds_throw _
  | some id =>
      refine Compile.upholds_bind (hask.type _ _) fun type => ?_
      split <;> exact Compile.upholds_pure _

theorem registerAnchor_upholds (id : SchemaId) :
    (registerAnchor doc ask context id).Upholds holds := by
  intro state hstate
  simp only [registerAnchor, Compile.ends_bind, Compile.ends_get]
  split
  · exact hstate
  · simp only [Compile.ends_bind, Compile.ends_modify]
    split
    · exact hstate
    · simp only [Compile.ends_bind, Compile.ends_modify]
      exact variantsOf_upholds hask context _ _ _ hstate

/-! ### Models and types -/

theorem shapeOf_upholds (id : SchemaId) : (shapeOf doc ask context name id).Upholds holds := by
  rcases shapeOf_cases doc context name id with ⟨-, heq⟩ | ⟨-, heq⟩ | ⟨-, heq⟩ <;> rw [heq]
  · exact Compile.upholds_bind (mergedFields_upholds hask context name id) fun _ =>
      Compile.upholds_pure _
  · exact unionOf_upholds hask context id _
  · exact Compile.upholds_bind (fieldsOf_upholds hask context _) fun _ => Compile.upholds_pure _

variable (hinv : Arena.Invariant doc holds) (hretain : ask.Retain doc)
include hinv hretain

/-- A model has the index that is answered, and its slot has been filled after it was reserved. -/
theorem buildModel_upholds {state : Compilation} {id : SchemaId} (hstate : holds state.arena)
    (hnew : state.model? id = none) (hmodel : doc.IsModel id) :
    (buildModel doc ask context id).Ends state
      (fun m after => holds after.arena ∧ after.model? id = some m)
      fun _ after => holds after.arena := by
  simp only [buildModel, Compile.ends_bind, Compile.ends_get, Compile.ends_modify,
    Compile.ends_pure]
  refine (modelName_counts state (doc.schema id)).mono ?_ fun _ _ => False.elim
  rintro name now ⟨anonymous, rfl⟩
  have hreserve : holds (({ state with anonymous } : Compilation).reserve id).arena := by
    rw [Compilation.arena_reserve]
    exact hinv.reserve hstate hnew hmodel
  refine ((shapeOf_upholds hask context name id _ hreserve).and
    (shapeOf_retains hretain context name _ id)).mono ?_ fun _ _ h => h.1
  rintro shape after ⟨hafter, hretains⟩
  -- The index and the empty slot are there since the index was reserved.
  have hm : after.model? id = some state.slots.size := by
    refine hretains.models id _ ?_
    rw [Compilation.model?_reserve, if_pos rfl]
  refine ⟨?_, hm⟩
  rw [Compilation.arena_fill]
  exact hinv.fill hafter hm (hretains.slots (by simp [Compilation.reserve]))

theorem modelType_upholds {id : SchemaId}
    (hend : (doc.schema id).type = none ∨ (doc.schema id).type = some .object) :
    (modelType doc ask context id).Upholds holds := by
  intro state hstate
  simp only [modelType, Compile.ends_bind, Compile.ends_get]
  split
  · split <;> exact hstate
  · rename_i hnew
    split <;> simp only [Compile.ends_bind, Compile.ends_pure]
    · exact registerAnchor_upholds hask context id state hstate
    · rename_i hanchor
      exact (buildModel_upholds hask context hinv hretain hstate hnew
        ⟨hend, by simpa using hanchor⟩).imp fun _ _ h => h.1

theorem typeOf_upholds (id : SchemaId) : (typeOf doc registry ask context id).Upholds holds := by
  rcases typeOf_cases doc registry context id with
    ⟨_, -, -, heq⟩ | ⟨-, -, heq⟩ | ⟨_, -, -, heq⟩ | ⟨hend, heq⟩ <;> rw [heq]
  · exact Compile.upholds_bind (elementType_upholds hask _) fun _ => Compile.upholds_pure _
  · exact Compile.upholds_throw _
  · exact Compile.upholds_bind (Compile.upholds_ofExcept _) fun _ => Compile.upholds_pure _
  · exact modelType_upholds hask context hinv hretain hend

end Steps

/-- Requests of any depth keep an invariant of arenas. -/
theorem requests_uphold {doc : Document} {holds : Arena → Prop} (hinv : Arena.Invariant doc holds)
    (registry : Registry) (depth : Nat) : (requests doc registry depth).Uphold holds := by
  induction depth with
  | zero => exact ⟨fun _ _ => Compile.upholds_throw _, fun _ _ _ => Compile.upholds_throw _⟩
  | succ depth ih =>
      have hretain := requests_retain doc registry depth
      exact ⟨fun context id => typeOf_upholds ih context hinv hretain id,
        fun context name id => mergedFields_upholds ih context name id⟩

/-! ## Answers -/

/-- What is answered to a request is the type of the schema, by the indices behind the request. -/
def Requests.Answer (doc : Document) (registry : Registry) (ask : Requests) : Prop :=
  ∀ context id (state : Compilation), state.arena.Indexed doc →
    (ask.type context id).Ends state
      (fun type after => HasType doc registry after.model? id type) fun _ _ => True

section Answers

variable {doc : Document} {registry : Registry} {ask : Requests} {state : Compilation}

theorem elementType_answers (hanswer : ask.Answer doc registry) (hstate : state.arena.Indexed doc)
    (edge : Edge) :
    (elementType ask edge).Ends state
      (fun type after => HasElementType doc registry after.model? edge type) fun _ _ => True := by
  simp only [elementType, Compile.ends_bind, Compile.ends_get, Compile.ends_between,
    Compile.ends_pure]
  exact (hanswer {} edge.id { state with unions := [] } hstate).imp
    fun type _ htype => ⟨type, htype, rfl⟩

theorem modelType_answers (hask : ask.Uphold fun arena => arena.Indexed doc)
    (hretain : ask.Retain doc) (hstate : state.arena.Indexed doc) (context : Context)
    {id : SchemaId} (hend : (doc.schema id).type = none ∨ (doc.schema id).type = some .object) :
    (modelType doc ask context id).Ends state
      (fun type after => HasType doc registry after.model? id type) fun _ _ => True := by
  simp only [modelType, Compile.ends_bind, Compile.ends_get]
  split
  · rename_i hm
    split
    · trivial
    · exact .model (hstate.isModel hm) hm
  · rename_i hnew
    split <;> simp only [Compile.ends_bind, Compile.ends_pure]
    · rename_i hanchor
      exact (registerAnchor_upholds hask context id state hstate).mono
        (fun _ _ _ => .anchor hanchor) fun _ _ _ => trivial
    · rename_i hanchor
      have hmodel : doc.IsModel id := ⟨hend, by simpa using hanchor⟩
      exact (buildModel_upholds hask context (Arena.indexed_invariant doc) hretain hstate hnew
        hmodel).mono (fun _ _ h => .model hmodel h.2) fun _ _ _ => trivial

theorem requests_answer (doc : Document) (registry : Registry) (depth : Nat) :
    (requests doc registry depth).Answer doc registry := by
  induction depth with
  | zero => exact fun _ _ _ _ => trivial
  | succ depth ih =>
      intro context id state hstate
      change (typeOf doc registry (requests doc registry depth) context id).Ends state _ _
      rcases typeOf_cases doc registry context id with
        ⟨items, htype, hitems, heq⟩ | ⟨-, -, heq⟩ | ⟨primitive, htype, hscalar, heq⟩ | ⟨hend, heq⟩
      · simp only [heq, Compile.ends_bind, Compile.ends_pure]
        refine (elementType_answers ih hstate items).imp ?_
        rintro _ after ⟨type, hknown, rfl⟩
        exact .array htype hitems hknown
      · rw [heq]
        exact (Compile.ends_throw _).mpr trivial
      · simp only [heq, Compile.ends_bind, Compile.ends_ofExcept, Compile.ends_pure]
        exact ⟨fun scalar hresolve => .scalar htype hscalar hresolve, fun _ _ => trivial⟩
      · rw [heq]
        exact modelType_answers (requests_uphold (Arena.indexed_invariant doc) registry depth)
          (requests_retain doc registry depth) hstate context hend

end Answers
end OpenApi
