-- SUMMARY: Requests that start while nothing is being merged, beside those that compilation makes.
import OpenApi.Proofs.Compilation.Cases
import OpenApi.Proofs.Compilation.Errors
import OpenApi.Proofs.Compilation.Tracks

/-!
# Compilation apart

A schema that is met below the members that are being merged is a value of its own,
so its own merging has nothing to do with theirs. `requestsApart` answers every request
for a type as if nothing were being merged. Compilation does the same, unless it
refuses a schema that is still being merged further up.
-/

namespace OpenApi

open Relation (ReflTransGen TransGen)

/-! ## Requests apart -/

/-- Requests for a type start while nothing is being merged. -/
def Requests.apart (ask : Requests) : Requests where
  type context id := do
    let merging := (← get).merging
    Compile.between ({ · with merging := [] }) ({ · with merging := merging })
      (ask.type context id)
  merged := ask.merged

/-- The answers to requests, each request for a type being answered apart. -/
def requestsApart (doc : Document) (registry : Registry) : Nat → Requests
  | 0 => requests doc registry 0
  | depth + 1 => Requests.apart
    { type := fun context id => typeOf doc registry (requestsApart doc registry depth) context id
      merged := fun context model id =>
        mergedFields doc (requestsApart doc registry depth) context model id }

/-! ## Errors that refuse no member -/

namespace Document

theorem justifies_of_ne {doc : Document} {stop : Stop SchemaError}
    (h : ∀ label, stop ≠ .failed (.cyclicAllOf label)) : doc.Justifies stop :=
  fun label heq => absurd heq (h label)

end Document

theorem absorb_justifies {doc : Document} {model : String} {merged fields : List Field}
    {error : SchemaError} (h : absorb model merged fields = .error error) :
    doc.Justifies (.failed error) := by
  obtain ⟨field, -, rfl⟩ := absorb_error h
  exact Document.justifies_of_ne nofun

theorem narrow_justifies {doc : Document} {context : Context} {name : String}
    {error : SchemaError} (h : context.narrow name = .error error) :
    doc.Justifies (.failed error) := by
  obtain rfl := Context.narrow_error h
  exact Document.justifies_of_ne nofun

theorem resolve_justifies {doc : Document} {registry : Registry} {primitive : Primitive}
    {format : Option String} {error : SchemaError}
    (h : registry.resolve primitive format = .error error) : doc.Justifies (.failed error) := by
  rcases Registry.resolve_error h with rfl | rfl <;> exact Document.justifies_of_ne nofun

/-! ## What is being merged -/

/-- How the schemas being merged stand to the requested one: those of its own merging by members,
all others by a walk below them. -/
structure Merging (doc : Document) (related : SchemaId → SchemaId → Prop)
    (merging apart : List SchemaId) (id : SchemaId) : Prop where
  loose : ∀ other ∈ merging, related other id ∨ doc.Descends other id
  strict : ∀ other ∈ apart, related other id
  subset : apart ⊆ merging

namespace Merging

variable {doc : Document} {merging apart : List SchemaId} {id : SchemaId}

theorem reaches (h : Merging doc (ReflTransGen doc.Includes) merging apart id) :
    ∀ other ∈ merging, doc.Reaches other id := by
  intro other hmem
  rcases h.loose other hmem with hincludes | hdown
  · exact Document.reaches_of_includes hincludes
  · exact hdown.reaches

/-- A member is requested. -/
theorem member {member : SchemaId} (h : Merging doc (ReflTransGen doc.Includes) merging apart id)
    (hmember : doc.Includes id member) :
    Merging doc (TransGen doc.Includes) merging apart member where
  loose := by
    intro other hmem
    rcases h.loose other hmem with hincludes | hdown
    · exact .inl (.tail' hincludes hmember)
    · exact .inr (hdown.beside hmember.beside)
  strict := fun other hmem => .tail' (h.strict other hmem) hmember
  subset := h.subset

theorem self (h : Merging doc (TransGen doc.Includes) merging apart id) :
    Merging doc (TransGen doc.Includes) apart apart id :=
  ⟨fun other hmem => .inl (h.strict other hmem), h.strict, List.Subset.refl _⟩

/-- The merging of a schema begins. -/
theorem enter (h : Merging doc (TransGen doc.Includes) merging apart id) :
    Merging doc (ReflTransGen doc.Includes) (id :: merging) (id :: apart) id where
  loose := by
    rw [List.forall_mem_cons]
    refine ⟨.inl .refl, fun other hmem => ?_⟩
    exact (h.loose other hmem).imp_left TransGen.to_reflTransGen
  strict := by
    rw [List.forall_mem_cons]
    exact ⟨.refl, fun other hmem => (h.strict other hmem).to_reflTransGen⟩
  subset := List.cons_subset_cons _ h.subset

end Merging

/-- What requests do, and what they do apart. -/
structure Requests.Track (doc : Document) (ask ask' : Requests) : Prop where
  type : ∀ {context : Context} {id : SchemaId} {merging : List SchemaId} {state : Compilation},
    (∀ other ∈ merging, doc.Descends other id) → state.merging ⊆ merging →
    Compile.Tracks doc (ask.type context id) (ask'.type context id) merging state
  merged : ∀ {context : Context} {name : String} {id : SchemaId} {merging : List SchemaId}
    {state : Compilation}, Merging doc (TransGen doc.Includes) merging state.merging id →
    Compile.Tracks doc (ask.merged context name id) (ask'.merged context name id) merging state

namespace Compile

variable {doc : Document} {registry : Registry} {ask ask' : Requests} {context : Context}
variable {name : String} {merging : List SchemaId} {state : Compilation}
variable (htrack : ask.Track doc ask')
include htrack

/-! ## Fields -/

theorem elementType_tracks {edge : Edge} (hdown : ∀ other ∈ merging, doc.Descends other edge.id)
    (hsubset : state.merging ⊆ merging) :
    Tracks doc (elementType ask edge) (elementType ask' edge) merging state := by
  refine tracks_get_bind (tracks_bind ?_ fun type _ _ => tracks_pure _)
  exact tracks_between rfl (fun _ => rfl) (fun _ h => h) (htrack.type hdown hsubset)

theorem fieldOf_tracks {owner : SchemaId} {edge : Edge}
    (hreach : ∀ other ∈ merging, doc.Reaches other owner) (hsubset : state.merging ⊆ merging)
    (hbelow : doc.Below owner edge.id) :
    Tracks doc (fieldOf doc ask context (doc.schema owner) name edge)
      (fieldOf doc ask' context (doc.schema owner) name edge) merging state := by
  unfold fieldOf
  apply tracks_bind (tracks_ofExcept fun _ => narrow_justifies)
  intro answer after hafter
  cases answer with
  | some tag => exact tracks_bind (tracks_pure _) fun _ _ _ => tracks_pure _
  | none =>
      have hdown : ∀ other ∈ merging, doc.Descends other edge.id :=
        fun other hmem => (hreach other hmem).below hbelow
      exact tracks_bind (elementType_tracks htrack hdown (hafter ▸ hsubset))
        fun _ _ _ => tracks_pure _

theorem fieldsOf_tracks {owner : SchemaId}
    (hreach : ∀ other ∈ merging, doc.Reaches other owner) (hsubset : state.merging ⊆ merging) :
    Tracks doc (fieldsOf doc ask context (doc.schema owner))
      (fieldsOf doc ask' context (doc.schema owner)) merging state := by
  apply tracks_mapM
  intro entry hmem now hnow
  obtain ⟨name, edge⟩ := entry
  exact fieldOf_tracks htrack hreach (hnow ▸ hsubset) (.field hmem)

/-! ## Merging -/

theorem contribution_tracks {owner : SchemaId} {member : Edge}
    (h : Merging doc (ReflTransGen doc.Includes) merging state.merging owner)
    (hmem : member ∈ (doc.schema owner).allOf) :
    Tracks doc (contribution doc ask context name (doc.schema owner) member)
      (contribution doc ask' context name (doc.schema owner) member) merging state := by
  have hmember : doc.Includes owner member.id := ⟨member, hmem, rfl⟩
  rcases contribution_cases doc context name (doc.schema owner) member with
    ⟨-, heq⟩ | ⟨-, heq⟩ | ⟨-, identity, label, heq⟩
  · simp only [heq]
    exact htrack.merged (h.member hmember)
  · simp only [heq]
    refine fieldsOf_tracks htrack (fun other hother => ?_) h.subset
    exact (h.reaches other hother).beside hmember.beside
  · simp only [heq]
    exact tracks_throw (Document.justifies_of_ne nofun)

theorem mergeMembers_tracks {id : SchemaId}
    (h : Merging doc (ReflTransGen doc.Includes) merging state.merging id) :
    Tracks doc (mergeMembers doc ask context name (doc.schema id))
      (mergeMembers doc ask' context name (doc.schema id)) merging state := by
  unfold mergeMembers
  refine tracks_bind (tracks_foldlM ?_ []) fun inherited after hafter => ?_
  · intro member hmem merged now hnow
    apply tracks_bind (contribution_tracks htrack (hnow ▸ h) hmem)
    intro fields _ _
    exact tracks_ofExcept fun _ => absorb_justifies
  · apply tracks_bind (fieldsOf_tracks htrack h.reaches (hafter ▸ h.subset))
    intro own _ _
    apply tracks_bind (tracks_ofExcept fun _ => absorb_justifies)
    intro merged _ _
    exact tracks_pure _

/-- A schema whose merging has not begun further up is merged by both. -/
theorem mergedFields_tracks_of_notMem {id : SchemaId}
    (h : Merging doc (TransGen doc.Includes) merging state.merging id) (hnew : id ∉ merging) :
    Tracks doc (mergedFields doc ask context name id) (mergedFields doc ask' context name id)
      merging state := by
  have hnew' : id ∉ state.merging := fun hmem => hnew (h.subset hmem)
  apply tracks_get_bind
  simp only [Compilation.merging_withMerging, List.contains_eq_mem, hnew, hnew', decide_false,
    Bool.false_eq_true, if_false]
  refine tracks_between rfl (fun after => ?_) (fun after hafter => ?_)
    (mergeMembers_tracks htrack h.enter)
  · simp [Compilation.withMerging]
  · simp [hafter]

omit htrack in
theorem mergedFields_of_mem {id : SchemaId} (hmem : id ∈ state.merging) :
    mergedFields doc ask context name id state =
      (.error (.failed (.cyclicAllOf (doc.schema id).label)), state) := by
  have hget : mergedFields doc ask context name id state =
      (if state.merging.contains id then throw (.failed (.cyclicAllOf (doc.schema id).label))
        else between (fun state => { state with merging := id :: state.merging })
          (fun state => { state with merging := state.merging.erase id })
          (mergeMembers doc ask context name (doc.schema id))) state := rfl
  rw [hget, if_pos (by simpa using hmem)]
  rfl

/-- The one place where it matters what is being merged. -/
theorem mergedFields_tracks {id : SchemaId}
    (h : Merging doc (TransGen doc.Includes) merging state.merging id) :
    Tracks doc (mergedFields doc ask context name id) (mergedFields doc ask' context name id)
      merging state := by
  by_cases hmem : id ∈ merging
  · -- The first run refuses. The second may refuse as well, and then for a strict reason.
    refine .refused (mergedFields_of_mem hmem) (h.loose id hmem) ?_
    by_cases hmem' : id ∈ state.merging
    · rw [Keeps, Ends, mergedFields_of_mem hmem']
      intro label heq
      cases heq
      exact ⟨id, rfl, h.strict id hmem'⟩
    · -- Put beside itself, the second run only ever refuses for a reason.
      exact (mergedFields_tracks_of_notMem htrack h.self hmem').keeps
  · exact mergedFields_tracks_of_notMem htrack h hmem

/-! ## Unions and anchors -/

theorem alternativesOf_tracks {id : SchemaId} (hdown : ∀ other ∈ merging, doc.Descends other id)
    (hsubset : state.merging ⊆ merging) :
    Tracks doc (alternativesOf doc ask context (doc.schema id) (doc.schema id).alternatives)
      (alternativesOf doc ask' context (doc.schema id) (doc.schema id).alternatives) merging
      state := by
  refine tracks_foldlM ?_ []
  intro member hmem found now hnow
  have hmember : ∀ other ∈ merging, doc.Descends other member.id :=
    fun other hother => (hdown other hother).beside (.alternative hmem)
  apply tracks_bind (htrack.type hmember (hnow ▸ hsubset))
  intro type _ _
  cases type <;> exact tracks_pure _

theorem unionOf_tracks {id : SchemaId} (hdown : ∀ other ∈ merging, doc.Descends other id)
    (hsubset : state.merging ⊆ merging) :
    Tracks doc (unionOf doc ask context id (doc.schema id).alternatives)
      (unionOf doc ask' context id (doc.schema id).alternatives) merging state := by
  unfold unionOf
  refine tracks_bind ?_ fun found _ _ => tracks_pure _
  exact tracks_between rfl (fun _ => rfl) (fun _ h => h)
    (alternativesOf_tracks htrack hdown hsubset)

theorem variantsOf_tracks {id : SchemaId} (hdown : ∀ other ∈ merging, doc.Descends other id)
    (hsubset : state.merging ⊆ merging) :
    Tracks doc
      (variantsOf doc ask context (doc.schema id) ((doc.schema id).mapping.map (·.2)))
      (variantsOf doc ask' context (doc.schema id) ((doc.schema id).mapping.map (·.2))) merging
      state := by
  refine tracks_foldlM ?_ []
  intro target hmem variants now hnow
  obtain ⟨⟨tag, target⟩, hentry, rfl⟩ := List.mem_map.mp hmem
  cases hresolve : doc.resolve target with
  | none => exact tracks_throw (Document.justifies_of_ne nofun)
  | some variant =>
      have hvariant : ∀ other ∈ merging, doc.Descends other variant :=
        fun other hother => (hdown other hother).beside (.variant hentry hresolve)
      apply tracks_bind (htrack.type hvariant (hnow ▸ hsubset))
      intro type _ _
      split <;> exact tracks_pure _

theorem registerAnchor_tracks {id : SchemaId} (hdown : ∀ other ∈ merging, doc.Descends other id)
    (hsubset : state.merging ⊆ merging) :
    Tracks doc (registerAnchor doc ask context id) (registerAnchor doc ask' context id) merging
      state := by
  unfold registerAnchor
  apply tracks_get_bind
  have hsame : (state.withMerging merging).anchor? id = state.anchor? id := rfl
  rw [hsame]
  split
  · exact tracks_pure _
  · apply tracks_bind (tracks_modify rfl rfl)
    intro _ after hafter
    split
    · exact tracks_pure _
    · rename_i mapping hmapping
      have htargets : mapping = (doc.schema id).mapping := by simp [Schema.mapping, hmapping]
      subst htargets
      apply tracks_bind (variantsOf_tracks htrack hdown (hafter ▸ hsubset))
      intro variants _ _
      exact tracks_modify rfl rfl

/-! ## Models and types -/

omit htrack in
theorem modelName_tracks (schema : Schema) :
    Tracks doc (modelName schema) (modelName schema) merging state := by
  unfold modelName
  split
  · exact tracks_pure _
  · apply tracks_bind (tracks_modify rfl rfl)
    intro _ after _
    exact tracks_get_bind (tracks_pure _)

theorem shapeOf_tracks {id : SchemaId} (hdown : ∀ other ∈ merging, doc.Descends other id)
    (hapart : state.merging = []) :
    Tracks doc (shapeOf doc ask context name id) (shapeOf doc ask' context name id) merging
      state := by
  have hsubset : state.merging ⊆ merging := hapart ▸ List.nil_subset merging
  rcases shapeOf_cases doc context name id with ⟨-, heq⟩ | ⟨-, heq⟩ | ⟨-, heq⟩
  · simp only [heq]
    -- Nothing is being merged apart, and the schemas further up all lead below themselves.
    refine tracks_bind (mergedFields_tracks htrack ?_) fun fields _ _ => tracks_pure _
    exact ⟨fun other hmem => .inr (hdown other hmem), by simp [hapart], hsubset⟩
  · simp only [heq]
    exact unionOf_tracks htrack hdown hsubset
  · simp only [heq]
    have hreach : ∀ other ∈ merging, doc.Reaches other id :=
      fun other hmem => (hdown other hmem).reaches
    exact tracks_bind (fieldsOf_tracks htrack hreach hsubset) fun fields _ _ => tracks_pure _

theorem buildModel_tracks {id : SchemaId} (hdown : ∀ other ∈ merging, doc.Descends other id)
    (hapart : state.merging = []) :
    Tracks doc (buildModel doc ask context id) (buildModel doc ask' context id) merging state := by
  unfold buildModel
  refine tracks_bind (modelName_tracks _) fun name named hnamed => tracks_get_bind ?_
  apply tracks_bind (tracks_modify rfl rfl)
  intro _ reserved hreserved
  have hapart' : reserved.merging = [] := hreserved.trans (hnamed.trans hapart)
  apply tracks_bind (shapeOf_tracks htrack hdown hapart')
  intro shape _ _
  exact tracks_bind (tracks_modify rfl rfl) fun _ _ _ => tracks_pure _

theorem modelType_tracks {id : SchemaId} (hdown : ∀ other ∈ merging, doc.Descends other id)
    (hapart : state.merging = []) :
    Tracks doc (modelType doc ask context id) (modelType doc ask' context id) merging state := by
  unfold modelType
  apply tracks_get_bind
  have hsame : (state.withMerging merging).model? id = state.model? id := rfl
  have hunions : (state.withMerging merging).unions = state.unions := rfl
  simp only [hsame, hunions]
  split
  · split
    · exact tracks_throw (Document.justifies_of_ne nofun)
    · exact tracks_pure _
  · have hsubset : state.merging ⊆ merging := hapart ▸ List.nil_subset merging
    split
    · exact tracks_bind (registerAnchor_tracks htrack hdown hsubset) fun _ _ _ => tracks_pure _
    · exact tracks_bind (buildModel_tracks htrack hdown hapart) fun _ _ _ => tracks_pure _

theorem typeOf_tracks {id : SchemaId} (hdown : ∀ other ∈ merging, doc.Descends other id)
    (hapart : state.merging = []) :
    Tracks doc (typeOf doc registry ask context id) (typeOf doc registry ask' context id) merging
      state := by
  rcases typeOf_cases doc registry context id with
    ⟨items, -, hitems, heq⟩ | ⟨-, -, heq⟩ | ⟨primitive, -, -, heq⟩ | ⟨-, heq⟩
  · simp only [heq]
    have hsubset : state.merging ⊆ merging := hapart ▸ List.nil_subset merging
    have hdown' : ∀ other ∈ merging, doc.Descends other items.id :=
      fun other hmem => (hdown other hmem).reaches.below (.item hitems)
    exact tracks_bind (elementType_tracks htrack hdown' hsubset) fun _ _ _ => tracks_pure _
  · simp only [heq]
    exact tracks_throw (Document.justifies_of_ne nofun)
  · simp only [heq]
    exact tracks_bind (tracks_ofExcept fun _ => resolve_justifies) fun _ _ _ => tracks_pure _
  · simp only [heq]
    exact modelType_tracks htrack hdown hapart

/-! ## Requests -/

omit htrack in
/-- A request that starts apart leaves what is being merged to those further up. -/
theorem apart_tracks {first : Compile (Option Ty)} {ask : Requests} {id : SchemaId}
    (h : Tracks doc first (ask.type context id) merging (state.withMerging [])) :
    Tracks doc first (ask.apart.type context id) merging state := by
  have hrun : ask.apart.type context id state =
      ((ask.type context id (state.withMerging [])).1,
        (ask.type context id (state.withMerging [])).2.withMerging state.merging) := rfl
  -- The first run starts from the same state either way.
  cases h with
  | @answers answer after hfirst hsecond _ =>
      have hfirst' : first (state.withMerging merging) =
          (.ok answer, (after.withMerging state.merging).withMerging merging) := hfirst
      exact .answers hfirst' (by rw [hrun, hsecond]) rfl
  | fails hfirst hsecond hjust => exact .fails hfirst (by rw [hrun, hsecond]) hjust
  | refused hfirst hcycle hkeeps =>
      refine .refused hfirst hcycle ?_
      simp only [Keeps, Ends, hrun] at hkeeps ⊢
      split at hkeeps
      · rename_i answer after hsecond
        simp only [hsecond, Compilation.merging_withMerging]
      · rename_i stop after hsecond
        simp only [hsecond]
        exact hkeeps

omit htrack in
/-- Requests do what they do apart, unless they are refused. -/
theorem requests_track (depth : Nat) :
    (requests doc registry depth).Track doc (requestsApart doc registry depth) := by
  induction depth with
  | zero =>
      exact ⟨fun _ _ => tracks_throw (Document.justifies_of_ne nofun),
        fun _ => tracks_throw (Document.justifies_of_ne nofun)⟩
  | succ depth ih =>
      exact ⟨fun hdown _ => apart_tracks (typeOf_tracks ih hdown rfl),
        fun h => mergedFields_tracks ih h⟩

end Compile
end OpenApi
