-- SUMMARY: A compilation fails for faults of the schemas alone, and is finished if no call has failed.
import OpenApi.Proofs.Compilation.Errors
import OpenApi.Proofs.Compilation.Passes
import OpenApi.Proofs.CompilationEnds
import OpenApi.Proofs.FailedCalls
import OpenApi.Proofs.RefusedUnions

/-!
# Faults of schemas

A step reserves a slot before it builds a model, and fills it behind. So a step that
succeeds leaves no slot empty that was not empty before, whatever other steps it has
taken in between. A step that fails has met a fault of the schemas, or a format for which
the registry has no entry. The catalog has one for every format; so what a compilation of
a whole document reports is a fault of the document.
-/

namespace OpenApi

open Relation (TransGen)

/-! ## Formats -/

/-- The catalog has a scalar type for every format of a primitive type. -/
theorem Registry.exists_resolve_standard {primitive : Primitive} (h : primitive.isScalar = true)
    (format : Option String) : ∃ scalar, standard.resolve primitive format = .ok scalar := by
  have hdefault (table : FormatTable) (htable : (List.lookup none table).isSome = true) :
      ∃ scalar, lookup? table format = some scalar := by
    rw [← Option.isSome_iff_exists, lookup?, Option.isSome_or, htable, Bool.or_true]
  cases primitive with
  | string =>
      obtain ⟨scalar, hscalar⟩ := hdefault standard.strings (by decide)
      exact ⟨scalar, by simp only [resolve, hscalar]⟩
  | number =>
      obtain ⟨scalar, hscalar⟩ := hdefault standard.numbers (by decide)
      exact ⟨scalar, by simp only [resolve, hscalar]⟩
  | integer | boolean => exact ⟨_, rfl⟩
  | array | object => cases h

/-! ## Faults -/

namespace Document

variable (doc : Document)

/-- What is wrong with the schemas of a document where a compilation fails. -/
inductive Fault : SchemaError → Prop where
  /-- A mapping of an anchor has a target that means no schema. -/
  | unresolvedReference {anchor : SchemaId} {tag target : String} :
      (doc.schema anchor).isAnchor = true → (tag, target) ∈ (doc.schema anchor).mapping →
        doc.resolve target = none → Fault (.unresolvedReference target)
  | missingItems {id : SchemaId} :
      (doc.schema id).type = some .array → (doc.schema id).items = none →
        Fault (.missingItems (doc.schema id).label)
  /-- A discriminator that maps tags has none for the way to a schema with its property. -/
  | uncoveredDiscriminator {hierarchy id : SchemaId} {selector : Discriminator}
      {path : List String} :
      (doc.schema hierarchy).discriminator = some selector → selector.isTagged = true →
        selector.tagForPath path = none → selector.property ∈ (doc.schema id).properties.keys →
        Fault (.uncoveredDiscriminator selector.property path)
  | conflictingField {owner : SchemaId} {model field : String} :
      (doc.schema owner).allOf ≠ [] → Fault (.conflictingField model field)
  | cyclicAllOf {id : SchemaId} :
      (doc.schema id).allOf ≠ [] → Fault (.cyclicAllOf (doc.schema id).label)
  | cyclicUnion {id : SchemaId} :
      doc.IsUnion id → Fault (.cyclicUnion (doc.schema id).label)
  | unmergeableMember {owner : SchemaId} {member : Edge} :
      member ∈ (doc.schema owner).allOf → ¬ doc.Mergeable member.id →
        Fault (.unmergeableMember (doc.schema owner).label (memberStep doc member))

variable {doc} in
/-- What cannot be merged is named with its owner. -/
theorem contribution_of_not_mergeable {ask : Requests} {context : Context} {name : String}
    {owner : Schema} {member : Edge} (h : ¬ doc.Mergeable member.id) :
    contribution doc ask context name owner member =
      throw (.failed (.unmergeableMember owner.label (memberStep doc member))) := by
  unfold contribution
  simp only
  split
  · rename_i hcomb
    exact absurd (.inl (Schema.allOf_ne_nil_of_combination hcomb)) h
  · rename_i hcomb
    split
    · rename_i htype
      exact absurd (.inr ⟨hcomb, .inl htype⟩) h
    · rename_i htype
      exact absurd (.inr ⟨hcomb, .inr htype⟩) h
    · rfl
  · rfl
  · rfl

/-- Why a compilation stops: for a fault of a schema, for a format that the registry does not know,
or because it has no end. -/
inductive Blames (registry : Registry) : Stop SchemaError → Prop where
  | fault {error : SchemaError} : doc.Fault error → Blames registry (.failed error)
  | format {primitive : Primitive} {format : Option String} {error : SchemaError} :
      primitive.isScalar = true → registry.resolve primitive format = .error error →
        Blames registry (.failed error)
  | endless : Blames registry .endless

/-- With the whole catalog, what a compilation fails for is a fault of a schema. -/
theorem Blames.fault_of_standard {doc : Document} {error : SchemaError}
    (h : doc.Blames .standard (.failed error)) : doc.Fault error := by
  cases h with
  | fault hfault => exact hfault
  | @format _ format _ hscalar herror =>
      obtain ⟨scalar, hok⟩ := Registry.exists_resolve_standard hscalar format
      cases hok.symm.trans herror

end Document

/-- The discriminators of a context are those of schemas. -/
def Context.Within (context : Context) (doc : Document) : Prop :=
  ∀ selector ∈ context.discriminators, ∃ id, (doc.schema id).discriminator = some selector

section Contexts

variable {doc : Document} {context : Context}

theorem Context.within_nil : ({} : Context).Within doc := by simp [Context.Within]

theorem Context.Within.follow (h : context.Within doc) (id : SchemaId) (step : String) :
    (context.follow (doc.schema id).discriminator step).Within doc := by
  refine List.forall_mem_append.mpr ⟨h, fun selector hmem => ⟨id, ?_⟩⟩
  exact Option.mem_toList.mp hmem

theorem Context.Within.fault (h : context.Within doc) {id : SchemaId} {name : String}
    (hname : name ∈ (doc.schema id).properties.keys) {error : SchemaError}
    (herror : context.narrow name = .error error) : doc.Fault error := by
  unfold Context.narrow at herror
  split at herror
  · cases herror
  · rename_i selector hfind
    split at herror
    · rename_i htagged
      split at herror
      · cases herror
      · rename_i hnone
        cases herror
        have hproperty : selector.property = name := by simpa using List.find?_some hfind
        obtain ⟨hierarchy, hsome⟩ := h selector (List.mem_of_find?_eq_some hfind)
        subst hproperty
        exact .uncoveredDiscriminator hsome htagged hnone hname
    · cases herror

end Contexts

/-! ## Steps -/

namespace Compilation

/-- Where a step succeeds, only unions are being built, and no slot is left empty. -/
structure Completes (doc : Document) (before after : Compilation) : Prop where
  unions : ∀ id ∈ after.unions, doc.IsUnion id
  filled : ∀ {m : ModelId}, after.slots[m]? = some none → before.slots[m]? = some none

variable {doc : Document} {first second third : Compilation}

theorem Completes.refl (h : ∀ id ∈ first.unions, doc.IsUnion id) : first.Completes doc first :=
  ⟨h, id⟩

theorem Completes.trans (h : first.Completes doc second) (h' : second.Completes doc third) :
    first.Completes doc third :=
  ⟨h'.unions, fun hslot => h.filled (h'.filled hslot)⟩

/-- A slot that was reserved has been filled when the model is built. -/
theorem Completes.fill {id : SchemaId} {model : Model}
    (h : (first.reserve id).Completes doc second) :
    first.Completes doc (second.fill first.slots.size model) where
  unions := h.unions
  filled := by
    intro m hslot
    simp only [Compilation.fill, Array.getElem?_setIfInBounds] at hslot
    split at hslot
    · split at hslot <;> cases hslot
    · rename_i hne
      have hopen := h.filled hslot
      simpa only [reserve, Array.getElem?_push, if_neg (Ne.symm hne)] using hopen

end Compilation

namespace Compile

variable {α β : Type} (doc : Document) (registry : Registry)

/-- A step that succeeds fills what it reserves, and one that stops has a reason. -/
def faultRule : Rule where
  starts state := ∀ id ∈ state.unions, doc.IsUnion id
  changes := Compilation.Completes doc
  fails _ stop _ := doc.Blames registry stop
  refl := .refl
  trans := .trans
  goesOn := (·.unions)
  fails_trans := fun _ h => h

/-- A step that succeeds fills what it reserves, and one that stops has a reason. -/
abbrev Accounts (step : Compile α) : Prop := step.Follows (faultRule doc registry)

variable {doc registry}

theorem accounts_throw {error : SchemaError} (h : doc.Fault error) :
    Accounts doc registry (throw (.failed error) : Compile α) := follows_throw fun _ _ => .fault h

theorem accounts_ofExcept {result : Except SchemaError α}
    (h : ∀ error, result = .error error → doc.Blames registry (.failed error)) :
    Accounts doc registry (ofExcept result) := follows_ofExcept fun error herror _ _ => h error herror

/-- A change of what is known, but of no slot and of no union that is being built. -/
theorem accounts_modify {change : Compilation → Compilation}
    (hunions : ∀ state, (change state).unions = state.unions)
    (hslots : ∀ state, (change state).slots = state.slots) :
    Accounts doc registry (modify change : Compile PUnit) :=
  follows_modify fun state h => ⟨by rwa [hunions], fun hslot => by rwa [hslots] at hslot⟩

theorem accounts_between {enter leave : Compilation → Compilation} {step : Compile α}
    (h : Accounts doc registry step)
    (henter : ∀ state, (∀ id ∈ state.unions, doc.IsUnion id) →
      (∀ id ∈ (enter state).unions, doc.IsUnion id) ∧ (enter state).slots = state.slots)
    (hleave : ∀ state, (∀ id ∈ state.unions, doc.IsUnion id) →
      (∀ id ∈ (leave state).unions, doc.IsUnion id) ∧ (leave state).slots = state.slots) :
    Accounts doc registry (between enter leave step) := by
  intro state hstate
  rw [ends_between]
  obtain ⟨hunions, hslots⟩ := henter state hstate
  refine (h (enter state) hunions).imp fun _ after hafter => ?_
  obtain ⟨hunions', hslots'⟩ := hleave after hafter.unions
  exact ⟨hunions', fun hslot => hslots ▸ hafter.filled (hslots' ▸ hslot)⟩

end Compile

/-- Requests in contexts of the document fill what they reserve, or fail for a reason. -/
structure Requests.Account (doc : Document) (registry : Registry) (ask : Requests) : Prop where
  type : ∀ {context : Context}, context.Within doc →
    ∀ id, (ask.type context id).Accounts doc registry
  merged : ∀ {context : Context}, context.Within doc → ∀ name {id}, (doc.schema id).allOf ≠ [] →
    (ask.merged context name id).Accounts doc registry

section Steps

variable {doc : Document} {registry : Registry} {ask : Requests} (hask : ask.Account doc registry)
variable {context : Context} (hcontext : context.Within doc) (name : String)
include hask

/-! ### Fields and members -/

theorem elementType_accounts (edge : Edge) : (elementType ask edge).Accounts doc registry := by
  intro state hstate
  simp only [elementType, Compile.ends_bind, Compile.ends_get, Compile.ends_between,
    Compile.ends_pure]
  exact (hask.type Context.within_nil edge.id { state with unions := [] }
    (List.forall_mem_nil _)).imp fun _ _ h => ⟨hstate, h.filled⟩

include hcontext

theorem fieldsOf_accounts (id : SchemaId) :
    (fieldsOf doc ask context (doc.schema id)).Accounts doc registry := by
  refine Compile.follows_mapM fun property hproperty => ?_
  refine Compile.follows_bind (Compile.accounts_ofExcept fun error herror => ?_) fun tag => ?_
  · exact .fault (hcontext.fault (List.mem_map_of_mem hproperty) herror)
  · cases tag with
    | some tag => exact Compile.follows_pure _
    | none =>
        exact Compile.follows_bind (elementType_accounts hask property.2) fun _ =>
          Compile.follows_pure _

theorem contribution_accounts {id : SchemaId} {member : Edge}
    (hmember : member ∈ (doc.schema id).allOf) :
    (contribution doc ask context name (doc.schema id) member).Accounts doc registry := by
  rcases contribution_cases doc context name (doc.schema id) member with
    ⟨hne, heq⟩ | ⟨-, heq⟩ | ⟨hnot, -⟩
  · rw [heq]
    exact hask.merged hcontext name hne
  · rw [heq]
    exact fieldsOf_accounts hask hcontext member.id
  · rw [Document.contribution_of_not_mergeable hnot]
    exact Compile.accounts_throw (.unmergeableMember hmember hnot)

omit hask hcontext in
theorem absorb_accounts {id : SchemaId} (hne : (doc.schema id).allOf ≠ [])
    (merged fields : List Field) :
    (Compile.ofExcept (absorb name merged fields)).Accounts doc registry := by
  refine Compile.accounts_ofExcept fun error herror => ?_
  obtain ⟨field, -, rfl⟩ := absorb_error herror
  exact .fault (.conflictingField hne)

theorem mergedFields_accounts {id : SchemaId} (hne : (doc.schema id).allOf ≠ []) :
    (mergedFields doc ask context name id).Accounts doc registry := by
  refine Compile.follows_bind Compile.follows_get fun _ => ?_
  split
  · exact Compile.accounts_throw (.cyclicAllOf hne)
  · refine Compile.accounts_between ?_ (fun _ h => ⟨h, rfl⟩) fun _ h => ⟨h, rfl⟩
    refine Compile.follows_bind (Compile.follows_foldlM (fun member hmember merged => ?_) [])
      fun inherited => ?_
    · exact Compile.follows_bind (contribution_accounts hask hcontext name hmember) fun _ =>
        absorb_accounts name hne _ _
    · refine Compile.follows_bind (fieldsOf_accounts hask hcontext id) fun _ => ?_
      exact Compile.follows_bind (absorb_accounts name hne _ _) fun _ => Compile.follows_pure _

/-! ### Unions and anchors -/

theorem unionOf_accounts {id : SchemaId} (hunion : doc.IsUnion id) :
    (unionOf doc ask context id (doc.schema id).alternatives).Accounts doc registry := by
  refine Compile.follows_bind (Compile.accounts_between ?_
    (fun _ h => ⟨List.forall_mem_cons.mpr ⟨hunion, h⟩, rfl⟩)
    fun _ h => ⟨fun other hmem => h other (List.mem_of_mem_tail hmem), rfl⟩)
    fun _ => Compile.follows_pure _
  refine Compile.follows_foldlM (fun member _ _ => ?_) []
  refine Compile.follows_bind (hask.type (hcontext.follow id _) member.id) fun type => ?_
  cases type <;> exact Compile.follows_pure _

theorem variantsOf_accounts {id : SchemaId} (hanchor : (doc.schema id).isAnchor = true) :
    (variantsOf doc ask context (doc.schema id)
      ((doc.schema id).mapping.map (·.2))).Accounts doc registry := by
  refine Compile.follows_foldlM (fun target htarget _ => ?_) []
  obtain ⟨entry, hentry, rfl⟩ := List.mem_map.mp htarget
  cases hresolve : doc.resolve entry.2 with
  | none => exact Compile.accounts_throw (.unresolvedReference hanchor hentry hresolve)
  | some variant =>
      refine Compile.follows_bind (hask.type (hcontext.follow id _) variant) fun type => ?_
      split <;> exact Compile.follows_pure _

theorem registerAnchor_accounts {id : SchemaId} (hanchor : (doc.schema id).isAnchor = true) :
    (registerAnchor doc ask context id).Accounts doc registry := by
  refine Compile.follows_bind Compile.follows_get fun state => ?_
  split
  · exact Compile.follows_pure _
  · refine Compile.follows_bind (Compile.accounts_modify (fun _ => rfl) fun _ => rfl) fun _ => ?_
    cases hmapping : (doc.schema id).discriminator.bind (·.mapping) with
    | none => exact Compile.follows_pure _
    | some mapping =>
        have hmapping : mapping = (doc.schema id).mapping := by simp [Schema.mapping, hmapping]
        subst hmapping
        exact Compile.follows_bind (variantsOf_accounts hask hcontext hanchor) fun _ =>
          Compile.accounts_modify (fun _ => rfl) fun _ => rfl

/-! ### Models and types -/

theorem shapeOf_accounts {id : SchemaId} (hmodel : doc.IsModel id) :
    (shapeOf doc ask context name id).Accounts doc registry := by
  rcases shapeOf_cases doc context name id with
    ⟨⟨_, hall⟩, heq⟩ | ⟨hunion, heq⟩ | ⟨-, heq⟩ <;> rw [heq]
  · exact Compile.follows_bind
      (mergedFields_accounts hask hcontext name (Schema.allOf_ne_nil_of_combination hall))
      fun _ => Compile.follows_pure _
  · refine unionOf_accounts hask hcontext ⟨hmodel, Schema.alternatives_ne_nil ?_ ?_⟩
    · rcases hunion with hcomb | hcomb <;> simp [hcomb]
    · rcases hunion with hcomb | hcomb <;> simp [hcomb]
  · exact Compile.follows_bind (fieldsOf_accounts hask hcontext id) fun _ =>
      Compile.follows_pure _

/-- The slot that a model reserves is empty only while the model is built. -/
theorem buildModel_accounts {id : SchemaId} (hmodel : doc.IsModel id) :
    (buildModel doc ask context id).Accounts doc registry := by
  refine Compile.follows_bind ?_ fun name state hstate => ?_
  · unfold modelName
    split
    · exact Compile.follows_pure _
    · exact Compile.follows_bind (Compile.accounts_modify (fun _ => rfl) fun _ => rfl) fun _ =>
        Compile.follows_bind Compile.follows_get fun _ => Compile.follows_pure _
  · -- Reserving alone does not keep to the rule, so the four steps are taken together.
    simp only [Compile.ends_bind, Compile.ends_get, Compile.ends_modify, Compile.ends_pure]
    exact (shapeOf_accounts hask hcontext name hmodel (state.reserve id) hstate).imp
      fun _ _ h => h.fill

theorem modelType_accounts {id : SchemaId}
    (hend : (doc.schema id).type = none ∨ (doc.schema id).type = some .object) :
    (modelType doc ask context id).Accounts doc registry := by
  intro state hstate
  simp only [modelType, Compile.ends_bind, Compile.ends_get]
  split
  · split
    · rename_i hmem
      exact .fault (.cyclicUnion (hstate id (by simpa using hmem)))
    · exact .refl hstate
  · split <;> simp only [Compile.ends_bind, Compile.ends_pure]
    · rename_i hanchor
      exact registerAnchor_accounts hask hcontext hanchor state hstate
    · rename_i hanchor
      exact buildModel_accounts hask hcontext ⟨hend, by simpa using hanchor⟩ state hstate

theorem typeOf_accounts (id : SchemaId) :
    (typeOf doc registry ask context id).Accounts doc registry := by
  rcases typeOf_cases doc registry context id with
    ⟨_, -, -, heq⟩ | ⟨harray, hitems, heq⟩ | ⟨primitive, -, hscalar, heq⟩ | ⟨hend, heq⟩ <;> rw [heq]
  · exact Compile.follows_bind (elementType_accounts hask _) fun _ => Compile.follows_pure _
  · exact Compile.accounts_throw (.missingItems harray hitems)
  · exact Compile.follows_bind (Compile.accounts_ofExcept fun _ => .format hscalar) fun _ =>
      Compile.follows_pure _
  · exact modelType_accounts hask hcontext hend

end Steps

/-- Requests of any depth fill what they reserve, or stop for a reason. -/
theorem requests_account (doc : Document) (registry : Registry) (depth : Nat) :
    (requests doc registry depth).Account doc registry := by
  induction depth with
  | zero =>
      exact ⟨fun _ _ => Compile.follows_throw fun _ _ => .endless,
        fun _ _ _ _ => Compile.follows_throw fun _ _ => .endless⟩
  | succ depth ih =>
      exact ⟨fun hcontext id => typeOf_accounts ih hcontext id,
        fun hcontext name _ hne => mergedFields_accounts ih hcontext name hne⟩

/-! ## Calls -/

section Calls

variable (doc : Document) (registry : Registry)

theorem Compile.schema_accounts (id : SchemaId) :
    (Compile.schema doc registry id).Accounts doc registry :=
  (requests_account doc registry doc.depth).type Context.within_nil id

theorem Compile.named_accounts {name : String} (h : (doc.lookup name).isSome = true) :
    (Compile.named doc registry name).Accounts doc registry := by
  obtain ⟨id, hid⟩ := Option.isSome_iff_exists.mp h
  simp only [Compile.named, hid]
  exact follows_bind (schema_accounts doc registry id) fun _ =>
    follows_bind (accounts_modify (fun _ => rfl) fun _ => rfl) fun _ => follows_pure _

/-- A call that succeeds leaves no slot empty. -/
theorem Call.step_completes {call : Call} {state : Compilation} {type : Option Ty}
    (hstate : ∀ id ∈ state.unions, doc.IsUnion id)
    (h : (call.step doc registry state).1 = .ok type) :
    state.Completes doc (call.step doc registry state).2 := by
  cases call with
  | schema id => exact (Compile.schema_accounts doc registry id state hstate).of_ok h
  | named name =>
      cases hlookup : doc.lookup name with
      | none =>
          have hstep : (Compile.named doc registry name state).1 =
              .error (.failed (.unknownSchema name)) := by
            simp only [Compile.named, hlookup]
            rfl
          cases hstep.symm.trans h
      | some id =>
          have hsome : (doc.lookup name).isSome = true := by simp [hlookup]
          exact (Compile.named_accounts doc registry hsome state hstate).of_ok h

/-- Calls that all succeed leave no slot empty. -/
theorem Call.run_completes {calls : List Call} {state : Compilation}
    (hstate : ∀ id ∈ state.unions, doc.IsUnion id)
    (h : ∀ entry ∈ (run doc registry calls state).1, ∃ type, entry.2 = .ok type) :
    state.Completes doc (run doc registry calls state).2 := by
  induction calls generalizing state with
  | nil => exact .refl hstate
  | cons call rest ih =>
      rcases run_cons_cases doc registry call rest state with
        ⟨answer, after, hstep, hrun⟩ | hrun <;> rw [hrun] at h ⊢
      · rw [List.forall_mem_cons] at h
        obtain ⟨⟨type, rfl⟩, hrest⟩ := h
        have hcompletes := step_completes doc registry hstate (by rw [hstep]; rfl)
        rw [hstep] at hcompletes
        exact hcompletes.trans (ih hcompletes.unions hrest)
      · exact .refl hstate

end Calls

namespace Document

variable {doc : Document} {state : Compilation}

/-- What starts with nothing and leaves no slot empty is finished with all slots filled. -/
theorem finish_of_completes (h : ({} : Compilation).Completes doc state) :
    ∃ set, state.finish doc = .ok set ∧ state.slots = set.models.map some := by
  have hfilled : ∀ m : ModelId, state.slots[m]? ≠ some none :=
    fun m hslot => by simpa using h.filled hslot
  obtain ⟨set, hset⟩ : ∃ set, state.finish doc = .ok set := exists_finish_of_filled hfilled
  exact ⟨set, hset, (congrArg Arena.slots (Compilation.arena_finish hset)).symm⟩

theorem compileNamed_accounts (doc : Document) : doc.compileNamed.Accounts doc .standard := by
  refine Compile.follows_bind (Compile.follows_forM fun entry _ => ?_) fun _ =>
    Compile.follows_forM fun entry hmem => Compile.follows_discard ?_
  · dsimp only
    split
    · exact Compile.follows_discard (Compile.schema_accounts doc .standard entry.2)
    · exact Compile.follows_pure _
  · exact Compile.named_accounts doc .standard
      (Option.isSome_iff_exists.mpr (Keyed.exists_get?_of_mem_keys (List.mem_map_of_mem hmem)))

/-- A compilation of a whole document that fails has met a fault of a schema. It does not fail for a
name, a format or a slot that is left empty, and it has an end unless an array holds itself through
arrays alone. Whatever calls are made instead, and whatever the registry, if all of them succeed,
then a model set comes out of them that has a model in each slot. -/
theorem compile_fault (doc : Document) :
    (∀ error, doc.compile = .error (.failed error) → doc.Fault error) ∧
    (doc.compile = .error .endless → ∃ array, TransGen doc.ItemOf array array) ∧
    ∀ (registry : Registry) (calls : List Call),
      (∀ entry ∈ (Call.run doc registry calls {}).1, ∃ type, entry.2 = .ok type) →
      ∃ set, (Call.run doc registry calls {}).2.finish doc = .ok set ∧
        (Call.run doc registry calls {}).2.slots = set.models.map some := by
  refine ⟨fun error h => ?_, fun h => ?_, fun registry calls hok => ?_⟩
  · have hends : doc.compileNamed.Ends {} _ _ :=
      compileNamed_accounts doc {} (List.forall_mem_nil _)
    unfold compile at h
    unfold Compile.Ends at hends
    split at h
    · rename_i answer state hrun
      rw [hrun] at hends
      obtain ⟨set, hset, -⟩ := finish_of_completes hends
      rw [hset] at h
      cases h
    · rename_i hrun
      cases h
      rw [hrun] at hends
      exact Blames.fault_of_standard hends
  · by_contra harrays
    have hne : doc.compile ≠ .error .endless := by
      rw [compile_eq_compileWith]
      exact compileWith_ne_endless (requests_concur (Nat.le_refl doc.depth)) (not_exists.mp harrays)
    exact hne h
  · exact finish_of_completes (Call.run_completes doc registry (List.forall_mem_nil _) hok)

/-- The choice and its proxy are refused as a document, and compiled by calls in another order. -/
theorem choiceFirst_fault :
    choiceFirst.Fault (.cyclicUnion "Choice") ∧
      ∃ set, (Call.run choiceFirst .standard [.named "Proxy", .named "Choice"] {}).2.finish
          choiceFirst = .ok set ∧
        (Call.run choiceFirst .standard [.named "Proxy", .named "Choice"] {}).2.slots =
          set.models.map some := by
  obtain ⟨hfault, -, hcalls⟩ := compile_fault choiceFirst
  constructor
  · exact hfault (.cyclicUnion "Choice") (by rfl)
  · have hlog : (Call.run choiceFirst .standard [.named "Proxy", .named "Choice"] {}).1 =
        [(.named "Proxy", .ok none), (.named "Choice", .ok (some (.model 0)))] := by rfl
    refine hcalls .standard _ ?_
    rw [hlog]
    simp

end Document
end OpenApi
