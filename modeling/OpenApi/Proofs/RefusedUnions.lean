-- SUMMARY: When a compilation refuses a union that comes back to itself, and when it is a false alarm.
import Mathlib
import OpenApi.Document.Load
import OpenApi.Proofs.Compilation.Cases
import OpenApi.Proofs.Compilation.Errors
import OpenApi.Proofs.Schema.Ways
import OpenApi.Proofs.Step

/-!
# Refused unions

A union is refused when it is met while it is being built and no field or item lies in
between. The unions that are being built are kept on a chain, and each of them leads to
the schema that is asked for by members and by variants of anchors. So a refused union
comes back to itself by such steps; fields, items and members of `allOf` have no part in
it. The variants of an anchor are no alternatives, though. A union that comes back to
itself only by way of an anchor is refused without need, and only if it is compiled
before the anchor is.
-/

namespace OpenApi

open Relation (ReflTransGen TransGen)

namespace Document

variable (doc : Document)

/-- A union that has a model. -/
structure IsUnion (id : SchemaId) : Prop where
  model : doc.IsModel id
  alternatives : (doc.schema id).alternatives ≠ []

/-- Where a step stops to refuse a union, some union of that name comes back to itself through
members and variants. -/
def Warrants (stop : Stop SchemaError) : Prop :=
  ∀ label, stop = .failed (.cyclicUnion label) →
    ∃ union, (doc.schema union).label = label ∧ doc.IsUnion union ∧
      TransGen doc.Passes union union

/-- The unions on a chain lead to a schema through members and variants. -/
def ChainTo (unions : List SchemaId) (id : SchemaId) : Prop :=
  ∀ union ∈ unions, doc.IsUnion union ∧ TransGen doc.Passes union id

variable {doc} {unions : List SchemaId} {id child : SchemaId}

theorem warrants_of_ne {stop : Stop SchemaError}
    (h : ∀ label, stop ≠ .failed (.cyclicUnion label)) : doc.Warrants stop :=
  fun label heq => absurd heq (h label)

theorem chainTo_nil : doc.ChainTo [] id := by simp [ChainTo]

theorem ChainTo.tail (h : doc.ChainTo unions id) (hstep : doc.Passes id child) :
    doc.ChainTo unions child := fun union hmem => ⟨(h union hmem).1, (h union hmem).2.tail hstep⟩

theorem ChainTo.member (h : doc.ChainTo unions id) (hmodel : doc.IsModel id) {edge : Edge}
    (hmem : edge ∈ (doc.schema id).alternatives) : doc.ChainTo (id :: unions) edge.id := by
  have hstep : doc.Passes id edge.id := .alternative hmodel hmem
  exact List.forall_mem_cons.mpr
    ⟨⟨⟨hmodel, List.ne_nil_of_mem hmem⟩, .single hstep⟩, h.tail hstep⟩

/-! ## Where a loop leads -/

/-- A walk through members and variants goes through members of unions alone, or comes to an
anchor. -/
theorem offers_or_anchor {first last : SchemaId} (h : TransGen doc.Passes first last) :
    TransGen doc.Offers first last ∨ ∃ anchor, (doc.schema anchor).isAnchor = true ∧
      ReflTransGen doc.Passes first anchor ∧ TransGen doc.Passes anchor last := by
  induction h with
  | single hstep =>
      cases hstep with
      | alternative hmodel hmem => exact .inl (.single ⟨hmodel, _, hmem, rfl⟩)
      | variant hanchor hmem hresolve =>
          exact .inr ⟨_, hanchor, .refl, .single (.variant hanchor hmem hresolve)⟩
  | @tail middle _ hwalk hstep ih =>
      rcases ih with hoffers | ⟨anchor, hanchor, hfirst, hlast⟩
      · cases hstep with
        | alternative hmodel hmem => exact .inl (hoffers.tail ⟨hmodel, _, hmem, rfl⟩)
        | variant hanchor hmem hresolve =>
            exact .inr ⟨middle, hanchor, hwalk.to_reflTransGen,
              .single (.variant hanchor hmem hresolve)⟩
      · exact .inr ⟨anchor, hanchor, hfirst, hlast.tail hstep⟩

/-- A union that comes back to itself is an alternative of itself, or an anchor is on the way. -/
theorem IsUnion.offers_or_anchor (h : doc.IsUnion id) (hloop : TransGen doc.Passes id id) :
    TransGen doc.Offers id id ∨ ∃ anchor, (doc.schema anchor).isAnchor = true ∧
      TransGen doc.Passes id anchor ∧ TransGen doc.Passes anchor id := by
  refine (Document.offers_or_anchor hloop).imp_right ?_
  rintro ⟨anchor, hanchor, hfirst, hlast⟩
  rcases Relation.reflTransGen_iff_eq_or_transGen.mp hfirst with rfl | hfirst
  · cases h.model.anchor.symm.trans hanchor
  · exact ⟨anchor, hanchor, hfirst, hlast⟩

end Document

/-! ## Steps -/

namespace Compile

variable {α β : Type} (doc : Document) (unions : List SchemaId)

/-- With these unions on the chain, they stay there, and no union is refused without a loop. -/
def warrantRule : Rule where
  starts state := state.unions = unions
  changes _ after := after.unions = unions
  fails _ stop _ := doc.Warrants stop
  refl := fun h => h
  trans := fun _ h => h
  goesOn := fun h => h
  fails_trans := fun _ h => h

/-- With these unions on the chain, a step that succeeds leaves them there, and one that does not
refuses no union without a loop. -/
abbrev Warranted (step : Compile α) : Prop := step.Follows (warrantRule doc unions)

variable {doc unions}

theorem warranted_throw {stop : Stop SchemaError} (h : doc.Warrants stop) :
    Warranted doc unions (throw stop : Compile α) := follows_throw fun _ _ => h

theorem warranted_ofExcept {result : Except SchemaError α}
    (h : ∀ error, result = .error error → doc.Warrants (.failed error)) :
    Warranted doc unions (ofExcept result) := follows_ofExcept fun error herror _ _ => h error herror

/-- What is on the chain in between is taken off again. -/
theorem warranted_between {enter leave : Compilation → Compilation} {unions' : List SchemaId}
    {step : Compile α} (h : Warranted doc unions' step)
    (henter : ∀ state, state.unions = unions → (enter state).unions = unions')
    (hleave : ∀ state, state.unions = unions' → (leave state).unions = unions) :
    Warranted doc unions (between enter leave step) := by
  intro state hstate
  rw [ends_between]
  exact (h (enter state) (henter state hstate)).imp fun _ => hleave

end Compile

/-- Requests for a type refuse no union without a loop if the unions on the chain lead to the
schema; requests for merged fields never do. -/
structure Requests.Warrant (doc : Document) (ask : Requests) : Prop where
  type : ∀ {unions id}, doc.ChainTo unions id →
    ∀ context, (ask.type context id).Warranted doc unions
  merged : ∀ unions context name id, (ask.merged context name id).Warranted doc unions

section Steps

variable {doc : Document} {registry : Registry} {ask : Requests} (hask : ask.Warrant doc)
variable (unions : List SchemaId) (context : Context) (name : String)
include hask

/-! ### Fields and members -/

/-- Fields and items start with an empty chain. -/
theorem elementType_warranted (edge : Edge) : (elementType ask edge).Warranted doc unions := by
  intro state hstate
  simp only [elementType, Compile.ends_bind, Compile.ends_get, Compile.ends_between,
    Compile.ends_pure]
  have hempty : ({ state with unions := [] } : Compilation).unions = [] := rfl
  exact (hask.type Document.chainTo_nil {} _ hempty).imp fun _ _ _ => hstate

theorem fieldsOf_warranted (schema : Schema) :
    (fieldsOf doc ask context schema).Warranted doc unions := by
  refine Compile.follows_mapM fun property _ => ?_
  have hnarrow (error : SchemaError) (h : context.narrow property.1 = .error error) :
      doc.Warrants (.failed error) := by
    rw [Context.narrow_error h]
    exact Document.warrants_of_ne nofun
  refine Compile.follows_bind (Compile.warranted_ofExcept hnarrow) ?_
  intro tag
  cases tag with
  | some tag => exact Compile.follows_pure _
  | none =>
      exact Compile.follows_bind (elementType_warranted hask unions property.2) fun _ =>
        Compile.follows_pure _

omit hask in
theorem absorb_warranted (merged fields : List Field) :
    (Compile.ofExcept (absorb name merged fields)).Warranted doc unions := by
  refine Compile.warranted_ofExcept fun error h => ?_
  obtain ⟨field, -, rfl⟩ := absorb_error h
  exact Document.warrants_of_ne nofun

theorem contribution_warranted (owner : Schema) (member : Edge) :
    (contribution doc ask context name owner member).Warranted doc unions := by
  rcases contribution_cases doc context name owner member with
    ⟨-, heq⟩ | ⟨-, heq⟩ | ⟨-, _, _, heq⟩ <;> rw [heq]
  · exact hask.merged unions context name member.id
  · exact fieldsOf_warranted hask unions context _
  · exact Compile.warranted_throw (Document.warrants_of_ne nofun)

theorem mergeMembers_warranted (schema : Schema) :
    (mergeMembers doc ask context name schema).Warranted doc unions := by
  refine Compile.follows_bind ?_ fun _ => ?_
  · refine Compile.follows_foldlM (fun member _ _ => ?_) []
    exact Compile.follows_bind (contribution_warranted hask unions context name schema member)
      fun _ => absorb_warranted unions name _ _
  · refine Compile.follows_bind (fieldsOf_warranted hask unions context schema) fun _ => ?_
    exact Compile.follows_bind (absorb_warranted unions name _ _) fun _ =>
      Compile.follows_pure _

theorem mergedFields_warranted (id : SchemaId) :
    (mergedFields doc ask context name id).Warranted doc unions := by
  refine Compile.follows_bind Compile.follows_get fun _ => ?_
  split
  · exact Compile.warranted_throw (Document.warrants_of_ne nofun)
  · exact Compile.warranted_between (mergeMembers_warranted hask unions context name _)
      (fun _ h => h) fun _ h => h

/-! ### Unions and anchors -/

variable {unions} {id : SchemaId} (hchain : doc.ChainTo unions id)
include hchain

/-- The union is on the chain while its members are built. -/
theorem unionOf_warranted (hmodel : doc.IsModel id) :
    (unionOf doc ask context id (doc.schema id).alternatives).Warranted doc unions := by
  refine Compile.follows_bind ?_ fun _ => Compile.follows_pure _
  have hmembers : (alternativesOf doc ask context (doc.schema id)
      (doc.schema id).alternatives).Warranted doc (id :: unions) := by
    refine Compile.follows_foldlM (fun member hmem _ => ?_) []
    refine Compile.follows_bind (hask.type (hchain.member hmodel hmem) _) fun type => ?_
    cases type <;> exact Compile.follows_pure _
  exact Compile.warranted_between hmembers (fun _ h => congrArg (id :: ·) h)
    fun _ h => congrArg List.tail h

/-- An anchor is not on the chain, but the unions that lead to it stay there. -/
theorem variantsOf_warranted (hanchor : (doc.schema id).isAnchor = true) :
    (variantsOf doc ask context (doc.schema id)
      ((doc.schema id).mapping.map (·.2))).Warranted doc unions := by
  refine Compile.follows_foldlM (fun target hmem _ => ?_) []
  cases hresolve : doc.resolve target with
  | none => exact Compile.warranted_throw (Document.warrants_of_ne nofun)
  | some variant =>
      obtain ⟨⟨tag, target⟩, hentry, rfl⟩ := List.mem_map.mp hmem
      refine Compile.follows_bind
        (hask.type (hchain.tail (.variant hanchor hentry hresolve)) _) fun type => ?_
      split <;> exact Compile.follows_pure _

theorem registerAnchor_warranted (hanchor : (doc.schema id).isAnchor = true) :
    (registerAnchor doc ask context id).Warranted doc unions := by
  refine Compile.follows_bind Compile.follows_get fun state => ?_
  split
  · exact Compile.follows_pure _
  · refine Compile.follows_bind (Compile.follows_modify fun _ h => h) fun _ => ?_
    cases hmapping : (doc.schema id).discriminator.bind (·.mapping) with
    | none => exact Compile.follows_pure _
    | some mapping =>
        have hmapping : mapping = (doc.schema id).mapping := by simp [Schema.mapping, hmapping]
        subst hmapping
        exact Compile.follows_bind (variantsOf_warranted hask context hchain hanchor) fun _ =>
          Compile.follows_modify fun _ h => h

/-! ### Models and types -/

theorem shapeOf_warranted (hmodel : doc.IsModel id) :
    (shapeOf doc ask context name id).Warranted doc unions := by
  rcases shapeOf_cases doc context name id with ⟨-, heq⟩ | ⟨-, heq⟩ | ⟨-, heq⟩ <;> rw [heq]
  · exact Compile.follows_bind (mergedFields_warranted hask unions context name id) fun _ =>
      Compile.follows_pure _
  · exact unionOf_warranted hask context hchain hmodel
  · exact Compile.follows_bind (fieldsOf_warranted hask unions context _) fun _ =>
      Compile.follows_pure _

theorem buildModel_warranted (hmodel : doc.IsModel id) :
    (buildModel doc ask context id).Warranted doc unions := by
  refine Compile.follows_bind ?_ fun name => ?_
  · unfold modelName
    split
    · exact Compile.follows_pure _
    · exact Compile.follows_bind (Compile.follows_modify fun _ h => h) fun _ =>
        Compile.follows_bind Compile.follows_get fun _ => Compile.follows_pure _
  · refine Compile.follows_bind Compile.follows_get fun _ => ?_
    refine Compile.follows_bind (Compile.follows_modify fun _ h => h) fun _ => ?_
    refine Compile.follows_bind (shapeOf_warranted hask context name hchain hmodel) fun _ => ?_
    exact Compile.follows_bind (Compile.follows_modify fun _ h => h) fun _ =>
      Compile.follows_pure _

/-- A union that is met while it is on the chain leads to itself, as all unions there do. -/
theorem modelType_warranted
    (hend : (doc.schema id).type = none ∨ (doc.schema id).type = some .object) :
    (modelType doc ask context id).Warranted doc unions := by
  intro state (hstate : state.unions = unions)
  simp only [modelType, Compile.ends_bind, Compile.ends_get]
  split
  · split
    · rename_i hmem
      have hmem : id ∈ unions := by simpa [hstate] using hmem
      intro label hlabel
      cases hlabel
      exact ⟨id, rfl, hchain id hmem⟩
    · exact hstate
  · split <;> simp only [Compile.ends_bind, Compile.ends_pure]
    · rename_i hanchor
      exact registerAnchor_warranted hask context hchain hanchor state hstate
    · rename_i hanchor
      exact buildModel_warranted hask context hchain ⟨hend, by simpa using hanchor⟩ state hstate

theorem typeOf_warranted : (typeOf doc registry ask context id).Warranted doc unions := by
  rcases typeOf_cases doc registry context id with
    ⟨_, -, -, heq⟩ | ⟨-, -, heq⟩ | ⟨primitive, -, -, heq⟩ | ⟨hend, heq⟩ <;> rw [heq]
  · exact Compile.follows_bind (elementType_warranted hask unions _) fun _ =>
      Compile.follows_pure _
  · exact Compile.warranted_throw (Document.warrants_of_ne nofun)
  · refine Compile.follows_bind (Compile.warranted_ofExcept fun error h => ?_) fun _ =>
      Compile.follows_pure _
    rcases Registry.resolve_error h with rfl | rfl <;> exact Document.warrants_of_ne nofun
  · exact modelType_warranted hask context hchain hend

end Steps

/-- Requests of any depth refuse no union without a loop. -/
theorem requests_warrant (doc : Document) (registry : Registry) (depth : Nat) :
    (requests doc registry depth).Warrant doc := by
  induction depth with
  | zero =>
      exact ⟨fun _ _ => Compile.warranted_throw (Document.warrants_of_ne nofun),
        fun _ _ _ _ => Compile.warranted_throw (Document.warrants_of_ne nofun)⟩
  | succ depth ih =>
      exact ⟨fun hchain context => typeOf_warranted ih context hchain,
        fun unions context name id => mergedFields_warranted ih unions context name id⟩

/-! ## Compilations -/

namespace Document

variable {doc : Document}

theorem named_warranted (name : String) :
    (Compile.named doc .standard name).Warranted doc [] := by
  unfold Compile.named
  split
  · exact Compile.warranted_throw (warrants_of_ne nofun)
  · refine Compile.follows_bind
      ((requests_warrant doc .standard doc.depth).type chainTo_nil {}) fun _ => ?_
    exact Compile.follows_bind (Compile.follows_modify fun _ h => h) fun _ =>
      Compile.follows_pure _

theorem compileNamed_warranted : doc.compileNamed.Warranted doc [] := by
  refine Compile.follows_bind (Compile.follows_forM fun entry _ => ?_) fun _ =>
    Compile.follows_forM fun entry _ => Compile.follows_discard (named_warranted entry.1)
  dsimp only
  split
  · exact Compile.follows_discard
      ((requests_warrant doc .standard doc.depth).type chainTo_nil {})
  · exact Compile.follows_pure _

/-- A union that a compilation refuses comes back to itself through its members and theirs, as an
alternative of itself, or else an anchor is on the way: one that some member comes to, and that has
the union among its variants or theirs. -/
theorem compile_cyclicUnion {label : String}
    (h : doc.compile = .error (.failed (.cyclicUnion label))) :
    ∃ union, (doc.schema union).label = label ∧ doc.IsUnion union ∧
      (TransGen doc.Offers union union ∨ ∃ anchor, (doc.schema anchor).isAnchor = true ∧
        TransGen doc.Passes union anchor ∧ TransGen doc.Passes anchor union) := by
  have hends : doc.compileNamed.Ends {} _ _ := compileNamed_warranted {} rfl
  unfold compile at h
  unfold Compile.Ends at hends
  split at h
  · obtain ⟨error, hfinish, herror⟩ := exists_of_mapError_eq_error h
    obtain ⟨_, rfl⟩ := Compilation.finish_error hfinish
    cases herror
  · rename_i stop after hrun
    cases h
    rw [hrun] at hends
    obtain ⟨union, hlabel, hunion, hloop⟩ := hends label rfl
    exact ⟨union, hlabel, hunion, hunion.offers_or_anchor hloop⟩

/-! ## A choice behind an anchor -/

/-- A proxy, or an integer. -/
def choiceEntry : String × Json :=
  ("Choice", .obj [
    ("oneOf", .arr [
      .obj [("$ref", .str "#/components/schemas/Proxy")],
      .obj [("type", .str "integer")]]),
    ("discriminator", .obj [("propertyName", .str "kind")])])

/-- An anchor whose only variant is the choice. -/
def proxyEntry : String × Json :=
  ("Proxy", .obj [("discriminator", .obj [
    ("propertyName", .str "kind"),
    ("mapping", .obj [("choice", .str "#/components/schemas/Choice")])])])

/-- The choice and the proxy, in some order. -/
def choiceValue (entries : List (String × Json)) : Json :=
  .obj [("openapi", .str "3.0.3"), ("components", .obj [("schemas", .obj entries)])]

/-- The document in which the choice comes first. -/
def choiceFirst : Document where
  dialect := .openApi30
  schemas := #[
    { dialect := .openApi30, identity := some "Choice", discriminator := some { property := "kind" }
      oneOf := [{ id := 1, reference := some "#/components/schemas/Proxy" }, { id := 2 }] },
    { dialect := .openApi30, identity := some "Proxy"
      discriminator := some
        { property := "kind", mapping := some [("choice", "#/components/schemas/Choice")] } },
    { dialect := .openApi30, identity := some "Choice.oneOf.1", type := some .integer }]
  named := [("Choice", 0), ("Proxy", 1)]

/-- The document in which the proxy comes first. -/
def proxyFirst : Document where
  dialect := .openApi30
  schemas := #[
    { dialect := .openApi30, identity := some "Proxy"
      discriminator := some
        { property := "kind", mapping := some [("choice", "#/components/schemas/Choice")] } },
    { dialect := .openApi30, identity := some "Choice", discriminator := some { property := "kind" }
      oneOf := [{ id := 0, reference := some "#/components/schemas/Proxy" }, { id := 2 }] },
    { dialect := .openApi30, identity := some "Choice.oneOf.1", type := some .integer }]
  named := [("Proxy", 0), ("Choice", 1)]

private theorem choiceFirst_offers {union member : SchemaId}
    (h : choiceFirst.Offers union member) : union < member := by
  obtain ⟨-, edge, hmem, rfl⟩ := h
  match union with
  | 0 => rcases List.mem_pair.mp hmem with rfl | rfl <;> decide
  | 1 | 2 | union + 3 => cases hmem

/-- The choice is refused for the anchor among its members, which has it as a variant. -/
theorem choiceFirst_cyclicUnion :
    choiceFirst.compile = .error (.failed (.cyclicUnion "Choice")) ∧ ∃ union anchor,
      (choiceFirst.schema union).label = "Choice" ∧
      (choiceFirst.schema anchor).isAnchor = true ∧
      TransGen choiceFirst.Passes union anchor ∧ TransGen choiceFirst.Passes anchor union := by
  have hrefused : choiceFirst.compile = .error (.failed (.cyclicUnion "Choice")) := by rfl
  obtain ⟨union, hlabel, -, hloop⟩ := compile_cyclicUnion hrefused
  obtain ⟨anchor, hanchor, hfirst, hlast⟩ := hloop.resolve_left (not_transGen_of_lt choiceFirst_offers union)
  exact ⟨hrefused, union, anchor, hlabel, hanchor, hfirst, hlast⟩

variable (doc) in
/-- Compilation refuses only unions that are alternatives of themselves. -/
def RefusesAlternativesOnly : Prop :=
  ∀ label, doc.compile = .error (.failed (.cyclicUnion label)) →
    ∃ union, (doc.schema union).label = label ∧ TransGen doc.Offers union union

/-- The choice is refused without need, and only if it comes before the proxy. -/
theorem choiceFirst_refused :
    ofJson (choiceValue [choiceEntry, proxyEntry]) = .ok choiceFirst ∧
      ofJson (choiceValue [proxyEntry, choiceEntry]) = .ok proxyFirst ∧
      ¬ choiceFirst.RefusesAlternativesOnly ∧ ∃ set, proxyFirst.compile = .ok set := by
  have hload : ofJson (choiceValue [choiceEntry, proxyEntry]) = .ok choiceFirst := by cbv
  have hload' : ofJson (choiceValue [proxyEntry, choiceEntry]) = .ok proxyFirst := by cbv
  refine ⟨hload, hload', fun honly => ?_, _, rfl⟩
  obtain ⟨union, -, hloop⟩ := honly "Choice" rfl
  exact not_transGen_of_lt choiceFirst_offers union hloop

end Document
end OpenApi
