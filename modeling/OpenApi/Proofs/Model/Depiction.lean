-- SUMMARY: What a model looks like in a context, with the fields of objects already merged.
import OpenApi.Proofs.Model.FieldTypes
import OpenApi.Proofs.Schema.Ways
import OpenApi.Proofs.Translation

/-!
# Depictions

`Depicts` says what the model of a schema looks like in a context without the order in which
fields were absorbed. The context only matters for the properties of the schema and of the
members that are merged into it, so contexts that narrow these alike give the same model,
and there is only one.
-/

namespace OpenApi

open Relation (ReflTransGen TransGen)

/-- What the model of a schema looks like in a context. -/
inductive Depicts (doc : Document) (registry : Registry) (models : ModelTable) (context : Context)
    (id : SchemaId) : Shape → Prop where
  | union {found : List (Edge × Ty)} :
      (doc.schema id).alternatives ≠ [] →
        HasAlternatives doc registry models (doc.schema id).alternatives found →
        Depicts doc registry models context id
          (.union (found.map (·.2)) (doc.schema id).discriminator
            (tagsOf doc (doc.schema id).mapping (found.map (·.1))))
  | object {fields : List Field} :
      (doc.schema id).alternatives = [] →
        HasFields doc (IsField doc registry models context) id fields →
        Depicts doc registry models context id (.object fields)

/-- The model that a type is, if it is one. -/
def modelOf : Option Ty → Option ModelId
  | some (.model m) => some m
  | _ => none

/-- The models among types, each once. -/
def modelsAmong (types : List (Option Ty)) : List ModelId := (types.filterMap modelOf).eraseDups

/-- The variants that the mapping of a schema gives an anchor: the models of its targets. -/
def HasVariants (doc : Document) (registry : Registry) (models : ModelTable) (id : SchemaId)
    (variants : List ModelId) : Prop :=
  ∃ types, List.Forall₂ (fun target type =>
      ∃ variant, doc.resolve target = some variant ∧ HasType doc registry models variant type)
    ((doc.schema id).mapping.map (·.2)) types ∧ variants = modelsAmong types

variable {doc : Document} {registry : Registry} {models models' : ModelTable}
variable {context context' : Context} {id : SchemaId} {law law' : PropertyLaw}

/-! ## Variants -/

theorem eraseDups_append_singleton (models : List ModelId) (m : ModelId) :
    (models ++ [m]).eraseDups =
      if models.eraseDups.contains m then models.eraseDups else models.eraseDups ++ [m] := by
  by_cases hmem : m ∈ models <;>
    simp [List.eraseDups_append, List.eraseDups_cons, List.removeAll, hmem]

theorem modelOf_eq_none {type : Option Ty} (h : ∀ m, type ≠ some (.model m)) :
    modelOf type = none := by
  unfold modelOf
  split
  · exact absurd rfl (h _)
  · rfl

theorem modelsAmong_append_some {types : List (Option Ty)} {type : Option Ty} {m : ModelId}
    (h : modelOf type = some m) : modelsAmong (types ++ [type]) =
      if (modelsAmong types).contains m then modelsAmong types else modelsAmong types ++ [m] := by
  have hone : [type].filterMap modelOf = [m] := by simp [h]
  rw [modelsAmong, List.filterMap_append, hone]
  exact eraseDups_append_singleton _ m

theorem modelsAmong_append_none {types : List (Option Ty)} {type : Option Ty}
    (h : modelOf type = none) : modelsAmong (types ++ [type]) = modelsAmong types := by
  simp [modelsAmong, List.filterMap_append, h]

theorem mem_modelsAmong {types : List (Option Ty)} {m : ModelId} :
    m ∈ modelsAmong types ↔ some (.model m) ∈ types := by
  simp only [modelsAmong, List.mem_eraseDups, List.mem_filterMap]
  constructor
  · rintro ⟨type, hmem, htype⟩
    unfold modelOf at htype
    split at htype
    · cases htype
      exact hmem
    · cases htype
  · exact fun hmem => ⟨_, hmem, rfl⟩

/-- A variant is the model of a schema. -/
theorem HasVariants.exists_schema {variants : List ModelId} {m : ModelId}
    (h : HasVariants doc registry models id variants) (hmem : m ∈ variants) :
    ∃ variant, models variant = some m := by
  obtain ⟨types, htypes, rfl⟩ := h
  rw [mem_modelsAmong] at hmem
  generalize (doc.schema id).mapping.map (·.2) = targets at htypes
  induction htypes with
  | nil => cases hmem
  | cons hfirst _ ih =>
      obtain ⟨variant, -, htype⟩ := hfirst
      rcases List.mem_cons.mp hmem with rfl | hmem
      · exact ⟨variant, htype.models_of_model⟩
      · exact ih hmem

/-! ## Properties of the schema and its members -/

/-- A law may be replaced by one that says the same of these properties. -/
theorem forall₂_imp_of_mem {schema : Schema} {properties : Keyed Edge} {fields : List Field}
    (himp : ∀ property ∈ properties, ∀ field, law schema property field →
      law' schema property field)
    (h : List.Forall₂ (law schema) properties fields) :
    List.Forall₂ (law' schema) properties fields := by
  induction h with
  | nil => exact .nil
  | cons hfield _ ih =>
      rw [List.forall_mem_cons] at himp
      exact .cons (himp.1 _ hfield) (ih himp.2)

mutual

theorem HasFields.imp_of_walk {root : SchemaId}
    (himp : ∀ part, ReflTransGen doc.Includes root part →
      ∀ property ∈ (doc.schema part).properties, ∀ field,
        law (doc.schema part) property field → law' (doc.schema part) property field)
    {id : SchemaId} {fields : List Field} (hwalk : ReflTransGen doc.Includes root id) :
    HasFields doc law id fields → HasFields doc law' id fields
  | .plain hnone hfields => .plain hnone (forall₂_imp_of_mem (himp id hwalk) hfields)
  | .merged hne hinherited hown hmerges =>
      .merged hne (hinherited.imp_of_walk himp fun edge hmem => hwalk.tail ⟨edge, hmem, rfl⟩)
        (forall₂_imp_of_mem (himp id hwalk) hown) hmerges

theorem Contribute.imp_of_walk {root : SchemaId}
    (himp : ∀ part, ReflTransGen doc.Includes root part →
      ∀ property ∈ (doc.schema part).properties, ∀ field,
        law (doc.schema part) property field → law' (doc.schema part) property field)
    {members : List Edge} {fields : List Field}
    (hwalk : ∀ edge ∈ members, ReflTransGen doc.Includes root edge.id) :
    Contribute doc law members fields → Contribute doc law' members fields
  | .nil => .nil
  | .cons hfirst hrest => by
      rw [List.forall_mem_cons] at hwalk
      exact .cons (hfirst.imp_of_walk himp hwalk.1) (hrest.imp_of_walk himp hwalk.2)

end

theorem Contribute.exists_of_mem {members : List Edge} {fields : List Field} {edge : Edge}
    (h : Contribute doc law members fields) (hmem : edge ∈ members) :
    ∃ parts, HasFields doc law edge.id parts ∧ parts ⊆ fields := by
  match h with
  | .cons hfirst hrest =>
      rcases List.mem_cons.mp hmem with rfl | hmem
      · exact ⟨_, hfirst, List.subset_append_left _ _⟩
      · obtain ⟨parts, hparts, hsubset⟩ := hrest.exists_of_mem hmem
        exact ⟨parts, hparts, fun field hfield => List.mem_append_right _ (hsubset hfield)⟩

/-- Each property makes a field, and the object has one of its name and type. -/
theorem HasFields.covers {name : String} {edge : Edge} (h : doc.Holds id name edge)
    {fields : List Field} (hfields : HasFields doc law id fields) :
    ∃ schema made, law schema (name, edge) made ∧
      ∃ field ∈ fields, field.name = made.name ∧ field.type = made.type := by
  obtain ⟨part, hwalk, hmem⟩ := h
  induction hwalk using ReflTransGen.head_induction_on generalizing fields with
  | refl =>
      cases hfields with
      | plain _ hown =>
          obtain ⟨field, hfield, hlaw⟩ := exists_of_property hown hmem
          exact ⟨_, field, hlaw, field, hfield, rfl, rfl⟩
      | merged _ _ hown hmerges =>
          obtain ⟨made, hmade, hlaw⟩ := exists_of_property hown hmem
          obtain ⟨joined, hjoined, hname⟩ := hmerges.exists_field (List.mem_append_right _ hmade)
          have htype := (hmerges.joins joined hjoined).type made (List.mem_append_right _ hmade)
            hname.symm
          exact ⟨_, made, hlaw, _, requireField_mem hjoined, hname, htype.symm⟩
  | head hstep _ ih =>
      obtain ⟨member, hmember, rfl⟩ := hstep
      cases hfields with
      | plain hnone _ => simp [Schema.allOf_of_none hnone] at hmember
      | merged _ hinherited _ hmerges =>
          obtain ⟨parts, hparts, hsubset⟩ := hinherited.exists_of_mem hmember
          obtain ⟨schema, made, hlaw, part, hpart, hpartName, hpartType⟩ := ih hparts
          have hmem' := hsubset hpart
          obtain ⟨joined, hjoined, hname⟩ := hmerges.exists_field (List.mem_append_left _ hmem')
          have htype := (hmerges.joins joined hjoined).type part (List.mem_append_left _ hmem')
            hname.symm
          exact ⟨schema, made, hlaw, _, requireField_mem hjoined, hname.trans hpartName,
            htype.symm.trans hpartType⟩

mutual

/-- What is said of the fields of all properties holds of the fields of the object. -/
theorem HasFields.forall_type {P : String → Ty → Prop} {root : SchemaId}
    (hprop : ∀ part, ReflTransGen doc.Includes root part →
      ∀ property ∈ (doc.schema part).properties, ∀ field,
        law (doc.schema part) property field → P field.name field.type)
    {id : SchemaId} {fields : List Field} (hwalk : ReflTransGen doc.Includes root id) :
    HasFields doc law id fields → ∀ field ∈ fields, P field.name field.type
  | .plain _ hfields => fun _ hmem => by
      obtain ⟨property, hproperty, hlaw⟩ := exists_property hfields hmem
      exact hprop id hwalk property hproperty _ hlaw
  | .merged _ hinherited hown hmerges => by
      refine requireOwn_forall fun joined hjoined => ?_
      obtain ⟨part, hpart, hname, htype⟩ := hmerges.exists_part hjoined
      rw [← hname, ← htype]
      rcases List.mem_append.mp hpart with hpart | hpart
      · exact hinherited.forall_type hprop (fun edge hedge => hwalk.tail ⟨edge, hedge, rfl⟩)
          part hpart
      · obtain ⟨property, hproperty, hlaw⟩ := exists_property hown hpart
        exact hprop id hwalk property hproperty part hlaw

theorem Contribute.forall_type {P : String → Ty → Prop} {root : SchemaId}
    (hprop : ∀ part, ReflTransGen doc.Includes root part →
      ∀ property ∈ (doc.schema part).properties, ∀ field,
        law (doc.schema part) property field → P field.name field.type)
    {members : List Edge} {fields : List Field}
    (hwalk : ∀ edge ∈ members, ReflTransGen doc.Includes root edge.id) :
    Contribute doc law members fields → ∀ field ∈ fields, P field.name field.type
  | .nil => by simp
  | .cons hfirst hrest => by
      rw [List.forall_mem_cons] at hwalk
      rw [List.forall_mem_append]
      exact ⟨hfirst.forall_type hprop hwalk.1, hrest.forall_type hprop hwalk.2⟩

end

mutual

/-- Members that are merged come to an end. -/
theorem HasFields.acc {id : SchemaId} {fields : List Field} :
    HasFields doc law id fields → Acc (fun member owner => doc.Includes owner member) id
  | .plain hnone _ => .intro id fun _ hincludes => by
      obtain ⟨edge, hmem, -⟩ := hincludes
      simp [Schema.allOf_of_none hnone] at hmem
  | .merged _ hinherited _ _ => .intro id fun _ hincludes => by
      obtain ⟨edge, hmem, rfl⟩ := hincludes
      exact hinherited.acc edge hmem

theorem Contribute.acc {members : List Edge} {fields : List Field} :
    Contribute doc law members fields →
      ∀ edge ∈ members, Acc (fun member owner => doc.Includes owner member) edge.id
  | .nil => by simp
  | .cons hfirst hrest => by
      rw [List.forall_mem_cons]
      exact ⟨hfirst.acc, hrest.acc⟩

end

/-- A schema whose members come to an end is no member of itself. -/
theorem not_transGen_includes (h : Acc (fun member owner => doc.Includes owner member) id) :
    ¬ TransGen doc.Includes id id := by
  induction h with
  | intro id _ ih =>
      intro hcycle
      obtain ⟨member, hstep, hback⟩ := TransGen.head'_iff.mp hcycle
      exact ih member hstep (TransGen.tail' hback hstep)

/-! ## More models, and other contexts -/

theorem IsField.mono (hle : models.Le models') {schema : Schema} {property : String × Edge}
    {field : Field} (h : IsField doc registry models context schema property field) :
    IsField doc registry models' context schema property field :=
  ⟨h.type.mono hle, h.rest⟩

theorem Depicts.mono (hle : models.Le models') {shape : Shape}
    (h : Depicts doc registry models context id shape) :
    Depicts doc registry models' context id shape := by
  cases h with
  | union hne hfound => exact .union hne (hfound.mono hle)
  | object hnil hfields => exact .object hnil (hfields.imp fun _ _ _ => IsField.mono hle)

theorem HasVariants.mono (hle : models.Le models') {variants : List ModelId}
    (h : HasVariants doc registry models id variants) :
    HasVariants doc registry models' id variants := by
  obtain ⟨types, htypes, hvariants⟩ := h
  refine ⟨types, htypes.imp fun target type => ?_, hvariants⟩
  rintro ⟨variant, hresolve, htype⟩
  exact ⟨variant, hresolve, htype.mono hle⟩

theorem HasFieldType.of_alike {name : String} {edge : Edge} {type : Ty}
    (halike : context.Alike context' name)
    (h : HasFieldType doc registry models context name edge type) :
    HasFieldType doc registry models context' name edge type := by
  cases h with
  | narrowed hnarrow => exact .narrowed ((halike _).mp hnarrow)
  | plain hnarrow htype => exact .plain ((halike _).mp hnarrow) htype

/-- Only how a context narrows the properties matters. -/
theorem Depicts.of_alike (hmodel : doc.IsModel id)
    (halike : ∀ name edge, doc.IsObject id → doc.Holds id name edge → context.Alike context' name)
    {shape : Shape} (h : Depicts doc registry models context id shape) :
    Depicts doc registry models context' id shape := by
  cases h with
  | union hne hfound => exact .union hne hfound
  | object hnil hfields =>
      refine .object hnil (hfields.imp_of_walk (fun part hwalk property hmem field hfield => ?_)
        .refl)
      exact ⟨hfield.type.of_alike (halike _ _ ⟨hmodel, hnil⟩ ⟨part, hwalk, hmem⟩), hfield.rest⟩

/-! ## Uniqueness -/

theorem HasFieldType.unique {name : String} {edge : Edge} {type type' : Ty}
    (h : HasFieldType doc registry models context name edge type)
    (h' : HasFieldType doc registry models context name edge type') : type = type' := by
  cases h with
  | narrowed hnarrow =>
      cases h' with
      | narrowed hnarrow' =>
          cases hnarrow.symm.trans hnarrow'
          rfl
      | plain hnarrow' => cases hnarrow.symm.trans hnarrow'
  | plain hnarrow htype =>
      cases h' with
      | narrowed hnarrow' => cases hnarrow.symm.trans hnarrow'
      | plain _ htype' => exact htype.unique htype'

theorem IsField.unique : PropertyLaw.Unique (IsField doc registry models context) := by
  intro schema property field field' h h'
  rw [h.rest, h'.rest, h.type.unique h'.type]

theorem Depicts.unique {shape shape' : Shape} (h : Depicts doc registry models context id shape)
    (h' : Depicts doc registry models context id shape') : shape = shape' := by
  cases h with
  | union hne hfound =>
      cases h' with
      | union _ hfound' => rw [hfound.unique hfound']
      | object hnil => exact absurd hnil hne
  | object hnil hfields =>
      cases h' with
      | union hne => exact absurd hnil hne
      | object _ hfields' => rw [hfields.unique IsField.unique hfields']

theorem HasVariants.unique {variants variants' : List ModelId}
    (h : HasVariants doc registry models id variants)
    (h' : HasVariants doc registry models id variants') : variants = variants' := by
  obtain ⟨types, htypes, rfl⟩ := h
  obtain ⟨types', htypes', rfl⟩ := h'
  suffices hsame : types = types' by rw [hsame]
  generalize (doc.schema id).mapping.map (·.2) = targets at htypes htypes'
  induction htypes generalizing types' with
  | nil =>
      cases htypes'
      rfl
  | cons htype _ ih =>
      cases htypes' with
      | cons htype' hrest' =>
          obtain ⟨variant, hresolve, htype⟩ := htype
          obtain ⟨variant', hresolve', htype'⟩ := htype'
          cases hresolve.symm.trans hresolve'
          rw [htype.unique htype', ih _ hrest']

end OpenApi
