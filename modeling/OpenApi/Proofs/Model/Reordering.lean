-- SUMMARY: A document with its named schemas in another order asks for the same schemas.
import OpenApi.Proofs.Model.Soundness
import OpenApi.Proofs.Schema.DistinctNames
import Mathlib.Logic.Equiv.Basic

/-!
# Reordering

A document in another order has its schemas renamed, and the same names in another order.
Schemas lead to each other as before, and since neither pass depends on the order in which it
starts, the same is asked for in the same contexts. So a document is steady, sound and free
of loops in every order or in none.
-/

namespace OpenApi

open Relation (ReflTransGen TransGen)

theorem Edge.rename_symm (σ : Equiv.Perm SchemaId) (edge : Edge) :
    (edge.rename σ.symm).rename σ = edge := by
  rw [Edge.rename_rename, Equiv.self_comp_symm]
  rfl

namespace Document

/-- A document is another in which the named schemas come in another order, and with them the
indices of all schemas. -/
structure Reorders (σ : Equiv.Perm SchemaId) (doc doc' : Document) : Prop where
  schema : ∀ id, doc'.schema (σ id) = (doc.schema id).rename σ
  named : (doc.named.map fun entry => (entry.1, σ entry.2)).Perm doc'.named

namespace Reorders

variable {σ : Equiv.Perm SchemaId} {doc doc' : Document}

theorem mem_named_iff (h : doc.Reorders σ doc') {name : String} {id : SchemaId} :
    (name, σ id) ∈ doc'.named ↔ (name, id) ∈ doc.named := by
  rw [← h.named.mem_iff, List.mem_map]
  constructor
  · rintro ⟨⟨other, id'⟩, hmem, heq⟩
    obtain ⟨rfl, hid⟩ := Prod.mk.injEq .. ▸ heq
    exact σ.injective hid ▸ hmem
  · exact fun hmem => ⟨_, hmem, rfl⟩

theorem keys_perm (h : doc.Reorders σ doc') : doc.named.keys.Perm doc'.named.keys := by
  have hkeys := h.named.map Prod.fst
  rwa [List.map_map] at hkeys

theorem symm (h : doc.Reorders σ doc') : doc'.Reorders σ.symm doc where
  schema := by
    intro id
    have hschema := h.schema (σ.symm id)
    rw [Equiv.apply_symm_apply] at hschema
    rw [hschema, Schema.rename_rename]
    have hself : (⇑σ.symm ∘ ⇑σ) = fun id => id := funext σ.symm_apply_apply
    rw [hself, Schema.rename_self]
  named := by
    have hnamed := h.named.symm.map fun entry => (entry.1, σ.symm entry.2)
    simpa [List.map_map, Function.comp_def] using hnamed

theorem lookup (h : doc.Reorders σ doc') (hnames : doc.named.keys.Nodup) (name : String) :
    doc'.lookup name = (doc.lookup name).map σ := by
  have hnames' := h.keys_perm.nodup_iff.mp hnames
  cases hlookup : doc.lookup name with
  | some id =>
      exact lookup_of_mem hnames' (h.mem_named_iff.mpr (Keyed.mem_of_get? hlookup))
  | none =>
      cases hlookup' : doc'.lookup name with
      | none => rfl
      | some id' =>
          have hmem : name ∈ doc.named.keys :=
            h.keys_perm.mem_iff.mpr (Keyed.mem_keys_of_get? hlookup')
          obtain ⟨id, hid⟩ := Keyed.exists_get?_of_mem_keys hmem
          cases hlookup.symm.trans hid

theorem renames (h : doc.Reorders σ doc') (hnames : doc.named.keys.Nodup) :
    doc.Renames σ doc' :=
  ⟨h.schema, fun _ => h.lookup hnames _, σ.injective⟩

end Reorders

/-! ## Walks -/

namespace Renames

variable {f : SchemaId → SchemaId} {doc doc' : Document} (h : doc.Renames f doc')
include h

theorem discriminator (id : SchemaId) :
    (doc'.schema (f id)).discriminator = (doc.schema id).discriminator := by
  rw [h.schema]
  rfl

theorem mapping (id : SchemaId) : (doc'.schema (f id)).mapping = (doc.schema id).mapping := by
  rw [h.schema, Schema.mapping_rename]

theorem allOf (id : SchemaId) :
    (doc'.schema (f id)).allOf = (doc.schema id).allOf.map (·.rename f) := by
  rw [h.schema]
  rfl

theorem mem_allOf {id : SchemaId} {edge : Edge} (hmem : edge ∈ (doc.schema id).allOf) :
    edge.rename f ∈ (doc'.schema (f id)).allOf := by
  rw [h.allOf]
  exact List.mem_map_of_mem hmem

theorem mem_alternatives {id : SchemaId} {edge : Edge}
    (hmem : edge ∈ (doc.schema id).alternatives) :
    edge.rename f ∈ (doc'.schema (f id)).alternatives := by
  rw [h.alternatives]
  exact List.mem_map_of_mem hmem

theorem mem_properties {id : SchemaId} {name : String} {edge : Edge}
    (hmem : (name, edge) ∈ (doc.schema id).properties) :
    (name, edge.rename f) ∈ (doc'.schema (f id)).properties := by
  rw [h.schema]
  exact List.mem_map.mpr ⟨_, hmem, rfl⟩

theorem items {id : SchemaId} {edge : Edge} (hitems : (doc.schema id).items = some edge) :
    (doc'.schema (f id)).items = some (edge.rename f) := by
  simp [h.schema, Schema.rename, hitems]

theorem mem_mapping {id : SchemaId} {tag target : String}
    (hmem : (tag, target) ∈ (doc.schema id).mapping) :
    (tag, target) ∈ (doc'.schema (f id)).mapping := by
  rwa [h.mapping]

theorem resolve_some {target : String} {id : SchemaId} (hresolve : doc.resolve target = some id) :
    doc'.resolve target = some (f id) := by
  rw [h.resolve, hresolve]
  rfl

theorem isModel {id : SchemaId} (hmodel : doc.IsModel id) : doc'.IsModel (f id) :=
  (h.isModel_iff id).mpr hmodel

theorem isObject {id : SchemaId} (hobject : doc.IsObject id) : doc'.IsObject (f id) :=
  ⟨h.isModel hobject.model, by simp [h.alternatives, hobject.alternatives]⟩

theorem includes {owner member : SchemaId} (hincludes : doc.Includes owner member) :
    doc'.Includes (f owner) (f member) := by
  obtain ⟨edge, hmem, rfl⟩ := hincludes
  exact ⟨_, h.mem_allOf hmem, rfl⟩

theorem includes_walk {owner part : SchemaId} (hwalk : ReflTransGen doc.Includes owner part) :
    ReflTransGen doc'.Includes (f owner) (f part) :=
  hwalk.lift f fun _ _ => h.includes

theorem holds {owner : SchemaId} {name : String} {edge : Edge}
    (hholds : doc.Holds owner name edge) :
    doc'.Holds (f owner) name (edge.rename f) := by
  obtain ⟨part, hwalk, hmem⟩ := hholds
  exact ⟨f part, h.includes_walk hwalk, h.mem_properties hmem⟩

theorem passes {first second : SchemaId} (hpasses : doc.Passes first second) :
    doc'.Passes (f first) (f second) := by
  cases hpasses with
  | alternative hmodel hmem => exact .alternative (h.isModel hmodel) (h.mem_alternatives hmem)
  | variant hanchor hentry hresolve =>
      exact .variant ((h.isAnchor _).trans hanchor) (h.mem_mapping hentry) (h.resolve_some hresolve)

theorem below {first second : SchemaId} (hbelow : doc.Below first second) :
    doc'.Below (f first) (f second) := by
  cases hbelow with
  | field hmem => exact .field (h.mem_properties hmem)
  | item hitems => exact .item (h.items hitems)

theorem leads {first second : SchemaId} (hleads : doc.Leads first second) :
    doc'.Leads (f first) (f second) := by
  rcases hleads with hbelow | hbeside
  · exact .inl (h.below hbelow)
  · cases hbeside with
    | member hmem => exact .inr (.member (h.mem_allOf hmem))
    | alternative hmem => exact .inr (.alternative (h.mem_alternatives hmem))
    | variant hentry hresolve =>
        exact .inr (.variant (h.mem_mapping hentry) (h.resolve_some hresolve))

theorem descends {first last : SchemaId} (hdown : doc.Descends first last) :
    doc'.Descends (f first) (f last) := by
  obtain ⟨owner, child, hfirst, hbelow, hlast⟩ := hdown
  exact ⟨f owner, f child, hfirst.lift f fun _ _ => h.leads, h.below hbelow,
    hlast.lift f fun _ _ => h.leads⟩

theorem mergeable {id : SchemaId} (hmergeable : doc.Mergeable id) : doc'.Mergeable (f id) := by
  rcases hmergeable with hne | ⟨hnone, htype⟩
  · exact .inl (by simpa [h.allOf] using hne)
  · refine .inr ⟨?_, h.type id ▸ htype⟩
    rw [h.schema]
    exact Schema.combination_rename_none.mpr hnone

/-! ## Requests -/

theorem needs {context context' : Context} {owner child : SchemaId}
    (hneeds : doc.Needs context owner context' child) :
    doc'.Needs context (f owner) context' (f child) := by
  cases hneeds with
  | item htype hitems => exact .item ((h.type _).trans htype) (h.items hitems)
  | field hobject hholds hnarrow => exact .field (h.isObject hobject) (h.holds hholds) hnarrow
  | alternative hmodel hmem =>
      rw [← h.memberStep, ← h.discriminator]
      exact .alternative (h.isModel hmodel) (h.mem_alternatives hmem)
  | variant hanchor hentry hresolve =>
      rw [← h.discriminator]
      exact .variant ((h.isAnchor _).trans hanchor) (h.mem_mapping hentry) (h.resolve_some hresolve)

/-- The same is asked for where the same is asked for first, and no more is known before. -/
theorem asks {start known start' known' : SchemaId → Prop}
    (hstart : ∀ id, start id → start' (f id)) (hknown : ∀ id, known' (f id) → known id)
    {context : Context} {id : SchemaId} (hasks : doc.Asks start known context id) :
    doc'.Asks start' known' context (f id) := by
  induction hasks with
  | start hid => exact .start (hstart _ hid)
  | step _ hnew hneeds ih =>
      refine .step ih (fun hmodel hid => ?_) (h.needs hneeds)
      exact hnew ((h.isModel_iff _).mp hmodel) (hknown _ hid)

end Renames

namespace Reorders

variable {σ : Equiv.Perm SchemaId} {doc doc' : Document}
variable (h : doc.Reorders σ doc') (hnames : doc.named.keys.Nodup)
include h hnames

theorem names : doc'.named.keys.Nodup := h.keys_perm.nodup_iff.mp hnames

theorem asksFirst {context : Context} {id : SchemaId} (hasks : doc.AsksFirst context id) :
    doc'.AsksFirst context (σ id) := by
  refine (h.renames hnames).asks ?_ (fun _ hid => hid) hasks
  rintro id ⟨name, hmem, hsome⟩
  exact ⟨name, h.mem_named_iff.mpr hmem, by rwa [(h.renames hnames).discriminator]⟩

theorem isFirst_iff (id : SchemaId) : doc'.IsFirst (σ id) ↔ doc.IsFirst id := by
  constructor <;> rintro ⟨context, hasks⟩
  · have hback := h.symm.asksFirst (h.names hnames) hasks
    rw [Equiv.symm_apply_apply] at hback
    exact ⟨context, hback⟩
  · exact ⟨context, h.asksFirst hnames hasks⟩

theorem asksLater {context : Context} {id : SchemaId} (hasks : doc.AsksLater context id) :
    doc'.AsksLater context (σ id) := by
  refine (h.renames hnames).asks ?_ (fun id => (h.isFirst_iff hnames id).mp) hasks
  rintro id ⟨name, hmem⟩
  exact ⟨name, h.mem_named_iff.mpr hmem⟩

theorem asked {id : SchemaId} (hasked : doc.Asked id) : doc'.Asked (σ id) := by
  obtain ⟨context, hasks⟩ := hasked
  exact ⟨context, hasks.imp (h.asksFirst hnames) (h.asksLater hnames)⟩

theorem builds {context : Context} {id : SchemaId} (hbuilds : doc.Builds context id) :
    doc'.Builds context (σ id) := by
  rcases hbuilds with hfirst | ⟨hlater, hnew⟩
  · exact .inl (h.asksFirst hnames hfirst)
  · exact .inr ⟨h.asksLater hnames hlater, fun hid => hnew ((h.isFirst_iff hnames _).mp hid)⟩

/-! ## Documents in any order -/

theorem noUnionLoop (hloops : doc.NoUnionLoop) : doc'.NoUnionLoop := by
  intro id hloop
  have hrenames := h.symm.renames (h.names hnames)
  exact hloops (σ.symm id) (hloop.lift σ.symm fun _ _ => hrenames.passes)

theorem mergesApart (hapart : doc.MergesApart) : doc'.MergesApart := by
  intro owner member hincludes hne hdown
  have hrenames := h.symm.renames (h.names hnames)
  refine hapart (σ.symm owner) (σ.symm member) (hrenames.includes hincludes) ?_
    (hrenames.descends hdown)
  simpa [hrenames.allOf] using hne

theorem steady (hsteady : doc.Steady) : doc'.Steady := by
  intro context context' id name edge hobject hbuilds hbuilds' hholds
  have hnames' := h.names hnames
  have hrenames := h.symm.renames hnames'
  exact hsteady context context' (σ.symm id) name (edge.rename σ.symm) (hrenames.isObject hobject)
    (h.symm.builds hnames' hbuilds) (h.symm.builds hnames' hbuilds') (hrenames.holds hholds)

theorem sound {registry : Registry} (hsound : doc.Sound registry) : doc'.Sound registry := by
  have hnames' := h.names hnames
  have hrenames := h.renames hnames
  have hback := h.symm.renames hnames'
  have hown : ModelTable.Renames σ σ some some := fun _ _ hm => congrArg (Option.map σ) hm
  have hown' : ModelTable.Renames σ.symm σ.symm some some :=
    fun _ _ hm => congrArg (Option.map σ.symm) hm
  refine ⟨?_, ?_, ?_, ?_, ?_⟩
  · intro id hasked
    obtain ⟨type, htype⟩ := hsound.types _ (h.symm.asked hnames' hasked)
    have hrenamed := htype.rename hrenames hown
    rw [Equiv.apply_symm_apply] at hrenamed
    exact ⟨_, hrenamed⟩
  · intro id tag target hasked hanchor hentry
    obtain ⟨variant, hresolve⟩ := hsound.targets _ tag target (h.symm.asked hnames' hasked)
      ((hback.isAnchor id).trans hanchor) (hback.mem_mapping hentry)
    exact ⟨_, hrenames.resolve_some hresolve⟩
  · intro id part hasked hobject hwalk
    obtain ⟨hnot, hmergeable⟩ := hsound.members _ _ (h.symm.asked hnames' hasked)
      (hback.isObject hobject) (hback.includes_walk hwalk)
    refine ⟨fun hcycle => hnot (hcycle.lift σ.symm fun _ _ => hback.includes), ?_⟩
    intro edge hmem
    have hrenamed := hrenames.mergeable (hmergeable _ (hback.mem_allOf hmem))
    rwa [Edge.rename, Equiv.apply_symm_apply] at hrenamed
  · intro context id name edge hbuilds hobject hholds
    obtain ⟨type, htype⟩ := hsound.fields context _ name _ (h.symm.builds hnames' hbuilds)
      (hback.isObject hobject) (hback.holds hholds)
    have hrenamed := htype.rename hrenames hown
    rw [Edge.rename_symm] at hrenamed
    exact ⟨_, hrenamed⟩
  · intro context id name edge edge' type type' hbuilds hobject hne hholds hholds' htype htype'
    refine Ty.rename_injective σ.symm.injective σ.symm.injective ?_
    exact hsound.agree context _ name _ _ _ _ (h.symm.builds hnames' hbuilds)
      (hback.isObject hobject) (by simpa [hback.allOf] using hne) (hback.holds hholds)
      (hback.holds hholds') (htype.rename hback hown') (htype'.rename hback hown')

end Reorders
end Document
end OpenApi
