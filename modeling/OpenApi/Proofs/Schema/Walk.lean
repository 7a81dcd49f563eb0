-- SUMMARY: How the schemas of a document lead to each other, and the contexts they are reached in.
import OpenApi.Compilation.Types
import Mathlib.Logic.Relation

/-!
# Walks between schemas

A schema leads to others in two ways. It leads *below* itself to its properties and
its items, which are values of their own inside its values. It leads *beside* itself
to the members of its combination and to the variants that its discriminator maps
to, which describe the very same value. A cycle of schemas is harmless where it goes
below at least once.
-/

namespace OpenApi

open Relation (ReflTransGen TransGen)

namespace Schema

/-- The members of a union. A schema with `allOf` is none, whatever else it has. -/
def alternatives (schema : Schema) : List Edge :=
  match schema.combination with
  | .anyOf members | .oneOf members => members
  | .allOf _ | .none => []

/-- The mapping of the discriminator, empty if there is none. -/
def mapping (schema : Schema) : Keyed String :=
  (schema.discriminator.bind (·.mapping)).getD []

theorem allOf_ne_nil_of_combination {schema : Schema} {members : List Edge}
    (h : schema.combination = .allOf members) : schema.allOf ≠ [] := by
  intro hnil
  -- Without `allOf` the combination is one of the three others.
  simp only [combination, hnil, List.isEmpty_nil, Bool.not_true, Bool.false_eq_true, if_false] at h
  split at h
  · cases h
  · split at h <;> cases h

theorem exists_combination_of_allOf {schema : Schema} (h : schema.allOf ≠ []) :
    ∃ members, schema.combination = .allOf members := by
  have hkeep : schema.allOf.isEmpty = false := by simpa using h
  exact ⟨schema.allOf, by simp [combination, hkeep]⟩

theorem alternatives_of_anyOf {schema : Schema} {members : List Edge}
    (h : schema.combination = .anyOf members) : schema.alternatives = members := by
  simp [alternatives, h]

theorem alternatives_of_oneOf {schema : Schema} {members : List Edge}
    (h : schema.combination = .oneOf members) : schema.alternatives = members := by
  simp [alternatives, h]

/-- A union has members. -/
theorem alternatives_ne_nil {schema : Schema} (hnone : schema.combination ≠ .none)
    (hall : ∀ members, schema.combination ≠ .allOf members) : schema.alternatives ≠ [] := by
  unfold alternatives combination at *
  grind

end Schema

namespace Document

variable (doc : Document)

/-- What stands at an index is a schema of the document, or says nothing. -/
theorem schema_cases (id : SchemaId) :
    doc.schema id ∈ doc.schemas ∨ doc.schema id = { dialect := doc.dialect } := by
  simp only [schema, Array.getD_eq_getD_getElem?]
  cases hslot : doc.schemas[id]? with
  | none => exact .inr rfl
  | some found => exact .inl (Array.mem_of_getElem? hslot)

/-- What stands beyond the last index says nothing. -/
theorem lt_size_of_ne {id : SchemaId} (h : doc.schema id ≠ { dialect := doc.dialect }) :
    id < doc.schemas.size := by
  apply Nat.lt_of_not_le
  intro hge
  exact h (by simp [schema, Array.getD, Nat.not_lt.mpr hge])

theorem schema_replace_self (doc : Document) {id : SchemaId} (h : id < doc.schemas.size)
    (added : Schema) : (doc.replace id added).schema id = added := by
  simp [schema, replace, h]

theorem schema_replace_of_ne (doc : Document) {id other : SchemaId} (h : other ≠ id)
    (added : Schema) : (doc.replace id added).schema other = doc.schema other := by
  simp [schema, replace, Array.getElem?_setIfInBounds_ne (Ne.symm h)]

/-! ## Steps -/

/-- A schema that is neither a scalar nor an array nor an anchor, and so gets a model. -/
structure IsModel (id : SchemaId) : Prop where
  type : (doc.schema id).type = none ∨ (doc.schema id).type = some .object
  anchor : (doc.schema id).isAnchor = false

/-- A schema has another as a member of its `allOf`. -/
def Includes (owner member : SchemaId) : Prop :=
  ∃ edge ∈ (doc.schema owner).allOf, edge.id = member

/-- A union has another schema as a member. -/
def Offers (union member : SchemaId) : Prop :=
  doc.IsModel union ∧ ∃ edge ∈ (doc.schema union).alternatives, edge.id = member

/-- A step to a schema whose values stand inside the values of the first. -/
inductive Below : SchemaId → SchemaId → Prop where
  | field {owner : SchemaId} {name : String} {edge : Edge} :
      (name, edge) ∈ (doc.schema owner).properties → Below owner edge.id
  | item {owner : SchemaId} {edge : Edge} :
      (doc.schema owner).items = some edge → Below owner edge.id

/-- A step to a schema that describes the same value as the first. -/
inductive Beside : SchemaId → SchemaId → Prop where
  | member {owner : SchemaId} {edge : Edge} :
      edge ∈ (doc.schema owner).allOf → Beside owner edge.id
  | alternative {union : SchemaId} {edge : Edge} :
      edge ∈ (doc.schema union).alternatives → Beside union edge.id
  | variant {anchor variant : SchemaId} {tag target : String} :
      (tag, target) ∈ (doc.schema anchor).mapping → doc.resolve target = some variant →
        Beside anchor variant

/-- A step of either kind. -/
def Leads (first second : SchemaId) : Prop :=
  doc.Below first second ∨ doc.Beside first second

/-! ## Walks -/

/-- A walk of any steps, possibly none. -/
abbrev Reaches : SchemaId → SchemaId → Prop := ReflTransGen doc.Leads

/-- A walk with at least one step below. -/
def Descends (first last : SchemaId) : Prop :=
  ∃ owner child, doc.Reaches first owner ∧ doc.Below owner child ∧ doc.Reaches child last

variable {doc}

theorem IsModel.not_array {id : SchemaId} (h : doc.IsModel id) :
    (doc.schema id).type ≠ some .array := by
  rcases h.type with htype | htype <;> simp [htype]

theorem Reaches.below {first owner child : SchemaId} (h : doc.Reaches first owner)
    (hstep : doc.Below owner child) : doc.Descends first child :=
  ⟨owner, child, h, hstep, .refl⟩

theorem Reaches.beside {first second third : SchemaId} (h : doc.Reaches first second)
    (hstep : doc.Beside second third) : doc.Reaches first third :=
  h.tail (.inr hstep)

theorem Descends.reaches {first last : SchemaId} (h : doc.Descends first last) :
    doc.Reaches first last := by
  obtain ⟨owner, child, hfirst, hstep, hlast⟩ := h
  exact (hfirst.tail (.inl hstep)).trans hlast

theorem Descends.beside {first second third : SchemaId} (h : doc.Descends first second)
    (hstep : doc.Beside second third) : doc.Descends first third := by
  obtain ⟨owner, child, hfirst, hbelow, hlast⟩ := h
  exact ⟨owner, child, hfirst, hbelow, hlast.beside hstep⟩

theorem Includes.beside {owner member : SchemaId} (h : doc.Includes owner member) :
    doc.Beside owner member := by
  obtain ⟨edge, hmem, rfl⟩ := h
  exact .member hmem

theorem reaches_of_includes {owner member : SchemaId}
    (h : ReflTransGen doc.Includes owner member) : doc.Reaches owner member :=
  ReflTransGen.mono (fun _ _ hstep => Or.inr (Includes.beside hstep)) _ _ h

/-- What includes a schema with members has members itself. -/
theorem allOf_ne_nil_of_includes {owner member : SchemaId}
    (h : ReflTransGen doc.Includes owner member) (hne : (doc.schema member).allOf ≠ []) :
    (doc.schema owner).allOf ≠ [] := by
  rcases ReflTransGen.cases_head h with rfl | ⟨_, ⟨edge, hmem, -⟩, -⟩
  · exact hne
  · exact List.ne_nil_of_mem hmem

/-- Steps that only lead to greater indices never come back. -/
theorem not_transGen_of_lt {step : SchemaId → SchemaId → Prop}
    (hstep : ∀ {first second}, step first second → first < second) (id : SchemaId) :
    ¬ TransGen step id id := by
  intro hloop
  have hlt : TransGen (· < ·) id id := TransGen.mono (fun _ _ => hstep) _ _ hloop
  rw [Relation.transGen_eq_self] at hlt
  exact Nat.lt_irrefl id hlt

/-! ## Contexts -/

variable (doc)

/-- A schema can be reached in a context: fields and items start anew, and the members of unions
and the variants of anchors are reached through them. -/
inductive Reached : Context → SchemaId → Prop where
  | start (id : SchemaId) : Reached {} id
  | alternative {context : Context} {union : SchemaId} {edge : Edge} :
      Reached context union → edge ∈ (doc.schema union).alternatives →
        Reached (context.follow (doc.schema union).discriminator (memberStep doc edge)) edge.id
  | variant {context : Context} {anchor variant : SchemaId} {tag target : String} :
      Reached context anchor → (tag, target) ∈ (doc.schema anchor).mapping →
        doc.resolve target = some variant →
        Reached (context.follow (doc.schema anchor).discriminator target) variant

/-- Contexts of schemas in which all is asked for that is reached from them. The fields of the
members of an `allOf` are asked for in the context of their owner. -/
structure Spreads (reach : Context → SchemaId → Prop) : Prop where
  below : ∀ {context : Context} {owner part child : SchemaId}, reach context owner →
    ReflTransGen doc.Includes owner part → doc.Below part child → reach {} child
  alternative : ∀ {context : Context} {union : SchemaId} {edge : Edge}, reach context union →
    edge ∈ (doc.schema union).alternatives →
    reach (context.follow (doc.schema union).discriminator (memberStep doc edge)) edge.id
  variant : ∀ {context : Context} {anchor variant : SchemaId} {tag target : String},
    reach context anchor → (tag, target) ∈ (doc.schema anchor).mapping →
    doc.resolve target = some variant →
    reach (context.follow (doc.schema anchor).discriminator target) variant

theorem reached_spreads : doc.Spreads doc.Reached :=
  ⟨fun _ _ _ => .start _, .alternative, .variant⟩

/-- Fields of a schema are asked for in a context: it or what it is a member of is reached there. -/
def Lends (reach : Context → SchemaId → Prop) (context : Context) (part : SchemaId) : Prop :=
  ∃ owner, reach context owner ∧ ReflTransGen doc.Includes owner part

variable {doc} {reach : Context → SchemaId → Prop} {context : Context}

theorem Spreads.child (h : doc.Spreads reach) {part child : SchemaId}
    (hlends : doc.Lends reach context part) (hbelow : doc.Below part child) : reach {} child := by
  obtain ⟨owner, howner, hwalk⟩ := hlends
  exact h.below howner hwalk hbelow

theorem Lends.self {id : SchemaId} (h : reach context id) : doc.Lends reach context id :=
  ⟨id, h, .refl⟩

theorem Lends.member {owner : SchemaId} {edge : Edge} (h : doc.Lends reach context owner)
    (hmem : edge ∈ (doc.schema owner).allOf) : doc.Lends reach context edge.id := by
  obtain ⟨root, hroot, hwalk⟩ := h
  exact ⟨root, hroot, hwalk.tail ⟨edge, hmem, rfl⟩⟩

end Document
end OpenApi
