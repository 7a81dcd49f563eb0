-- SUMMARY: The fields that a schema and its members make, one by one and merged.
import OpenApi.Proofs.Model.Meaning
import OpenApi.Proofs.Model.Merge

/-!
# Fields of members

The fields of a plain object are those of its properties. A schema with `allOf` merges
what its members contribute, in their order, with the fields of its own properties.
`HasFields` says this with any relation between properties and fields, so what is known
of the fields of single properties carries over to merged fields by induction.
-/

namespace OpenApi

/-- Which field a property of a schema makes. -/
abbrev PropertyLaw := Schema → String × Edge → Field → Prop

namespace Schema

theorem allOf_of_none {schema : Schema} (h : schema.combination = .none) : schema.allOf = [] := by
  by_contra hne
  have hkeep : schema.allOf.isEmpty = false := by simpa using hne
  simp [combination, hkeep] at h

end Schema

variable (doc : Document) (law : PropertyLaw)

mutual

/-- The fields of a schema that has no combination or `allOf`. -/
inductive HasFields : SchemaId → List Field → Prop where
  | plain {id : SchemaId} {fields : List Field} :
      (doc.schema id).combination = .none →
        List.Forall₂ (law (doc.schema id)) (doc.schema id).properties fields →
        HasFields id fields
  | merged {id : SchemaId} {inherited own merged : List Field} :
      (doc.schema id).allOf ≠ [] → Contribute (doc.schema id).allOf inherited →
        List.Forall₂ (law (doc.schema id)) (doc.schema id).properties own →
        Merges (inherited ++ own) merged → HasFields id (requireOwn (doc.schema id) merged)

/-- The fields of members, one after another. -/
inductive Contribute : List Edge → List Field → Prop where
  | nil : Contribute [] []
  | cons {edge : Edge} {rest : List Edge} {first more : List Field} :
      HasFields edge.id first → Contribute rest more → Contribute (edge :: rest) (first ++ more)

end

variable {doc law}

/-! ## One property -/

/-- Each entry of the second list stands beside one of the first. -/
theorem exists_of_mem_right {α β : Type} {R : α → β → Prop} {xs : List α} {ys : List β}
    (h : List.Forall₂ R xs ys) {y : β} (hmem : y ∈ ys) : ∃ x ∈ xs, R x y := by
  induction h with
  | nil => cases hmem
  | cons hfirst _ ih =>
      rcases List.mem_cons.mp hmem with rfl | hmem
      · exact ⟨_, List.mem_cons_self, hfirst⟩
      · obtain ⟨x, hx, hrest⟩ := ih hmem
        exact ⟨x, List.mem_cons_of_mem _ hx, hrest⟩

/-- Each entry of the first list stands beside one of the second. -/
theorem exists_of_mem_left {α β : Type} {R : α → β → Prop} {xs : List α} {ys : List β}
    (h : List.Forall₂ R xs ys) {x : α} (hmem : x ∈ xs) : ∃ y ∈ ys, R x y :=
  exists_of_mem_right h.flip hmem

/-- Each field is made by a property. -/
theorem exists_property {properties : Keyed Edge} {fields : List Field} {field : Field}
    {R : String × Edge → Field → Prop} (h : List.Forall₂ R properties fields)
    (hmem : field ∈ fields) : ∃ property ∈ properties, R property field :=
  exists_of_mem_right h hmem

/-- Each property makes a field. -/
theorem exists_of_property {properties : Keyed Edge} {fields : List Field}
    {property : String × Edge} {R : String × Edge → Field → Prop}
    (h : List.Forall₂ R properties fields) (hmem : property ∈ properties) :
    ∃ field ∈ fields, R property field :=
  exists_of_mem_left h hmem

/-! ## Another law -/

section

variable {law' : PropertyLaw}

mutual

theorem HasFields.imp
    (himp : ∀ schema property field, law schema property field → law' schema property field)
    {id : SchemaId} {fields : List Field} :
    HasFields doc law id fields → HasFields doc law' id fields
  | .plain hnone hfields => .plain hnone (hfields.imp fun _ _ => himp _ _ _)
  | .merged hne hinherited hown hmerges =>
      .merged hne (hinherited.imp himp) (hown.imp fun _ _ => himp _ _ _) hmerges

theorem Contribute.imp
    (himp : ∀ schema property field, law schema property field → law' schema property field)
    {members : List Edge} {fields : List Field} :
    Contribute doc law members fields → Contribute doc law' members fields
  | .nil => .nil
  | .cons hfirst hrest => .cons (hfirst.imp himp) (hrest.imp himp)

end
end

/-! ## Uniqueness -/

/-- A law that leaves no choice. -/
def PropertyLaw.Unique (law : PropertyLaw) : Prop :=
  ∀ schema property field field', law schema property field → law schema property field' →
    field = field'

theorem PropertyLaw.Unique.forall₂ (hunique : law.Unique) {schema : Schema}
    {properties : Keyed Edge} {fields fields' : List Field}
    (h : List.Forall₂ (law schema) properties fields)
    (h' : List.Forall₂ (law schema) properties fields') : fields = fields' := by
  induction h generalizing fields' with
  | nil =>
      cases h'
      rfl
  | cons hfield _ ih =>
      cases h' with
      | cons hfield' hrest' => rw [hunique _ _ _ _ hfield hfield', ih hrest']

mutual

theorem HasFields.unique (hunique : law.Unique) {id : SchemaId} {fields fields' : List Field} :
    HasFields doc law id fields → HasFields doc law id fields' → fields = fields'
  | .plain _ hfields, .plain _ hfields' => hunique.forall₂ hfields hfields'
  | .plain hnone _, .merged hne _ _ _ => absurd (Schema.allOf_of_none hnone) hne
  | .merged hne _ _ _, .plain hnone _ => absurd (Schema.allOf_of_none hnone) hne
  | .merged _ hinherited hown hmerges, .merged _ hinherited' hown' hmerges' => by
      cases hinherited.unique hunique hinherited'
      cases hunique.forall₂ hown hown'
      rw [hmerges.unique hmerges']

theorem Contribute.unique (hunique : law.Unique) {members : List Edge}
    {fields fields' : List Field} :
    Contribute doc law members fields → Contribute doc law members fields' → fields = fields'
  | .nil, .nil => rfl
  | .cons hfirst hrest, .cons hfirst' hrest' => by
      rw [hfirst.unique hunique hfirst', hrest.unique hunique hrest']

end

/-! ## Names -/

/-- No schema has two properties of one name: properties are a map. -/
def Document.DistinctProperties (doc : Document) : Prop :=
  ∀ schema ∈ doc.schemas, schema.properties.keys.Nodup

theorem Document.DistinctProperties.schema (h : doc.DistinctProperties) (id : SchemaId) :
    (doc.schema id).properties.keys.Nodup := by
  rcases doc.schema_cases id with hmem | hsilent
  · exact h _ hmem
  · rw [hsilent]
    exact List.nodup_nil

/-- A field has the name of its property. -/
def PropertyLaw.KeepsNames (law : PropertyLaw) : Prop :=
  ∀ schema property field, law schema property field → field.name = property.1

theorem PropertyLaw.KeepsNames.map_name (hnames : law.KeepsNames) {schema : Schema}
    {properties : Keyed Edge} {fields : List Field}
    (h : List.Forall₂ (law schema) properties fields) :
    fields.map (·.name) = properties.keys := by
  induction h with
  | nil => rfl
  | cons hfield _ ih =>
      rw [List.map_cons, hnames _ _ _ hfield, ih]
      rfl

theorem PropertyLaw.KeepsNames.exists_iff (hnames : law.KeepsNames) {schema : Schema}
    {properties : Keyed Edge} {fields : List Field}
    (h : List.Forall₂ (law schema) properties fields) {name : String} :
    name ∈ fields.map (·.name) ↔ ∃ edge, (name, edge) ∈ properties := by
  rw [hnames.map_name h]
  simp [Keyed.keys]

theorem map_name_requireOwn (schema : Schema) (fields : List Field) :
    (requireOwn schema fields).map (·.name) = fields.map (·.name) := by
  simp [requireOwn_eq_map, Function.comp_def]

/-- Where the properties of a schema have different names, so have the fields. -/
theorem HasFields.nodup_names (hnames : law.KeepsNames) (hdistinct : doc.DistinctProperties)
    {id : SchemaId} {fields : List Field} :
    HasFields doc law id fields → (fields.map (·.name)).Nodup
  | .plain _ hfields => by
      rw [hnames.map_name hfields]
      exact hdistinct.schema id
  | .merged _ _ _ hmerges => by
      rw [map_name_requireOwn]
      exact hmerges.nodup

theorem IsField.keepsNames {registry : Registry} {models : ModelTable} {context : Context} :
    PropertyLaw.KeepsNames (IsField doc registry models context) :=
  fun _ _ _ h => congrArg Field.name h.rest

/-! ## Fields of models -/

section Meaning

variable {registry : Registry} {models : ModelTable} {context : Context} {name : String}

theorem Contribute.append {first second : List Edge} {fields more : List Field}
    (h : Contribute doc law first fields) (h' : Contribute doc law second more) :
    Contribute doc law (first ++ second) (fields ++ more) := by
  match h with
  | .nil => exact h'
  | .cons hfirst hrest =>
      rw [List.cons_append, List.append_assoc]
      exact .cons hfirst (hrest.append h')

/-- What members pass on is what they contribute, absorbed. -/
theorem Inherits.contribute {members : List Edge} {start last : List Field}
    (h : Inherits doc registry models context name members start last) :
    ∃ fields, Contribute doc (IsField doc registry models context) members fields ∧
      ∀ parts, Merges parts start → Merges (parts ++ fields) last := by
  induction h with
  | nil => exact ⟨[], .nil, fun parts h => by simpa using h⟩
  | object hnone hpart habsorb _ ih =>
      obtain ⟨more, hmore, hrest⟩ := ih
      refine ⟨_, .cons (.plain hnone hpart) hmore, fun parts h => ?_⟩
      rw [← List.append_assoc]
      exact hrest _ (h.absorb habsorb)
  | merged hne _ hown hpart habsorb _ ihmembers ihrest =>
      obtain ⟨inherited, hinherited, hmembers⟩ := ihmembers
      obtain ⟨more, hmore, hrest⟩ := ihrest
      have hmerges := (hmembers [] .nil).absorb hpart
      refine ⟨_, .cons (.merged hne hinherited hown hmerges) hmore, fun parts h => ?_⟩
      rw [← List.append_assoc]
      exact hrest _ (h.absorb habsorb)

/-- A schema that is no union is an object. -/
theorem HasShape.exists_object {id : SchemaId} {shape : Shape}
    (h : HasShape doc registry models context name id shape)
    (hobject : (doc.schema id).alternatives = []) : ∃ fields, shape = .object fields := by
  cases hcomb : (doc.schema id).combination <;> simp only [HasShape, hcomb] at h
  case allOf | none =>
    obtain ⟨fields, -, rfl⟩ := h
    exact ⟨fields, rfl⟩
  case anyOf | oneOf =>
    exact absurd hobject (Schema.alternatives_ne_nil (by simp [hcomb]) (by simp [hcomb]))

/-- An object holds the fields of its schema and the members of that. -/
theorem HasShape.hasFields {id : SchemaId} {fields : List Field}
    (h : HasShape doc registry models context name id (.object fields)) :
    HasFields doc (IsField doc registry models context) id fields := by
  cases hcomb : (doc.schema id).combination <;> simp only [HasShape, hcomb] at h
  case allOf =>
    obtain ⟨merged, ⟨inherited, own, part, hinherited, hown, hpart, rfl⟩, heq⟩ := h
    cases heq
    obtain ⟨contributed, hcontributed, hmembers⟩ := hinherited.contribute
    exact .merged (Schema.allOf_ne_nil_of_combination hcomb) hcontributed hown
      ((hmembers [] .nil).absorb hpart)
  case anyOf | oneOf =>
    obtain ⟨found, -, heq⟩ := h
    cases heq
  case none =>
    obtain ⟨own, hown, heq⟩ := h
    cases heq
    exact .plain hcomb hown

end Meaning
end OpenApi
