-- SUMMARY: The types and the values that a decoding comes to, and how many there are.
import OpenApi.Decoding
import OpenApi.Proofs.Model.Alternatives
import Mathlib.Data.List.ProdSigma

/-!
# Parts of types and values

A decoding comes to the parts of its type and of its value, to the types in the
models, and to the defaults of their fields. `ModelSet.depth` is larger than the
number of pairs of such a type and such a value.
-/

namespace OpenApi

/-! ## Parts -/

/-- The types inside a type, itself included. -/
def Ty.parts : Ty → List Ty
  | .array item => .array item :: item.parts
  | type => [type]

theorem Ty.length_parts (type : Ty) : type.parts.length = type.size := by
  induction type with
  | array item ih =>
      simp only [parts, size, List.length_cons, ih]
      omega
  | _ => rfl

theorem Ty.mem_parts_self (type : Ty) : type ∈ type.parts := by
  cases type <;> simp [parts]

theorem Ty.item_mem_parts {item type : Ty} (h : .array item ∈ type.parts) : item ∈ type.parts := by
  induction type with
  | array inner ih =>
      simp only [parts, List.mem_cons] at h ⊢
      rcases h with heq | h
      · cases heq
        exact .inr item.mem_parts_self
      · exact .inr (ih h)
  | _ => simp [parts] at h

namespace Json

mutual

/-- The values inside a value, itself included. -/
def parts : Json → List Json
  | .arr items => .arr items :: partsItems items
  | .obj members => .obj members :: partsMembers members
  | value => [value]

/-- The values in a list of items. -/
def partsItems : List Json → List Json
  | [] => []
  | value :: rest => value.parts ++ partsItems rest

/-- The values in a list of members. -/
def partsMembers : List (String × Json) → List Json
  | [] => []
  | (_, value) :: rest => value.parts ++ partsMembers rest

end

mutual

theorem length_parts : ∀ value : Json, value.parts.length = value.size
  | .arr items => by
      simp only [parts, size, List.length_cons, length_partsItems items]
      omega
  | .obj members => by
      simp only [parts, size, List.length_cons, length_partsMembers members]
      omega
  | .null | .bool _ | .num _ | .str _ => rfl

theorem length_partsItems : ∀ items : List Json, (partsItems items).length = sizeItems items
  | [] => rfl
  | value :: rest => by
      simp only [partsItems, sizeItems, List.length_append, length_parts value,
        length_partsItems rest]

theorem length_partsMembers :
    ∀ members : List (String × Json), (partsMembers members).length = sizeMembers members
  | [] => rfl
  | (_, value) :: rest => by
      simp only [partsMembers, sizeMembers, List.length_append, length_parts value,
        length_partsMembers rest]

end

/-- A value is an item or a member of another. -/
inductive Child : Json → Json → Prop where
  | item {value : Json} {items : List Json} : value ∈ items → Child value (.arr items)
  | member {key : String} {value : Json} {members : List (String × Json)} :
      (key, value) ∈ members → Child value (.obj members)

theorem mem_parts_self (value : Json) : value ∈ value.parts := by
  cases value <;> simp [parts]

theorem mem_partsItems {value : Json} {items : List Json} :
    value ∈ partsItems items ↔ ∃ item ∈ items, value ∈ item.parts := by
  induction items with
  | nil => simp [partsItems]
  | cons item rest ih => simp [partsItems, ih]

theorem mem_partsMembers {value : Json} {members : List (String × Json)} :
    value ∈ partsMembers members ↔ ∃ member ∈ members, value ∈ member.2.parts := by
  induction members with
  | nil => simp [partsMembers]
  | cons member rest ih => simp [partsMembers, ih]

mutual

theorem child_mem_parts {child value : Json} (h : Child child value) :
    ∀ whole : Json, value ∈ whole.parts → child ∈ whole.parts
  | .arr items, hmem => by
      rcases List.mem_cons.mp hmem with rfl | hmem
      · cases h with
        | item hchild =>
            exact List.mem_cons_of_mem _ (mem_partsItems.mpr ⟨_, hchild, child.mem_parts_self⟩)
      · exact List.mem_cons_of_mem _ (child_mem_partsItems h items hmem)
  | .obj members, hmem => by
      rcases List.mem_cons.mp hmem with rfl | hmem
      · cases h with
        | member hchild =>
            exact List.mem_cons_of_mem _ (mem_partsMembers.mpr ⟨_, hchild, child.mem_parts_self⟩)
      · exact List.mem_cons_of_mem _ (child_mem_partsMembers h members hmem)
  | .null, hmem | .bool _, hmem | .num _, hmem | .str _, hmem => by
      cases List.mem_singleton.mp hmem
      cases h

theorem child_mem_partsItems {child value : Json} (h : Child child value) :
    ∀ items : List Json, value ∈ partsItems items → child ∈ partsItems items
  | [], hmem => by cases hmem
  | item :: rest, hmem => by
      rcases List.mem_append.mp hmem with hmem | hmem
      · exact List.mem_append_left _ (child_mem_parts h item hmem)
      · exact List.mem_append_right _ (child_mem_partsItems h rest hmem)

theorem child_mem_partsMembers {child value : Json} (h : Child child value) :
    ∀ members : List (String × Json), value ∈ partsMembers members → child ∈ partsMembers members
  | [], hmem => by cases hmem
  | (_, member) :: rest, hmem => by
      rcases List.mem_append.mp hmem with hmem | hmem
      · exact List.mem_append_left _ (child_mem_parts h member hmem)
      · exact List.mem_append_right _ (child_mem_partsMembers h rest hmem)

end

theorem size_le_sizeItems {value : Json} {items : List Json} (hmem : value ∈ items) :
    value.size ≤ sizeItems items := by
  induction items with
  | nil => cases hmem
  | cons item rest ih =>
      simp only [sizeItems]
      rcases List.mem_cons.mp hmem with rfl | hmem
      · omega
      · have := ih hmem
        omega

theorem size_le_sizeMembers {key : String} {value : Json} {members : List (String × Json)}
    (hmem : (key, value) ∈ members) : value.size ≤ sizeMembers members := by
  induction members with
  | nil => cases hmem
  | cons member rest ih =>
      simp only [sizeMembers]
      rcases List.mem_cons.mp hmem with rfl | hmem
      · exact Nat.le_add_right _ _
      · have := ih hmem
        omega

/-- An item or a member is smaller than the value that it stands in. -/
theorem Child.size_lt {child value : Json} (h : Child child value) : child.size < value.size := by
  cases h with
  | item hmem =>
      have := size_le_sizeItems hmem
      simp only [size]
      omega
  | member hmem =>
      have := size_le_sizeMembers hmem
      simp only [size]
      omega

end Json

/-! ## The goals of a model set -/

namespace Model

/-- The types inside a model. -/
def types (model : Model) : List Ty :=
  match model.shape with
  | .object fields => fields.flatMap fun field => field.type.parts
  | .union alternatives _ _ => alternatives.flatMap Ty.parts

/-- The values inside the defaults of a model. -/
def defaults (model : Model) : List Json :=
  model.fields.flatMap fun field => (field.default.map Json.parts).getD []

theorem length_types (model : Model) : model.types.length = model.typeCount := by
  unfold types typeCount
  cases model.shape <;>
    simp only [List.length_flatMap, List.sum_eq_foldr, List.foldr_map, Ty.length_parts]

theorem length_defaults (model : Model) : model.defaults.length = model.defaultSize := by
  have hfield (field : Field) : ((field.default.map Json.parts).getD []).length =
      (field.default.map Json.size).getD 0 := by
    cases field.default with
    | none => rfl
    | some default => exact Json.length_parts default
  simp only [defaults, defaultSize, List.length_flatMap, List.sum_eq_foldr, List.foldr_map, hfield]

end Model

namespace ModelSet

variable (set : ModelSet)

/-- The types that a check against a type comes to, those of models that are not there aside. -/
def typesFrom (type : Ty) : List Ty :=
  type.parts ++ (List.range set.models.size).map Ty.model ++ set.models.toList.flatMap Model.types

/-- The values that a check of a value comes to. -/
def valuesFrom (value : Json) : List Json :=
  value.parts ++ set.models.toList.flatMap Model.defaults

variable {set} (type : Ty) (value : Json)

/-- There are fewer pairs of a type and a value to come to than the depth of a decoding. -/
theorem length_goals_lt_depth :
    (set.typesFrom type ×ˢ set.valuesFrom value).length < set.depth type value := by
  have htypes (models : List Model) :
      models.length + (models.flatMap Model.types).length =
        models.foldr (fun model count => 1 + model.typeCount + count) 0 := by
    induction models with
    | nil => rfl
    | cons model rest ih =>
        simp only [List.length_cons, List.flatMap_cons, List.length_append, List.foldr_cons, ← ih,
          Model.length_types]
        omega
  have hdefaults (models : List Model) : (models.flatMap Model.defaults).length =
      models.foldr (fun model size => model.defaultSize + size) 0 := by
    simp only [List.length_flatMap, List.sum_eq_foldr, List.foldr_map, Model.length_defaults]
  have hfirst : (set.typesFrom type).length =
      type.size + set.models.toList.foldr (fun model count => 1 + model.typeCount + count) 0 := by
    simp only [typesFrom, List.length_append, List.length_map, List.length_range,
      Ty.length_parts, ← htypes, Array.length_toList]
    omega
  have hsecond : (set.valuesFrom value).length =
      value.size + set.models.toList.foldr (fun model size => model.defaultSize + size) 0 := by
    simp only [valuesFrom, List.length_append, Json.length_parts, hdefaults]
  rw [List.length_product, hfirst, hsecond, depth]
  refine Nat.lt_succ_of_le (Nat.mul_le_mul ?_ ?_) <;> omega

/-! ## What is among the types and the values -/

theorem mem_typesFrom_of_model {m : ModelId} {inner : Ty} (hlt : m < set.models.size)
    (hmem : inner ∈ (set.model m).types) : inner ∈ set.typesFrom type := by
  refine List.mem_append_right _ (List.mem_flatMap.mpr ⟨set.model m, ?_, hmem⟩)
  simp [model, hlt]

theorem mem_valuesFrom_of_model {m : ModelId} {inner : Json} (hlt : m < set.models.size)
    (hmem : inner ∈ (set.model m).defaults) : inner ∈ set.valuesFrom value := by
  refine List.mem_append_right _ (List.mem_flatMap.mpr ⟨set.model m, ?_, hmem⟩)
  simp [model, hlt]

theorem item_mem_types {model : Model} {item : Ty} (h : .array item ∈ model.types) :
    item ∈ model.types := by
  unfold Model.types at h ⊢
  split at h <;> simp only [List.mem_flatMap] at h ⊢
  · obtain ⟨field, hmem, h⟩ := h
    exact ⟨field, hmem, Ty.item_mem_parts h⟩
  · obtain ⟨alternative, hmem, h⟩ := h
    exact ⟨alternative, hmem, Ty.item_mem_parts h⟩

theorem item_mem_typesFrom {item : Ty} (h : .array item ∈ set.typesFrom type) :
    item ∈ set.typesFrom type := by
  simp only [typesFrom, List.mem_append, List.mem_map, List.mem_flatMap] at h ⊢
  rcases h with (h | ⟨m, -, h⟩) | ⟨model, hmem, h⟩
  · exact .inl (.inl (Ty.item_mem_parts h))
  · cases h
  · exact .inr ⟨model, hmem, item_mem_types h⟩

theorem child_mem_defaults {model : Model} {child inner : Json} (hchild : Json.Child child inner)
    (h : inner ∈ model.defaults) : child ∈ model.defaults := by
  simp only [Model.defaults, List.mem_flatMap] at h ⊢
  obtain ⟨field, hmem, h⟩ := h
  refine ⟨field, hmem, ?_⟩
  cases hdefault : field.default with
  | none => simp [hdefault] at h
  | some default =>
      simp only [hdefault, Option.map_some, Option.getD_some] at h ⊢
      exact Json.child_mem_parts hchild default h

theorem child_mem_valuesFrom {child inner : Json} (hchild : Json.Child child inner)
    (h : inner ∈ set.valuesFrom value) : child ∈ set.valuesFrom value := by
  simp only [valuesFrom, List.mem_append, List.mem_flatMap] at h ⊢
  rcases h with h | ⟨model, hmem, h⟩
  · exact .inl (Json.child_mem_parts hchild value h)
  · exact .inr ⟨model, hmem, child_mem_defaults hchild h⟩

theorem type_mem_types {model : Model} {fields : List Field} {field : Field}
    (hshape : model.shape = .object fields) (hmem : field ∈ fields) :
    field.type ∈ model.types := by
  simp only [Model.types, hshape, List.mem_flatMap]
  exact ⟨field, hmem, field.type.mem_parts_self⟩

theorem alternative_mem_types {model : Model} {alternative : Ty}
    (hmem : alternative ∈ model.shape.alternatives) : alternative ∈ model.types := by
  unfold Model.types
  cases hshape : model.shape with
  | object fields => simp [hshape, Shape.alternatives] at hmem
  | union alternatives discriminator tags =>
      simp only [hshape, Shape.alternatives] at hmem
      exact List.mem_flatMap.mpr ⟨alternative, hmem, alternative.mem_parts_self⟩

theorem default_mem_defaults {model : Model} {fields : List Field} {field : Field}
    {default : Json} (hshape : model.shape = .object fields) (hmem : field ∈ fields)
    (hdefault : field.default = some default) : default ∈ model.defaults := by
  simp only [Model.defaults, Model.fields, hshape, List.mem_flatMap]
  refine ⟨field, hmem, ?_⟩
  simp only [hdefault, Option.map_some, Option.getD_some]
  exact default.mem_parts_self

end ModelSet
end OpenApi
