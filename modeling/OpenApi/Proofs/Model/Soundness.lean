-- SUMMARY: What has to hold of a document so that it compiles, without a word on the order.
import OpenApi.Proofs.Compilation.Cases
import OpenApi.Proofs.Model.Renaming
import Mathlib.Data.List.Perm.Subperm

/-!
# Sound documents

Whether a schema has a type, and whether two properties of one name have the same type, can be
said before any model has an index: every model takes the index of its own schema. `Sound`
says that all that is asked for can be built in this sense, so it does not depend on the order
in which the named schemas come. The types of a compilation are these, with its own indices
for the models.
-/

namespace OpenApi

open Relation (ReflTransGen TransGen)

variable {doc : Document} {registry : Registry} {models : ModelTable}

/-! ## Types whose models have the indices of their schemas -/

/-- A type with the indices of a table in place of those of the schemas. -/
abbrev Ty.index (models : ModelTable) : Ty → Ty :=
  Ty.rename (fun schema => schema) fun schema => (models schema).getD 0

/-- A type is one whose models have the indices of their schemas, with other indices. -/
theorem HasType.exists_own {id : SchemaId} {type : Option Ty}
    (h : HasType doc registry models id type) :
    ∃ own, HasType doc registry some id own ∧ type = own.map (Ty.index models) := by
  induction h with
  | scalar htype hscalar hresolve => exact ⟨_, .scalar htype hscalar hresolve, rfl⟩
  | array htype hitems _ ih =>
      obtain ⟨own, hown, rfl⟩ := ih
      refine ⟨_, .array htype hitems hown, ?_⟩
      cases own <;> rfl
  | model hmodel hm => exact ⟨_, .model hmodel rfl, by simp [Ty.index, Ty.rename, hm]⟩
  | anchor hanchor => exact ⟨none, .anchor hanchor, rfl⟩

theorem HasFieldType.exists_own {context : Context} {name : String} {edge : Edge} {type : Ty}
    (h : HasFieldType doc registry models context name edge type) :
    ∃ own, HasFieldType doc registry some context name edge own ∧ type = own.index models := by
  cases h with
  | narrowed hnarrow => exact ⟨_, .narrowed hnarrow, rfl⟩
  | plain hnarrow helement =>
      obtain ⟨known, hknown, rfl⟩ := helement
      obtain ⟨own, hown, rfl⟩ := hknown.exists_own
      refine ⟨_, .plain hnarrow ⟨own, hown, rfl⟩, ?_⟩
      cases own <;> rfl

/-! ## The size of types -/

theorem Ty.size_pos (type : Ty) : 0 < type.size := by
  cases type <;> simp only [size] <;> omega

/-- Each array in a type is an array of its own. -/
theorem HasType.exists_arrays {id : SchemaId} {type : Option Ty}
    (h : HasType doc registry models id type) :
    ∃ arrays : List SchemaId, arrays.Nodup ∧
      (type.getD (.anchor id)).size = arrays.length + 1 ∧
      ∀ array ∈ arrays, array < doc.schemas.size ∧ ∃ other,
        HasType doc registry models array other ∧
        (other.getD (.anchor array)).size ≤ (type.getD (.anchor id)).size := by
  induction h with
  | scalar | model | anchor => exact ⟨[], List.nodup_nil, rfl, by simp⟩
  | @array id items type htype hitems hitem ih =>
      obtain ⟨arrays, hnodup, hsize, harrays⟩ := ih
      have hown : HasType doc registry models id (some (.array (type.getD (.anchor items.id)))) :=
        .array htype hitems hitem
      refine ⟨id :: arrays, List.nodup_cons.mpr ⟨fun hmem => ?_, hnodup⟩, ?_, ?_⟩
      · -- The array would be larger than itself.
        obtain ⟨-, other, hother, hle⟩ := harrays id hmem
        cases hother.unique hown
        simp only [Option.getD_some, Ty.size] at hle
        omega
      · simp only [Option.getD_some, Ty.size, hsize, List.length_cons]
        omega
      · rw [List.forall_mem_cons]
        refine ⟨⟨?_, _, hown, Nat.le_refl _⟩, fun array hmem => ?_⟩
        · apply doc.lt_size_of_ne
          intro hschema
          simp [hschema] at htype
        · obtain ⟨hlt, other, hother, hle⟩ := harrays array hmem
          refine ⟨hlt, other, hother, Nat.le_trans hle ?_⟩
          simp only [Option.getD_some, Ty.size]
          omega

/-- A type holds no more types than the document has schemas, and one more. -/
theorem HasType.size_le {id : SchemaId} {type : Option Ty}
    (h : HasType doc registry models id type) :
    (type.getD (.anchor id)).size ≤ doc.schemas.size + 1 := by
  obtain ⟨arrays, hnodup, hsize, harrays⟩ := h.exists_arrays
  have hsubset : arrays ⊆ List.range doc.schemas.size :=
    fun array hmem => List.mem_range.mpr (harrays array hmem).1
  have hlength := (hnodup.subperm hsubset).length_le
  rw [List.length_range] at hlength
  omega

/-! ## Sound documents -/

namespace Document

variable (doc registry)

/-- All that is asked for can be built: schemas have types, the targets of mappings are there,
the members of objects can be merged and come to an end, and what is merged agrees. -/
structure Sound : Prop where
  types : ∀ id, doc.Asked id → ∃ type, HasType doc registry some id type
  targets : ∀ id tag target, doc.Asked id → (doc.schema id).isAnchor = true →
    (tag, target) ∈ (doc.schema id).mapping → ∃ variant, doc.resolve target = some variant
  members : ∀ id part, doc.Asked id → doc.IsObject id → ReflTransGen doc.Includes id part →
    ¬ TransGen doc.Includes part part ∧ ∀ edge ∈ (doc.schema part).allOf, doc.Mergeable edge.id
  fields : ∀ context id name edge, doc.Builds context id → doc.IsObject id →
    doc.Holds id name edge → ∃ type, HasFieldType doc registry some context name edge type
  agree : ∀ context id name edge edge' type type', doc.Builds context id → doc.IsObject id →
    (doc.schema id).allOf ≠ [] → doc.Holds id name edge → doc.Holds id name edge' →
    HasFieldType doc registry some context name edge type →
    HasFieldType doc registry some context name edge' type' → type = type'

/-- Why the compilation of a sound document may stop: a schema that is merged into another leads
back to itself below, or a union comes back to itself through members and variants alone. -/
inductive Loops : Stop SchemaError → Prop where
  | merged {owner id : SchemaId} :
      doc.Includes owner id → (doc.schema id).allOf ≠ [] → doc.Descends id id →
        Loops (.failed (.cyclicAllOf (doc.schema id).label))
  | union {id : SchemaId} :
      TransGen doc.Passes id id → Loops (.failed (.cyclicUnion (doc.schema id).label))

/-- How a step may stop. -/
def Fails (stop : Stop SchemaError) (_ : Compilation) : Prop :=
  doc.Sound registry → doc.Loops stop

variable {doc registry} {id : SchemaId} {context : Context} {name : String}

/-- A property of an object has the type in the context. -/
def HoldsType (doc : Document) (registry : Registry) (models : ModelTable) (context : Context)
    (id : SchemaId) (name : String) (type : Ty) : Prop :=
  ∃ edge, doc.Holds id name edge ∧ HasFieldType doc registry models context name edge type

/-- The properties of one name that are merged have one type, whatever the indices of models. -/
theorem Sound.unique (h : doc.Sound registry) (hbuilds : doc.Builds context id)
    (hobject : doc.IsObject id) (hne : (doc.schema id).allOf ≠ []) {type type' : Ty}
    (htype : doc.HoldsType registry models context id name type)
    (htype' : doc.HoldsType registry models context id name type') : type = type' := by
  obtain ⟨edge, hholds, hfield⟩ := htype
  obtain ⟨edge', hholds', hfield'⟩ := htype'
  obtain ⟨own, hown, rfl⟩ := hfield.exists_own
  obtain ⟨own', hown', rfl⟩ := hfield'.exists_own
  rw [h.agree context id name edge edge' own own' hbuilds hobject hne hholds hholds' hown hown']

/-- A field of an object has the type of one of its properties. -/
theorem holdsType_of_isField {part : SchemaId} (hwalk : ReflTransGen doc.Includes id part)
    {property : String × Edge} (hmem : property ∈ (doc.schema part).properties) {field : Field}
    (h : IsField doc registry models context (doc.schema part) property field) :
    doc.HoldsType registry models context id field.name field.type := by
  rw [congrArg Field.name h.rest]
  exact ⟨property.2, ⟨part, hwalk, hmem⟩, h.type⟩

/-- The fields that members contribute have the types of properties of the object. -/
theorem holdsType_of_contribute {part : SchemaId} (hwalk : ReflTransGen doc.Includes id part)
    {members : List Edge} (hmembers : ∀ edge ∈ members, edge ∈ (doc.schema part).allOf)
    {fields : List Field}
    (h : Contribute doc (IsField doc registry models context) members fields) :
    ∀ field ∈ fields, doc.HoldsType registry models context id field.name field.type :=
  h.forall_type (fun _ hmember _ hmem _ => holdsType_of_isField hmember hmem)
    fun edge hedge => hwalk.tail ⟨edge, hmembers edge hedge, rfl⟩

/-- Fields that cannot be merged are never those of a sound object. -/
theorem fails_of_absorb (hbuilds : doc.Builds context id) (hobject : doc.IsObject id)
    (hne : (doc.schema id).allOf ≠ []) {parts merged more : List Field}
    (hmerges : Merges parts merged)
    (htypes : ∀ field ∈ parts ++ more,
      doc.HoldsType registry models context id field.name field.type)
    {model : String} {error : SchemaError} (habsorb : absorb model merged more = .error error)
    (state : Compilation) : doc.Fails registry (.failed error) state := by
  intro hsound
  obtain ⟨next, hnext⟩ := hmerges.exists_absorb (fun first hfirst second hsecond hname =>
    hsound.unique hbuilds hobject hne (hname ▸ htypes first hfirst) (htypes second hsecond)) model
  cases habsorb.symm.trans hnext

/-- In a sound document a member that is merged while it is being merged leads back to itself
below. -/
theorem Sound.loops_of_merging (h : doc.Sound registry) {owner : SchemaId}
    (hasked : doc.Asked owner) (hobject : doc.IsObject owner)
    (hwalk : TransGen doc.Includes owner id) (hne : (doc.schema id).allOf ≠ [])
    (hback : TransGen doc.Includes id id ∨ doc.Descends id id) :
    doc.Loops (.failed (.cyclicAllOf (doc.schema id).label)) := by
  rcases hback with hcycle | hdown
  · exact absurd hcycle (h.members owner id hasked hobject hwalk.to_reflTransGen).1
  · obtain ⟨last, -, hincludes⟩ := TransGen.tail'_iff.mp hwalk
    exact .merged hincludes hne hdown

/-- Without such loops nothing stops the compilation of a sound document. -/
theorem Loops.not_apart {stop : Stop SchemaError} (h : doc.Loops stop) :
    ¬ (doc.MergesApart ∧ doc.NoUnionLoop) := by
  rintro ⟨hapart, hloops⟩
  cases h with
  | merged hincludes hne hdown => exact hapart _ _ hincludes hne hdown
  | union hloop => exact hloops _ hloop

end Document
end OpenApi
