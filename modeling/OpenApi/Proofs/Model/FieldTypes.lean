-- SUMMARY: The type of a field is the type of its property, whichever members the field came from.
import OpenApi.Proofs.Model.Meaning
import OpenApi.Proofs.Model.Merge

/-!
# Types of fields

Merging combines fields of one name only where their types agree, and `required` is
all that it changes about a field otherwise. So each field of an object has the type
that one of the properties of its name has in the context of the object.
-/

namespace OpenApi

/-! ## Merging keeps types -/

section Absorb

variable {P : String → Ty → Prop}

theorem absorbField_forall {model : String} {fields next : List Field} {field : Field}
    (h : absorbField model fields field = .ok next)
    (hfields : ∀ other ∈ fields, P other.name other.type) (hfield : P field.name field.type) :
    ∀ other ∈ next, P other.name other.type := by
  rcases absorbField_cases h with ⟨-, rfl⟩ | ⟨before, first, after, rfl, -, -, rfl⟩
  · rw [List.forall_mem_append]
    exact ⟨hfields, by simpa using hfield⟩
  · -- What is combined stays with its name and its type.
    rw [List.forall_mem_append, List.forall_mem_cons] at hfields ⊢
    exact hfields

theorem absorb_forall {model : String} {merged fields next : List Field}
    (h : absorb model merged fields = .ok next)
    (hmerged : ∀ other ∈ merged, P other.name other.type)
    (hfields : ∀ other ∈ fields, P other.name other.type) :
    ∀ other ∈ next, P other.name other.type := by
  induction fields generalizing merged with
  | nil =>
      cases h
      exact hmerged
  | cons field rest ih =>
      rw [List.forall_mem_cons] at hfields
      rw [absorb_cons] at h
      obtain ⟨middle, hfirst, hrest⟩ := exists_of_bind_eq_ok h
      exact ih hrest (absorbField_forall hfirst hmerged hfields.1) hfields.2

theorem requireOwn_forall {schema : Schema} {fields : List Field}
    (h : ∀ other ∈ fields, P other.name other.type) :
    ∀ other ∈ requireOwn schema fields, P other.name other.type := by
  simpa [requireOwn_eq_map] using h

end Absorb

/-! ## Fields of objects -/

variable {doc : Document} {registry : Registry} {models : ModelTable} {context : Context}

/-- Some property of this name has this type in the context. -/
def Typed (doc : Document) (registry : Registry) (models : ModelTable) (context : Context)
    (name : String) (type : Ty) : Prop :=
  ∃ edge, HasFieldType doc registry models context name edge type

theorem AreFields.typed {schema : Schema} {fields : List Field}
    (h : AreFields doc registry models context schema fields) :
    ∀ field ∈ fields, Typed doc registry models context field.name field.type := by
  unfold AreFields at h
  generalize schema.properties = properties at h
  induction h with
  | nil => simp
  | cons hfield _ ih =>
      rw [List.forall_mem_cons]
      refine ⟨?_, ih⟩
      rw [congrArg Field.name hfield.rest]
      exact ⟨_, hfield.type⟩

theorem Inherits.typed {name : String} {members : List Edge} {start last : List Field}
    (h : Inherits doc registry models context name members start last)
    (hstart : ∀ field ∈ start, Typed doc registry models context field.name field.type) :
    ∀ field ∈ last, Typed doc registry models context field.name field.type := by
  induction h with
  | nil => exact hstart
  | object _ hpart habsorb _ ih => exact ih (absorb_forall habsorb hstart hpart.typed)
  | merged _ _ hown hpart habsorb _ ihmembers ihrest =>
      have hmembers := absorb_forall hpart (ihmembers (by simp)) hown.typed
      exact ihrest (absorb_forall habsorb hstart (requireOwn_forall hmembers))

/-- Each field of an object has the type of a property of its name. -/
theorem HasShape.typed {name : String} {id : SchemaId} {fields : List Field}
    (h : HasShape doc registry models context name id (.object fields)) :
    ∀ field ∈ fields, Typed doc registry models context field.name field.type := by
  cases hcomb : (doc.schema id).combination <;> simp only [HasShape, hcomb] at h
  case allOf =>
    obtain ⟨merged, ⟨inherited, own, part, hinherited, hown, hpart, rfl⟩, heq⟩ := h
    cases heq
    exact requireOwn_forall (absorb_forall hpart (hinherited.typed (by simp)) hown.typed)
  case anyOf | oneOf =>
    obtain ⟨found, -, heq⟩ := h
    cases heq
  case none =>
    obtain ⟨own, hown, heq⟩ := h
    cases heq
    exact hown.typed

end OpenApi
