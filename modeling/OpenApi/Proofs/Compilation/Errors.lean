-- SUMMARY: Which errors the checks of a compilation fail with.
import OpenApi.Compilation.Types
import OpenApi.Proofs.Model.Merge

/-!
# Errors of checks

The checks that a compilation makes without asking for other schemas fail with one kind
of error each. So whatever refuses a schema that leads back to itself is none of them.
-/

namespace OpenApi

variable {error : SchemaError}

/-! ## Fields -/

theorem absorbField_error {model : String} {fields : List Field} {field : Field}
    (h : absorbField model fields field = .error error) :
    error = .conflictingField model field.name := by
  induction fields with
  | nil => cases h
  | cons first rest ih =>
      simp only [absorbField] at h
      split at h
      · split at h
        · cases h
        · cases h
          rfl
      · cases hrest : absorbField model rest field with
        | ok next =>
            rw [hrest] at h
            cases h
        | error error' =>
            rw [hrest] at h
            cases h
            exact ih hrest

theorem absorb_error {model : String} {merged fields : List Field}
    (h : absorb model merged fields = .error error) :
    ∃ field ∈ fields, error = .conflictingField model field.name := by
  induction fields generalizing merged with
  | nil => cases h
  | cons field rest ih =>
      rw [absorb_cons] at h
      rcases cases_of_bind_eq_error h with hfirst | ⟨middle, -, hrest⟩
      · exact ⟨field, List.mem_cons_self, absorbField_error hfirst⟩
      · obtain ⟨other, hmem, herror⟩ := ih hrest
        exact ⟨other, List.mem_cons_of_mem _ hmem, herror⟩

theorem Context.narrow_error {context : Context} {name : String}
    (h : context.narrow name = .error error) :
    error = .uncoveredDiscriminator name context.path := by
  unfold Context.narrow at h
  split at h
  · cases h
  · split at h
    · split at h
      · cases h
      · cases h
        rfl
    · cases h

/-! ## Scalars -/

theorem Registry.resolve_error {registry : Registry} {primitive : Primitive}
    {format : Option String} (h : registry.resolve primitive format = .error error) :
    error = .malformedRegistry primitive format ∨ error = .notScalar primitive := by
  cases primitive <;> simp only [Registry.resolve] at h
  case string | number =>
    split at h
    · cases h
    · cases h
      exact .inl rfl
  case integer | boolean => cases h
  case array | object =>
    cases h
    exact .inr rfl

/-! ## Models -/

namespace Compilation

variable {doc : Document}

theorem modelsOf_error {memo : List (SchemaId × ModelId)} {slots : List (Option Model)}
    {place : Nat} (h : modelsOf doc memo place slots = .error error) :
    ∃ identity, error = .incomplete identity := by
  induction slots generalizing place with
  | nil => cases h
  | cons slot rest ih =>
      cases slot with
      | none =>
          cases h
          exact ⟨_, rfl⟩
      | some model =>
          simp only [modelsOf] at h
          cases hrest : modelsOf doc memo (place + 1) rest with
          | ok models =>
              rw [hrest] at h
              cases h
          | error error' =>
              rw [hrest] at h
              cases h
              exact ih hrest

theorem finish_error {state : Compilation} (h : state.finish doc = .error error) :
    ∃ identity, error = .incomplete identity := by
  unfold finish at h
  cases hmodels : modelsOf doc state.memo 0 state.slots.toList with
  | ok models =>
      rw [hmodels] at h
      cases h
  | error error' =>
      rw [hmodels] at h
      cases h
      exact modelsOf_error hmodels

end Compilation
end OpenApi
