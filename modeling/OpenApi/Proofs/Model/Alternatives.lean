-- SUMMARY: The alternatives of models, and model sets without cycles of alternatives.
import OpenApi.Model
import Mathlib.Logic.Relation

/-!
# Alternatives

A union has alternatives, an object has none. A value is checked against the
alternatives of a union without looking further into the value, so unions that are
alternatives of each other in a cycle would be checked forever.
-/

namespace OpenApi

open Relation (TransGen)

/-- The alternatives of a union; an object has none. -/
def Shape.alternatives : Shape → List Ty
  | .union alternatives _ _ => alternatives
  | .object _ => []

/-- The types of fields, or the alternatives. -/
def Shape.types : Shape → List Ty
  | .object fields => fields.map (·.type)
  | .union alternatives _ _ => alternatives

namespace ModelSet

variable (set : ModelSet)

/-- A model has another as an alternative. -/
def Alternative (outer inner : ModelId) : Prop :=
  .model inner ∈ (set.model outer).shape.alternatives

/-- No model comes back to itself through alternatives alone. -/
def NoUnionCycle : Prop :=
  ∀ m, ¬ TransGen set.Alternative m m

/-- Each tag selects an alternative that is there. -/
def TagsInRange : Prop :=
  ∀ m alternatives discriminator tags,
    (set.model m).shape = .union alternatives discriminator tags →
      ∀ tag index, Keyed.get? tags tag = some index → index < alternatives.length

variable {set}

/-- Where there is no model, there is an object without fields. -/
theorem shape_of_size_le {m : ModelId} (h : set.models.size ≤ m) :
    (set.model m).shape = .object [] := by
  simp [model, Array.getD, Nat.not_lt.mpr h]

theorem Alternative.lt_size {outer inner : ModelId} (h : set.Alternative outer inner) :
    outer < set.models.size := by
  apply Nat.lt_of_not_le
  intro hge
  rw [Alternative, shape_of_size_le hge] at h
  cases h

end ModelSet
end OpenApi
