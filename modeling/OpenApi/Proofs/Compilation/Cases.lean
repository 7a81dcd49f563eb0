-- SUMMARY: Which way a step of a compilation goes on, by the kind of the schema it looks at.
import OpenApi.Proofs.Schema.Walk

/-!
# Cases of steps

Several steps look at a schema and go on in one of a few ways. Each law here lists the
ways of one step. Which way it is depends on the schema alone, so it is the same
whatever the requests of the step answer.
-/

namespace OpenApi

variable (doc : Document) (registry : Registry) (context : Context)

/-- A schema that can be merged into another: it has members itself, or it is a plain object. -/
def Document.Mergeable (id : SchemaId) : Prop :=
  (doc.schema id).allOf ≠ [] ∨ (doc.schema id).combination = .none ∧
    ((doc.schema id).type = none ∨ (doc.schema id).type = some .object)

/-- A member contributes merged fields, its own fields, or nothing at all. -/
theorem contribution_cases (name : String) (owner : Schema) (member : Edge) :
    ((doc.schema member.id).allOf ≠ [] ∧
      ∀ ask, contribution doc ask context name owner member = ask.merged context name member.id) ∨
    (((doc.schema member.id).combination = .none ∧
        ((doc.schema member.id).type = none ∨ (doc.schema member.id).type = some .object)) ∧
      ∀ ask, contribution doc ask context name owner member =
        fieldsOf doc ask context (doc.schema member.id)) ∨
    (¬ doc.Mergeable member.id ∧ ∃ identity label, ∀ ask,
      contribution doc ask context name owner member =
        throw (.failed (.unmergeableMember identity label))) := by
  cases hcomb : (doc.schema member.id).combination with
  | allOf members =>
      refine .inl ⟨Schema.allOf_ne_nil_of_combination hcomb, fun ask => ?_⟩
      simp only [contribution, hcomb]
  | anyOf members | oneOf members =>
      have hnot : ¬ doc.Mergeable member.id := by
        rintro (hne | ⟨hnone, -⟩)
        · obtain ⟨_, hall⟩ := Schema.exists_combination_of_allOf hne
          cases hcomb.symm.trans hall
        · cases hcomb.symm.trans hnone
      simp only [contribution, hcomb]
      exact .inr (.inr ⟨hnot, _, _, fun ask => rfl⟩)
  | none =>
      simp only [contribution, hcomb]
      split
      · rename_i htype
        exact .inr (.inl ⟨⟨trivial, .inl htype⟩, fun ask => rfl⟩)
      · rename_i htype
        exact .inr (.inl ⟨⟨trivial, .inr htype⟩, fun ask => rfl⟩)
      · rename_i primitive hobject htype
        have hnot : ¬ doc.Mergeable member.id := by
          rintro (hne | ⟨-, hnone | hother⟩)
          · obtain ⟨_, hall⟩ := Schema.exists_combination_of_allOf hne
            cases hcomb.symm.trans hall
          · cases htype.symm.trans hnone
          · cases htype.symm.trans hother
            exact hobject rfl
        exact .inr (.inr ⟨hnot, _, _, fun ask => rfl⟩)

/-- A model is a merged object, a union, or an object with the fields of its properties. -/
theorem shapeOf_cases (name : String) (id : SchemaId) :
    ((∃ members, (doc.schema id).combination = .allOf members) ∧
      ∀ ask, shapeOf doc ask context name id = do
        return .object (← mergedFields doc ask context name id)) ∨
    (((doc.schema id).combination = .anyOf (doc.schema id).alternatives ∨
        (doc.schema id).combination = .oneOf (doc.schema id).alternatives) ∧
      ∀ ask, shapeOf doc ask context name id =
        unionOf doc ask context id (doc.schema id).alternatives) ∨
    ((doc.schema id).combination = .none ∧
      ∀ ask, shapeOf doc ask context name id = do
        return .object (← fieldsOf doc ask context (doc.schema id))) := by
  cases hcomb : (doc.schema id).combination with
  | allOf members =>
      refine .inl ⟨⟨members, rfl⟩, fun ask => ?_⟩
      simp only [shapeOf, hcomb]
  | anyOf members =>
      have halt := Schema.alternatives_of_anyOf hcomb
      refine .inr (.inl ⟨.inl (by rw [halt]), fun ask => ?_⟩)
      simp only [shapeOf, hcomb, halt]
  | oneOf members =>
      have halt := Schema.alternatives_of_oneOf hcomb
      refine .inr (.inl ⟨.inr (by rw [halt]), fun ask => ?_⟩)
      simp only [shapeOf, hcomb, halt]
  | none =>
      refine .inr (.inr ⟨rfl, fun ask => ?_⟩)
      simp only [shapeOf, hcomb]

/-- A schema is an array, an array without items, a scalar, or else has a model or is an anchor. -/
theorem typeOf_cases (id : SchemaId) :
    (∃ items, (doc.schema id).type = some .array ∧ (doc.schema id).items = some items ∧
      ∀ ask, typeOf doc registry ask context id = do
        return some (.array (← elementType ask items))) ∨
    ((doc.schema id).type = some .array ∧ (doc.schema id).items = none ∧
      ∀ ask, typeOf doc registry ask context id =
        throw (.failed (.missingItems (doc.schema id).label))) ∨
    (∃ primitive, (doc.schema id).type = some primitive ∧ primitive.isScalar = true ∧
      ∀ ask, typeOf doc registry ask context id = do
        return some (.scalar
          (← Compile.ofExcept (registry.resolve primitive (doc.schema id).format)))) ∨
    (((doc.schema id).type = none ∨ (doc.schema id).type = some .object) ∧
      ∀ ask, typeOf doc registry ask context id = modelType doc ask context id) := by
  cases htype : (doc.schema id).type with
  | none =>
      refine .inr (.inr (.inr ⟨.inl rfl, fun ask => ?_⟩))
      simp only [typeOf, htype]
  | some primitive =>
      cases primitive with
      | array =>
          cases hitems : (doc.schema id).items with
          | none =>
              refine .inr (.inl ⟨rfl, rfl, fun ask => ?_⟩)
              simp only [typeOf, htype, hitems]
          | some items =>
              refine .inl ⟨items, rfl, rfl, fun ask => ?_⟩
              simp only [typeOf, htype, hitems]
      | object =>
          refine .inr (.inr (.inr ⟨.inr rfl, fun ask => ?_⟩))
          simp only [typeOf, htype]
      | _ =>
          refine .inr (.inr (.inl ⟨_, rfl, rfl, fun ask => ?_⟩))
          simp only [typeOf, htype]

end OpenApi
