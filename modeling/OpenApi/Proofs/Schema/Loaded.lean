-- SUMMARY: Loaded documents: every schema that says anything has an identity.
import OpenApi.Proofs.Schema.Loading

/-!
# Loaded documents

Loading gives an identity to each schema that it converts. The only schemas without
one are reserved slots, which say nothing until they are filled. So a schema of a
loaded document that can get a model can be named.
-/

namespace OpenApi.Document

/-- A document that loading answers, from a value or from a text. -/
def Loaded (doc : Document) : Prop :=
  (∃ value, ofJson value = .ok doc) ∨ ∃ text, ofText text = .ok doc

/-- A schema has an identity, or it says nothing. -/
def Identified (doc : Document) : Prop :=
  ∀ id, (doc.schema id).isAnchor = false → (doc.schema id).identity.isSome = true

/-! ## Arenas of schemas -/

theorem schema_insert (doc : Document) (added : Schema) (id : SchemaId) :
    (doc.insert added).1.schema id = if id = doc.schemas.size then added else doc.schema id := by
  simp only [schema, insert, Array.getD_eq_getD_getElem?, Array.getElem?_push]
  split <;> rfl

theorem schema_replace (doc : Document) (place : SchemaId) (added : Schema) (id : SchemaId) :
    (doc.replace place added).schema id = added ∨
      (doc.replace place added).schema id = doc.schema id := by
  simp only [schema, replace, Array.getD_eq_getD_getElem?, Array.getElem?_setIfInBounds]
  split
  · split
    · exact .inl rfl
    · rename_i h hlt
      subst h
      exact .inr (by simp [Array.getElem?_eq_none (Nat.le_of_not_lt hlt)])
  · exact .inr rfl

/-! ## Loading -/

/-- What loading adds says nothing or has an identity. -/
theorem identified_preserved (dialect : Dialect) :
    Preserved dialect (fun _ => True) Identified
      fun schema => schema.isAnchor = false → schema.identity.isSome = true where
  hereditary := by constructor <;> intros <;> trivial
  start := by
    intro id hanchor
    simp [schema, Schema.isAnchor, Schema.combination] at hanchor
  name := fun h _ _ => h
  insert := by
    intro doc added h hadded id
    rw [schema_insert]
    split
    · exact hadded
    · exact h id
  replace := by
    intro doc added h hadded place id
    rcases schema_replace doc place added id with heq | heq
    · rw [heq]
      exact hadded
    · rw [heq]
      exact h id
  reserved := by simp [Schema.isAnchor, Schema.combination]
  converted := by
    intro identity written schema _ hmade _
    rw [hmade.identity]
    rfl

theorem identified_of_ofWire {written : Wire.Document} {doc : Document}
    (h : ofWire written = .ok doc) : doc.Identified := by
  obtain ⟨dialect, hdialect, -⟩ := exists_of_bind_eq_ok h
  exact ((identified_preserved dialect).ofWire hdialect (fun _ _ => trivial) h).1

/-- A schema of a loaded document has an identity, or it says nothing. -/
theorem Loaded.identified {doc : Document} (h : doc.Loaded) : doc.Identified := by
  rcases h with ⟨value, h⟩ | ⟨text, h⟩
  · obtain ⟨written, -, h⟩ := exists_of_bind_eq_ok h
    exact identified_of_ofWire h
  · obtain ⟨written, -, h⟩ := exists_of_bind_eq_ok h
    exact identified_of_ofWire h

end OpenApi.Document
