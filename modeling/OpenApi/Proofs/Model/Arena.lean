-- SUMMARY: The arena of a compilation: when it is well-formed, and how it grows.
import OpenApi.Proofs.Model.Meaning

/-!
# Arenas

An arena is what a compilation has built: the table of indices and the slots. A
schema is *open* while it has an index and an empty slot. `Arena.WellFormed` says
that indices are distinct, that filled slots hold what their schemas mean, and that
the alternatives of unions never lead in a circle except through a schema that also
leads back by a walk below it. It is kept when an index is reserved and when an open
slot is filled; nothing else changes an arena.
-/

namespace OpenApi

open Relation (TransGen)

/-- What has been built: the indices of schemas and the models at the indices. -/
structure Arena where
  models : ModelTable
  slots : Array (Option Model)

/-- What a compilation has built. -/
def Compilation.arena (state : Compilation) : Arena :=
  { models := state.model?, slots := state.slots }

namespace Arena

variable (doc : Document) (registry : Registry) (reach : Context → SchemaId → Prop)

/-- A schema has an index and its model is not built yet. -/
def Open (arena : Arena) (id : SchemaId) : Prop :=
  ∃ m, arena.models id = some m ∧ arena.slots[m]? = some none

/-- A model has another as an alternative that does not lead back to it by a walk below. -/
def Rests (arena : Arena) (inner outer : ModelId) : Prop :=
  ∃ model id, arena.slots[outer]? = some (some model) ∧ .model inner ∈ model.shape.alternatives ∧
    arena.models id = some inner ∧ ¬ doc.Descends id model.schema

/-- A model has the name of its schema, if that has one, and is what its schema means in some
context in which it is reached. -/
structure Means (arena : Arena) (model : Model) : Prop where
  name : ∀ name, (doc.schema model.schema).title.or (doc.schema model.schema).identity = some name →
    model.name = name
  shape : ∃ context, reach context model.schema ∧
    HasShape doc registry arena.models context model.name model.schema model.shape

/-- Indices are those of slots, each is that of one schema, which has a model, and a model that is
built has the index of its schema. -/
structure Indexed (arena : Arena) : Prop where
  bound : ∀ {id m}, arena.models id = some m → m < arena.slots.size
  distinct : ∀ {id id' m}, arena.models id = some m → arena.models id' = some m → id = id'
  isModel : ∀ {id m}, arena.models id = some m → doc.IsModel id
  owner : ∀ {m : ModelId} {model : Model}, arena.slots[m]? = some (some model) →
    arena.models model.schema = some m

structure WellFormed (arena : Arena) : Prop where
  bound : ∀ {id m}, arena.models id = some m → m < arena.slots.size
  distinct : ∀ {id id' m}, arena.models id = some m → arena.models id' = some m → id = id'
  isModel : ∀ {id m}, arena.models id = some m → doc.IsModel id
  owner : ∀ {m : ModelId} {model : Model}, arena.slots[m]? = some (some model) →
    arena.models model.schema = some m
  means : ∀ {m : ModelId} {model : Model}, arena.slots[m]? = some (some model) →
    arena.Means doc registry reach model
  rests : ∀ {inner outer}, arena.Rests doc inner outer →
    ∃ model, arena.slots[inner]? = some (some model)
  acyclic : ∀ m, ¬ TransGen (arena.Rests doc) m m

/-- The second arena has what the first has, and the same schemas are open. -/
structure Grows (before after : Arena) : Prop where
  models : before.models.Le after.models
  slots : ∀ {m : ModelId} {model : Model}, before.slots[m]? = some (some model) →
    after.slots[m]? = some (some model)
  opens : ∀ id, after.Open id ↔ before.Open id

theorem Grows.refl (arena : Arena) : arena.Grows arena :=
  ⟨fun _ _ h => h, fun h => h, fun _ => Iff.rfl⟩

theorem Grows.trans {first second third : Arena} (h : first.Grows second)
    (h' : second.Grows third) : first.Grows third :=
  ⟨fun id m hm => h'.models id m (h.models id m hm), fun hm => h'.slots (h.slots hm),
    fun id => (h'.opens id).trans (h.opens id)⟩

variable {doc registry reach} in
theorem WellFormed.indexed {arena : Arena} (h : arena.WellFormed doc registry reach) :
    arena.Indexed doc :=
  ⟨h.bound, h.distinct, h.isModel, h.owner⟩

/-- Contexts may be taken from more. -/
theorem WellFormed.imp {doc : Document} {registry : Registry}
    {reach reach' : Context → SchemaId → Prop} {arena : Arena}
    (h : arena.WellFormed doc registry reach)
    (himp : ∀ context id, reach context id → reach' context id) :
    arena.WellFormed doc registry reach' where
  bound := h.bound
  distinct := h.distinct
  isModel := h.isModel
  owner := h.owner
  means := by
    intro m model hslot
    obtain ⟨hname, context, hreach, hshape⟩ := h.means hslot
    exact ⟨hname, context, himp _ _ hreach, hshape⟩
  rests := h.rests
  acyclic := h.acyclic

/-! ## Reserving an index -/

/-- The next index goes to a schema. -/
def reserve (arena : Arena) (id : SchemaId) : Arena where
  models schema := if schema = id then some arena.slots.size else arena.models schema
  slots := arena.slots.push none

variable {doc registry reach} {arena : Arena} {id : SchemaId}

theorem models_reserve (schema : SchemaId) :
    (arena.reserve id).models schema =
      if schema = id then some arena.slots.size else arena.models schema := rfl

theorem slots_reserve (m : ModelId) :
    (arena.reserve id).slots[m]? = if m = arena.slots.size then some none else arena.slots[m]? :=
  Array.getElem?_push

theorem slots_reserve_some_iff {m : ModelId} {model : Model} :
    (arena.reserve id).slots[m]? = some (some model) ↔ arena.slots[m]? = some (some model) := by
  rw [slots_reserve]
  split
  · rename_i h
    simp [h]
  · rfl

theorem le_reserve (hnew : arena.models id = none) : arena.models.Le (arena.reserve id).models := by
  intro schema m h
  rw [models_reserve, if_neg, h]
  intro heq
  subst heq
  simp [hnew] at h

theorem open_reserve_iff (hwf : arena.WellFormed doc registry reach)
    (hnew : arena.models id = none) (schema : SchemaId) :
    (arena.reserve id).Open schema ↔ schema = id ∨ arena.Open schema := by
  constructor
  · intro h
    obtain ⟨m, hm, hslot⟩ := h
    rw [models_reserve] at hm
    split at hm
    · exact .inl ‹_›
    · rw [slots_reserve, if_neg (Nat.ne_of_lt (hwf.bound hm))] at hslot
      exact .inr ⟨m, hm, hslot⟩
  · intro h
    rcases h with rfl | ⟨m, hm, hslot⟩
    · exact ⟨arena.slots.size, by simp [models_reserve], by simp [slots_reserve]⟩
    · refine ⟨m, le_reserve hnew _ _ hm, ?_⟩
      rw [slots_reserve, if_neg (Nat.ne_of_lt (hwf.bound hm)), hslot]

theorem rests_of_reserve (hwf : arena.WellFormed doc registry reach) {inner outer : ModelId}
    (h : (arena.reserve id).Rests doc inner outer) : arena.Rests doc inner outer := by
  obtain ⟨model, schema, hslot, hmem, hinner, hdown⟩ := h
  rw [slots_reserve_some_iff] at hslot
  obtain ⟨context, -, hshape⟩ := (hwf.means hslot).shape
  obtain ⟨edge, -, hedge⟩ := hshape.member_of_alternative hmem
  -- An alternative of a built model had its index before, so it is not the reserved one.
  refine ⟨model, schema, hslot, hmem, ?_, hdown⟩
  rw [models_reserve] at hinner
  split at hinner
  · cases hinner
    exact absurd (hwf.bound hedge) (Nat.lt_irrefl _)
  · exact hinner

/-- Reserving an index keeps indices apart. -/
theorem Indexed.reserve (h : arena.Indexed doc) (hnew : arena.models id = none)
    (hmodel : doc.IsModel id) : (arena.reserve id).Indexed doc where
  bound := by
    intro schema m hm
    have hsize : (arena.reserve id).slots.size = arena.slots.size + 1 := Array.size_push _
    rw [models_reserve] at hm
    rw [hsize]
    split at hm
    · cases hm
      exact Nat.lt_succ_self _
    · exact Nat.lt_succ_of_lt (h.bound hm)
  distinct := by
    intro schema schema' m hm hm'
    rw [models_reserve] at hm hm'
    split at hm <;> split at hm'
    · simp_all
    · cases hm
      exact absurd (h.bound hm') (Nat.lt_irrefl _)
    · cases hm'
      exact absurd (h.bound hm) (Nat.lt_irrefl _)
    · exact h.distinct hm hm'
  isModel := by
    intro schema m hm
    rw [models_reserve] at hm
    split at hm
    · simp_all
    · exact h.isModel hm
  owner := fun hslot => le_reserve hnew _ _ (h.owner (slots_reserve_some_iff.mp hslot))

/-- Reserving an index keeps an arena well-formed. -/
theorem WellFormed.reserve (hwf : arena.WellFormed doc registry reach)
    (hnew : arena.models id = none) (hmodel : doc.IsModel id) :
    (arena.reserve id).WellFormed doc registry reach where
  bound := (hwf.indexed.reserve hnew hmodel).bound
  distinct := (hwf.indexed.reserve hnew hmodel).distinct
  isModel := (hwf.indexed.reserve hnew hmodel).isModel
  owner := (hwf.indexed.reserve hnew hmodel).owner
  means := by
    intro m model hslot
    obtain ⟨hname, context, hreached, hshape⟩ := hwf.means (slots_reserve_some_iff.mp hslot)
    exact ⟨hname, context, hreached, hshape.mono (le_reserve hnew)⟩
  rests := by
    intro inner outer h
    obtain ⟨model, hslot⟩ := hwf.rests (rests_of_reserve hwf h)
    exact ⟨model, slots_reserve_some_iff.mpr hslot⟩
  acyclic := fun m h => hwf.acyclic m (TransGen.mono (fun _ _ => rests_of_reserve hwf) _ _ h)

/-! ## Filling a slot -/

/-- A model goes into a slot. -/
def fill (arena : Arena) (m : ModelId) (model : Model) : Arena where
  models := arena.models
  slots := arena.slots.setIfInBounds m (some model)

variable {m : ModelId} {model : Model}

theorem slots_fill (hopen : arena.slots[m]? = some none) (other : ModelId) :
    (arena.fill m model).slots[other]? =
      if other = m then some (some model) else arena.slots[other]? := by
  have hlt : m < arena.slots.size := (Array.getElem?_eq_some_iff.mp hopen).1
  simp only [fill, Array.getElem?_setIfInBounds, hlt, if_true, eq_comm]

theorem open_fill_iff (hwf : arena.WellFormed doc registry reach) (hm : arena.models id = some m)
    (hopen : arena.slots[m]? = some none) (schema : SchemaId) :
    (arena.fill m model).Open schema ↔ schema ≠ id ∧ arena.Open schema := by
  constructor
  · intro h
    obtain ⟨other, hother, hslot⟩ := h
    rw [slots_fill hopen] at hslot
    split at hslot
    · simp at hslot
    · rename_i hne
      refine ⟨?_, other, hother, hslot⟩
      intro heq
      subst heq
      exact hne (Option.some.inj (hother.symm.trans hm))
  · intro h
    obtain ⟨hne, other, hother, hslot⟩ := h
    refine ⟨other, hother, ?_⟩
    rw [slots_fill hopen, if_neg, hslot]
    intro heq
    subst heq
    exact hne (hwf.distinct hother hm)

/-- Where an alternative that is still open leads back below itself, a model that is built rests
only on models that were built before it. -/
theorem filled_of_rests_fill (hwf : arena.WellFormed doc registry reach)
    (hopen : arena.slots[m]? = some none)
    (hdown : ∀ inner schema, .model inner ∈ model.shape.alternatives →
      arena.models schema = some inner → arena.Open schema → doc.Descends schema model.schema)
    {inner outer : ModelId} (h : (arena.fill m model).Rests doc inner outer) :
    (outer ≠ m → arena.Rests doc inner outer) ∧
      ∃ built, arena.slots[inner]? = some (some built) := by
  obtain ⟨built, schema, hslot, hmem, hinner, hnot⟩ := h
  rw [slots_fill hopen] at hslot
  split at hslot
  · cases hslot
    refine ⟨fun hne => absurd ‹_› hne, ?_⟩
    -- An empty slot would make the alternative open, and then it leads back below itself.
    have hlt := hwf.bound hinner
    cases hcase : arena.slots[inner] with
    | some built => exact ⟨built, by rw [Array.getElem?_eq_getElem hlt, hcase]⟩
    | none =>
        have hempty : arena.slots[inner]? = some none := by
          rw [Array.getElem?_eq_getElem hlt, hcase]
        exact absurd (hdown inner schema hmem hinner ⟨inner, hinner, hempty⟩) hnot
  · have hrests : arena.Rests doc inner outer := ⟨built, schema, hslot, hmem, hinner, hnot⟩
    exact ⟨fun _ => hrests, hwf.rests hrests⟩

/-- Filling the slot of a schema keeps indices apart. -/
theorem Indexed.fill (h : arena.Indexed doc) (hm : arena.models model.schema = some m)
    (hopen : arena.slots[m]? = some none) : (arena.fill m model).Indexed doc where
  bound := by
    intro schema other hother
    have hsize : (arena.fill m model).slots.size = arena.slots.size := Array.size_setIfInBounds
    rw [hsize]
    exact h.bound hother
  distinct := fun hid hid' => h.distinct hid hid'
  isModel := fun hid => h.isModel hid
  owner := by
    intro other built hslot
    rw [slots_fill hopen] at hslot
    split at hslot
    · cases hslot
      exact ‹other = m› ▸ hm
    · exact h.owner hslot

/-- Filling an open slot with what its schema means keeps an arena well-formed. -/
theorem WellFormed.fill (hwf : arena.WellFormed doc registry reach)
    (hm : arena.models model.schema = some m) (hopen : arena.slots[m]? = some none)
    (hmeans : arena.Means doc registry reach model)
    (hdown : ∀ inner schema, .model inner ∈ model.shape.alternatives →
      arena.models schema = some inner → arena.Open schema → doc.Descends schema model.schema) :
    (arena.fill m model).WellFormed doc registry reach where
  bound := (hwf.indexed.fill hm hopen).bound
  distinct := (hwf.indexed.fill hm hopen).distinct
  isModel := (hwf.indexed.fill hm hopen).isModel
  owner := (hwf.indexed.fill hm hopen).owner
  means := by
    intro other built hslot
    rw [slots_fill hopen] at hslot
    split at hslot
    · cases hslot
      exact ⟨hmeans.name, hmeans.shape⟩
    · have hbuilt := hwf.means hslot
      exact ⟨hbuilt.name, hbuilt.shape⟩
  rests := by
    intro inner outer h
    obtain ⟨-, built, hbuilt⟩ := filled_of_rests_fill hwf hopen hdown h
    refine ⟨built, ?_⟩
    rw [slots_fill hopen, if_neg, hbuilt]
    intro heq
    subst heq
    simp [hopen] at hbuilt
  acyclic := by
    -- The new model is nobody's inner model yet, so a circle would be one of the old arena.
    have hne {inner outer : ModelId} (h : (arena.fill m model).Rests doc inner outer) :
        inner ≠ m := by
      obtain ⟨-, built, hbuilt⟩ := filled_of_rests_fill hwf hopen hdown h
      intro heq
      subst heq
      simp [hopen] at hbuilt
    -- The last model of a walk may be the new one; those before it are inner models.
    have hold {first last : ModelId} (h : TransGen ((arena.fill m model).Rests doc) first last)
        (hlast : last ≠ m) : TransGen (arena.Rests doc) first last := by
      induction h with
      | single hstep => exact .single ((filled_of_rests_fill hwf hopen hdown hstep).1 hlast)
      | tail _ hstep ih =>
          exact .tail (ih (hne hstep)) ((filled_of_rests_fill hwf hopen hdown hstep).1 hlast)
    intro other h
    obtain ⟨next, hstep, -⟩ := Relation.TransGen.head'_iff.mp h
    exact hwf.acyclic other (hold h (hne hstep))

/-- Filling the slot that was reserved for a schema closes what reserving opened. -/
theorem Grows.fill_reserve {built : Arena} (h : (arena.reserve id).Grows built)
    (hwf : arena.WellFormed doc registry reach) (hbuilt : built.WellFormed doc registry reach)
    (hnew : arena.models id = none) (hm : built.models id = some m)
    (hopen : built.slots[m]? = some none) : arena.Grows (built.fill m model) where
  models := fun schema other hother => h.models schema other (le_reserve hnew schema other hother)
  slots := by
    intro other old hslot
    have hslot' := h.slots (slots_reserve_some_iff.mpr hslot)
    rw [slots_fill hopen, if_neg, hslot']
    intro heq'
    subst heq'
    simp [hopen] at hslot'
  opens := by
    intro schema
    have hclosed : ¬ arena.Open id := by
      intro hcase
      obtain ⟨other, hother, -⟩ := hcase
      simp [hnew] at hother
    rw [open_fill_iff hbuilt hm hopen, h.opens, open_reserve_iff hwf hnew]
    constructor
    · intro hcase
      obtain ⟨hne, rfl | hother⟩ := hcase
      · exact absurd rfl hne
      · exact hother
    · intro hother
      exact ⟨fun heq => hclosed (heq ▸ hother), .inr hother⟩

end Arena

namespace Compilation

theorem arena_reserve (state : Compilation) (id : SchemaId) :
    (state.reserve id).arena = state.arena.reserve id := by
  simp only [arena, reserve, Arena.reserve, Arena.mk.injEq, and_true]
  funext schema
  simp only [model?, List.lookup_cons]
  by_cases h : schema = id
  · simp [h]
  · have hne : (schema == id) = false := by simpa using h
    simp [h, hne]

/-! ## Anchors of a compilation -/

theorem isSome_anchor?_iff {state : Compilation} {id : SchemaId} :
    (state.anchor? id).isSome = true ↔ ∃ anchor, (id, anchor) ∈ state.anchors := by
  unfold anchor?
  induction state.anchors with
  | nil => simp
  | cons entry rest ih =>
      obtain ⟨id', anchor⟩ := entry
      rw [List.lookup_cons]
      by_cases h : id = id'
      · subst h
        simp
      · have hne : (id == id') = false := by simpa using h
        simp [hne, ih, h]

theorem isSome_anchor?_addAnchor {state : Compilation} {id other : SchemaId} {name : String} :
    ((state.addAnchor id name).anchor? other).isSome = true ↔
      other = id ∨ (state.anchor? other).isSome = true := by
  simp only [isSome_anchor?_iff, addAnchor, List.mem_cons, Prod.mk.injEq]
  constructor
  · rintro ⟨anchor, ⟨rfl, -⟩ | hmem⟩
    · exact .inl rfl
    · exact .inr ⟨anchor, hmem⟩
  · rintro (rfl | ⟨anchor, hmem⟩)
    · exact ⟨_, .inl ⟨rfl, rfl⟩⟩
    · exact ⟨anchor, .inr hmem⟩

theorem isSome_anchor?_setVariants {state : Compilation} {id other : SchemaId}
    {variants : List ModelId} :
    ((state.setVariants id variants).anchor? other).isSome = true ↔
      (state.anchor? other).isSome = true := by
  simp only [isSome_anchor?_iff, setVariants, List.mem_map, Prod.mk.injEq, Prod.exists]
  constructor
  · rintro ⟨-, id', anchor, hmem, rfl, -⟩
    exact ⟨anchor, hmem⟩
  · rintro ⟨anchor, hmem⟩
    exact ⟨_, other, anchor, hmem, rfl, rfl⟩

end Compilation
end OpenApi
