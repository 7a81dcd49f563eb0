-- SUMMARY: How deeply the requests of a compilation can nest: each new one has less left to build.
import OpenApi.Proofs.Model.Arena
import Mathlib.Data.Finset.Card

/-!
# Budgets

A request is answered with a bound on how deeply others may be nested in it. What a
compilation can still do is counted in the schemas whose model or anchor is not there
yet and in those that are not being merged; each costs as many requests as the largest
type holds types. Reserving an index, registering an anchor and entering the members of
a schema each spend one schema.
-/

namespace OpenApi
namespace Compilation

variable (doc : Document) (state : Compilation)

/-- The schemas whose model is not there yet, or whose anchor for one that is an anchor. -/
def fresh : Finset SchemaId :=
  (Finset.range doc.schemas.size).filter fun id =>
    ((doc.schema id).isAnchor = false → state.model? id = none) ∧
      ((doc.schema id).isAnchor = true → state.anchor? id = none)

/-- The schemas whose members are not being merged. -/
def unmerged : Finset SchemaId :=
  (Finset.range doc.schemas.size).filter fun id => id ∉ state.merging

/-- How many requests can still be nested in each other. -/
def cost : Nat :=
  ((state.fresh doc).card + (state.unmerged doc).card) * (doc.schemas.size + 1)

variable {doc state} {before after : Compilation} {id : SchemaId}

theorem mem_fresh : id ∈ before.fresh doc ↔
    id < doc.schemas.size ∧ ((doc.schema id).isAnchor = false → before.model? id = none) ∧
      ((doc.schema id).isAnchor = true → before.anchor? id = none) := by
  simp [fresh]

theorem mem_unmerged : id ∈ before.unmerged doc ↔
    id < doc.schemas.size ∧ id ∉ before.merging := by
  simp [unmerged]

/-- The bound on requests is enough for a request for any type. -/
theorem cost_le_depth : state.cost doc + (doc.schemas.size + 1) ≤ doc.depth := by
  have hfresh := Finset.card_filter_le (Finset.range doc.schemas.size) fun id =>
    ((doc.schema id).isAnchor = false → state.model? id = none) ∧
      ((doc.schema id).isAnchor = true → state.anchor? id = none)
  have hunmerged := Finset.card_filter_le (Finset.range doc.schemas.size) fun id =>
    id ∉ state.merging
  rw [Finset.card_range] at hfresh hunmerged
  have hcount : (state.fresh doc).card + (state.unmerged doc).card + 1 ≤
      2 * doc.schemas.size + 1 := by
    rw [Nat.two_mul]
    exact Nat.succ_le_succ (Nat.add_le_add hfresh hunmerged)
  rw [cost, ← Nat.succ_mul]
  exact Nat.le_succ_of_le (Nat.mul_le_mul_right _ hcount)

/-! ## Spending -/

theorem fresh_subset (hmodels : ModelTable.Le before.model? after.model?)
    (hanchors : ∀ id, (before.anchor? id).isSome = true → (after.anchor? id).isSome = true) :
    after.fresh doc ⊆ before.fresh doc := by
  intro id hmem
  obtain ⟨hlt, hmodel, hanchor⟩ := mem_fresh.mp hmem
  refine mem_fresh.mpr ⟨hlt, fun hplain => ?_, fun his => ?_⟩
  · cases hm : before.model? id with
    | none => rfl
    | some m => cases (hmodel hplain).symm.trans (hmodels id m hm)
  · cases ha : before.anchor? id with
    | none => rfl
    | some anchor =>
        have hkept := hanchors id (by simp [ha])
        simp [hanchor his] at hkept

theorem unmerged_subset (hmerging : before.merging ⊆ after.merging) :
    after.unmerged doc ⊆ before.unmerged doc := by
  intro id hmem
  obtain ⟨hlt, hnot⟩ := mem_unmerged.mp hmem
  exact mem_unmerged.mpr ⟨hlt, fun h => hnot (hmerging h)⟩

theorem cost_le (hmodels : ModelTable.Le before.model? after.model?)
    (hanchors : ∀ id, (before.anchor? id).isSome = true → (after.anchor? id).isSome = true)
    (hmerging : before.merging ⊆ after.merging) : after.cost doc ≤ before.cost doc :=
  Nat.mul_le_mul_right _ (Nat.add_le_add (Finset.card_le_card (fresh_subset hmodels hanchors))
    (Finset.card_le_card (unmerged_subset hmerging)))

/-- Spending a schema leaves enough for a request for any type. -/
theorem cost_add_le (id : SchemaId) (hfresh : after.fresh doc ⊆ before.fresh doc)
    (hunmerged : after.unmerged doc ⊆ before.unmerged doc)
    (hspent : (id ∈ before.fresh doc ∧ id ∉ after.fresh doc) ∨
      (id ∈ before.unmerged doc ∧ id ∉ after.unmerged doc)) :
    after.cost doc + (doc.schemas.size + 1) ≤ before.cost doc := by
  rw [cost, ← Nat.succ_mul]
  apply Nat.mul_le_mul_right
  have hle := Finset.card_le_card hfresh
  have hle' := Finset.card_le_card hunmerged
  rcases hspent with ⟨hmem, hnot⟩ | ⟨hmem, hnot⟩
  · have hlt := Finset.card_lt_card (Finset.ssubset_iff_of_subset hfresh |>.mpr ⟨id, hmem, hnot⟩)
    omega
  · have hlt := Finset.card_lt_card (Finset.ssubset_iff_of_subset hunmerged |>.mpr ⟨id, hmem, hnot⟩)
    omega

theorem model?_reserve (state : Compilation) (id other : SchemaId) :
    (state.reserve id).model? other = if other = id then some state.slots.size
      else state.model? other :=
  congrFun (congrArg Arena.models (arena_reserve state id)) other

theorem model?_le_reserve (hnew : before.model? id = none) :
    ModelTable.Le before.model? (before.reserve id).model? := by
  have hle : before.arena.models.Le (before.arena.reserve id).models := Arena.le_reserve hnew
  rwa [← arena_reserve] at hle

theorem cost_reserve (hlt : id < doc.schemas.size) (hplain : (doc.schema id).isAnchor = false)
    (hmodel : before.model? id = none) :
    (before.reserve id).cost doc + (doc.schemas.size + 1) ≤ before.cost doc := by
  refine cost_add_le id (fresh_subset (model?_le_reserve hmodel) fun _ h => h)
    (unmerged_subset fun _ h => h) (.inl ⟨mem_fresh.mpr ⟨hlt, fun _ => hmodel, ?_⟩, ?_⟩)
  · simp [hplain]
  · simp [mem_fresh, model?_reserve, hplain]

theorem cost_addAnchor (hlt : id < doc.schemas.size) (his : (doc.schema id).isAnchor = true)
    (hanchor : before.anchor? id = none) (name : String) :
    (before.addAnchor id name).cost doc + (doc.schemas.size + 1) ≤ before.cost doc := by
  refine cost_add_le id
    (fresh_subset (fun _ _ h => h) fun _ h => isSome_anchor?_addAnchor.mpr (.inr h))
    (unmerged_subset fun _ h => h) (.inl ⟨mem_fresh.mpr ⟨hlt, ?_, fun _ => hanchor⟩, ?_⟩)
  · simp [his]
  · intro hmem
    have hknown : ((before.addAnchor id name).anchor? id).isSome = true :=
      isSome_anchor?_addAnchor.mpr (.inl rfl)
    simp [(mem_fresh.mp hmem).2.2 his] at hknown

theorem cost_merging (hlt : id < doc.schemas.size) (hnew : id ∉ before.merging) :
    ({ before with merging := id :: before.merging } : Compilation).cost doc +
      (doc.schemas.size + 1) ≤ before.cost doc := by
  refine cost_add_le id (fresh_subset (fun _ _ h => h) fun _ h => h)
    (unmerged_subset fun _ h => List.mem_cons_of_mem _ h)
    (.inr ⟨mem_unmerged.mpr ⟨hlt, hnew⟩, ?_⟩)
  simp [mem_unmerged]

end Compilation
end OpenApi
