-- SUMMARY: Unions that are alternatives of themselves: where compilation leaves such a cycle.
import OpenApi.Proofs.Compilation.Result

/-!
# Cycles of unions

A value is checked against the alternatives of a union without looking further into
the value, so a union must not be an alternative of itself through alternatives
alone. Compilation refuses a union that is met again while it is on the chain of
unions. The chain starts anew in a field or an item, and a union that is still being
built is then answered as if it were complete. So a cycle gets past the check only
where some member on it leads back to its union by a walk below it as well.
-/

namespace OpenApi

open Relation (ReflTransGen TransGen)

namespace ModelSet

/-! ## Alternatives and members -/

section

variable {doc : Document} {registry : Registry} {reach : Context → SchemaId → Prop}
variable {set : ModelSet} (hwf : set.arena.WellFormed doc registry reach)
include hwf

theorem forSchema_of_alternative {outer inner : ModelId} (h : set.Alternative outer inner) :
    set.forSchema (set.model inner).schema = some inner := by
  obtain ⟨context, -, hshape⟩ := means_model hwf h.lt_size
  obtain ⟨edge, -, hinner⟩ := hshape.member_of_alternative h
  exact schema_of_forSchema hwf hinner ▸ hinner

/-- An alternative was made from a member of the schema that the union was made from. -/
theorem offers_of_alternative {outer inner : ModelId} (h : set.Alternative outer inner) :
    doc.Offers (set.model outer).schema (set.model inner).schema := by
  obtain ⟨context, -, hshape⟩ := means_model hwf h.lt_size
  obtain ⟨edge, hmem, hinner⟩ := hshape.member_of_alternative h
  refine ⟨hwf.isModel (forSchema_schema hwf h.lt_size), edge, hmem, ?_⟩
  exact (schema_of_forSchema hwf hinner).symm

/-- A member that has a model is an alternative. -/
theorem alternative_of_offers {union member : SchemaId} {outer : ModelId}
    (houter : set.forSchema union = some outer) (h : doc.Offers union member)
    (hmodel : doc.IsModel member) :
    ∃ inner, set.forSchema member = some inner ∧ set.Alternative outer inner := by
  obtain ⟨-, edge, hmem, rfl⟩ := h
  obtain ⟨context, -, hshape⟩ := means_model hwf (lt_size_of_forSchema hwf houter)
  rw [schema_of_forSchema hwf houter] at hshape
  exact hshape.alternative_of_member hmem hmodel

theorem transGen_offers {outer inner : ModelId} (h : TransGen set.Alternative outer inner) :
    TransGen doc.Offers (set.model outer).schema (set.model inner).schema :=
  h.lift (fun m => (set.model m).schema) fun _ _ hstep => offers_of_alternative hwf hstep

theorem transGen_alternative {union last : SchemaId} {outer : ModelId}
    (houter : set.forSchema union = some outer) (h : TransGen doc.Offers union last)
    (hmodel : doc.IsModel last) :
    ∃ inner, set.forSchema last = some inner ∧ TransGen set.Alternative outer inner := by
  induction h with
  | single hstep =>
      obtain ⟨inner, hinner, halt⟩ := alternative_of_offers hwf houter hstep hmodel
      exact ⟨inner, hinner, .single halt⟩
  | tail _ hstep ih =>
      obtain ⟨middle, hmiddle, hwalk⟩ := ih hstep.1
      obtain ⟨inner, hinner, halt⟩ := alternative_of_offers hwf hmiddle hstep hmodel
      exact ⟨inner, hinner, hwalk.tail halt⟩

theorem noUnionCycle_iff :
    set.NoUnionCycle ↔ ∀ id, (set.forSchema id).isSome → ¬ TransGen doc.Offers id id := by
  constructor
  · intro h id hknown hcycle
    obtain ⟨m, hm⟩ := Option.isSome_iff_exists.mp hknown
    obtain ⟨m', hm', hwalk⟩ := transGen_alternative hwf hm hcycle (hwf.isModel hm)
    cases hm.symm.trans hm'
    exact h m hwalk
  · intro h m hcycle
    obtain ⟨next, hstep, -⟩ := TransGen.head'_iff.mp hcycle
    refine h (set.model m).schema ?_ (transGen_offers hwf hcycle)
    rw [forSchema_schema hwf hstep.lt_size]
    rfl

/-! ## Walks back -/

/-- A walk through alternatives either has one that leads back to its union by a walk below it, or
goes up along models that were built one after another. -/
theorem descends_or_rests {first last : ModelId} (h : TransGen set.Alternative first last) :
    (∃ outer inner, ReflTransGen set.Alternative first outer ∧ set.Alternative outer inner ∧
      ReflTransGen set.Alternative inner last ∧
      doc.Descends (set.model inner).schema (set.model outer).schema) ∨
    TransGen (set.arena.Rests doc) last first := by
  have hcase {outer inner : ModelId} (hstep : set.Alternative outer inner) :
      doc.Descends (set.model inner).schema (set.model outer).schema ∨
        set.arena.Rests doc inner outer := by
    by_cases hdown : doc.Descends (set.model inner).schema (set.model outer).schema
    · exact .inl hdown
    · exact .inr ⟨set.model outer, (set.model inner).schema,
        slots_arena_iff.mpr ⟨hstep.lt_size, rfl⟩, hstep, forSchema_of_alternative hwf hstep, hdown⟩
  induction h with
  | single hstep =>
      rcases hcase hstep with hdown | hrests
      · exact .inl ⟨_, _, .refl, hstep, .refl, hdown⟩
      · exact .inr (.single hrests)
  | tail hwalk hstep ih =>
      rcases ih with ⟨outer, inner, hfirst, halt, hlast, hdown⟩ | hup
      · exact .inl ⟨outer, inner, hfirst, halt, hlast.tail hstep, hdown⟩
      · rcases hcase hstep with hdown | hrests
        · exact .inl ⟨_, _, hwalk.to_reflTransGen, hstep, .refl, hdown⟩
        · exact .inr (.head hrests hup)

end
end ModelSet

/-! ## Compiled unions -/

namespace Document

/-- Two unions that are members of each other. Before the second, the first has an object as a
member that has a field of the type of the second. -/
def loopBehindField : Document where
  dialect := .openApi30
  schemas := #[
    { dialect := .openApi30, identity := some "U"
      anyOf := [{ id := 1, reference := some "#/components/schemas/A" },
        { id := 2, reference := some "#/components/schemas/V" }] },
    { dialect := .openApi30, identity := some "A", type := some .object
      properties := [("f", { id := 2, reference := some "#/components/schemas/V" })] },
    { dialect := .openApi30, identity := some "V"
      anyOf := [{ id := 0, reference := some "#/components/schemas/U" }, { id := 3 }] },
    { dialect := .openApi30, identity := some "V.anyOf.1", type := some .integer }]
  named := [("U", 0), ("A", 1), ("V", 2)]

/-- The second union is built for the field, where the first is not on the chain. -/
private theorem loopBehindField_alternatives :
    ∃ set, loopBehindField.compile = .ok set ∧ TransGen set.Alternative 0 0 := by
  refine ⟨_, rfl, .head (b := 2) ?_ (.single ?_)⟩
  · exact List.mem_cons_of_mem _ List.mem_cons_self
  · exact List.mem_cons_self

/-- A compiled set has no cycle of unions exactly where no schema that it has a model for comes
back to itself through members of unions alone. Each cycle that it has passes from some union to a
member whose schema leads back to that union by a walk below it. -/
theorem compile_unionCycles {doc : Document} {set : ModelSet} (h : doc.compile = .ok set) :
    (set.NoUnionCycle ↔ ∀ id, (set.forSchema id).isSome → ¬ TransGen doc.Offers id id) ∧
    ∀ m, TransGen set.Alternative m m →
      ∃ outer inner, ReflTransGen set.Alternative m outer ∧ set.Alternative outer inner ∧
        ReflTransGen set.Alternative inner m ∧
        doc.Descends (set.model inner).schema (set.model outer).schema := by
  have hwf := compile_wellFormed h
  refine ⟨ModelSet.noUnionCycle_iff hwf, ?_⟩
  intro m hcycle
  rcases ModelSet.descends_or_rests hwf hcycle with hdown | hup
  · exact hdown
  · -- Models that rest on each other were built one after another, which is no circle.
    exact absurd hup (hwf.acyclic m)

theorem loopBehindField_descends :
    ∃ set, loopBehindField.compile = .ok set ∧ ∃ outer inner, set.Alternative outer inner ∧
      loopBehindField.Descends (set.model inner).schema (set.model outer).schema := by
  obtain ⟨set, hcompile, hcycle⟩ := loopBehindField_alternatives
  obtain ⟨outer, inner, -, halt, -, hdown⟩ := (compile_unionCycles hcompile).2 0 hcycle
  exact ⟨set, hcompile, outer, inner, halt, hdown⟩

/-- Compilation accepts two unions that are alternatives of each other. -/
theorem loopBehindField_unionCycle :
    ∃ set, loopBehindField.compile = .ok set ∧ ¬ set.NoUnionCycle := by
  obtain ⟨set, hcompile, hcycle⟩ := loopBehindField_alternatives
  exact ⟨set, hcompile, fun h => h 0 hcycle⟩

end Document
end OpenApi
