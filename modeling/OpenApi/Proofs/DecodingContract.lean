-- SUMMARY: What decoding with a compiled model set accepts, and which instances it makes.
import OpenApi.Proofs.Compilation.Result
import OpenApi.Proofs.Decoding.Depth

/-!
# Decoding with compiled models

The tags of a compiled set select alternatives that are there, and no alternative is
an anchor. So decoding terminates unless unions or defaults contain themselves, and
where it terminates it accepts what the contract accepts.
-/

namespace OpenApi.Document

/-- A decoding with a compiled set terminates unless a union or a default contains itself. Where it
terminates, it succeeds exactly on the values that the type accepts, with the instance that the type
makes of the value. -/
theorem compile_decode {doc : Document} {set : ModelSet} (h : doc.compile = .ok set) :
    (set.NoUnionCycle → set.NoDefaultCycle → ∀ type value, set.Terminates type value) ∧
    ∀ type value, set.Terminates type value →
      ((∃ answer, set.decode type value = .ok answer) ↔ set.Accepts type value) ∧
      ∀ answer, set.decode type value = .ok answer → set.Reads type value answer := by
  have hwf := compile_wellFormed h
  have htags := ModelSet.tagsInRange hwf
  refine ⟨fun hunions hdefaults type value => ?_, fun type value hends => ?_⟩
  · -- An anchor among alternatives could lead in a circle without a union cycle.
    have hplain := ModelSet.anchor_notMem_alternatives hwf
    exact ModelSet.terminates_of_noCycles hunions hdefaults htags hplain type value
  · rcases hends.decode htags with ⟨answer, hok, hread⟩ | ⟨⟨failure, hfailure⟩, hnot⟩
    · refine ⟨iff_of_true ⟨answer, hok⟩ hread.accepts, fun answer' hok' => ?_⟩
      cases hok.symm.trans hok'
      exact hread
    · refine ⟨iff_of_false ?_ hnot, fun answer hok => ?_⟩
      · intro hsome
        obtain ⟨answer, hok⟩ := hsome
        cases hok.symm.trans hfailure
      · cases hok.symm.trans hfailure

/-- A union of integers and texts. -/
def numberOrText : Document where
  dialect := .openApi30
  schemas := #[
    { dialect := .openApi30, identity := some "Key", anyOf := [{ id := 1 }, { id := 2 }] },
    { dialect := .openApi30, identity := some "Key.anyOf.0", type := some .integer },
    { dialect := .openApi30, identity := some "Key.anyOf.1", type := some .string }]
  named := [("Key", 0)]

/-- The models of `numberOrText`. -/
def numberOrTextModels : ModelSet where
  models := #[
    { name := "Key", schema := 0, shape := .union [.scalar .integer, .scalar .text] none [] }]
  bySchema := [(0, 0)]
  roots := [("Key", some (.model 0))]

private theorem numberOrTextModels_shape (m : ModelId) :
    (∀ inner, ¬ numberOrTextModels.Alternative m inner) ∧
      ∀ fields, (numberOrTextModels.model m).shape = .object fields → fields = [] := by
  cases m with
  | zero =>
      refine ⟨fun inner h => ?_, fun fields hshape => by cases hshape⟩
      have hmem : Ty.model inner ∈ [Ty.scalar .integer, .scalar .text] := h
      simp at hmem
  | succ m =>
      have hshape : (numberOrTextModels.model (m + 1)).shape = .object [] :=
        ModelSet.shape_of_size_le (Nat.le_add_left 1 m)
      refine ⟨fun inner h => ?_, fun fields hshape' => ?_⟩
      · rw [ModelSet.Alternative, hshape] at h
        cases h
      · cases hshape.symm.trans hshape'
        rfl

/-- Decoding with a union of integers and texts terminates, reads a text by the second of them, and
refuses what is neither. -/
theorem numberOrText_decode :
    numberOrText.compile = .ok numberOrTextModels ∧
      numberOrTextModels.NoUnionCycle ∧ numberOrTextModels.NoDefaultCycle ∧
      (∀ value, numberOrTextModels.Terminates (.model 0) value) ∧
      numberOrTextModels.Reads (.model 0) (.str "a") (.variant 0 1 (.scalar (.text "a"))) ∧
      ¬ numberOrTextModels.Accepts (.model 0) (.bool true) := by
  have hcompile : numberOrText.compile = .ok numberOrTextModels := rfl
  have hunions : numberOrTextModels.NoUnionCycle := by
    intro m hcycle
    obtain ⟨inner, hstep, -⟩ := Relation.TransGen.head'_iff.mp hcycle
    exact (numberOrTextModels_shape m).1 inner hstep
  have hdefaults : numberOrTextModels.NoDefaultCycle := by
    intro goal hdefault
    obtain ⟨m, fields, field, hshape, hmem, -⟩ := hdefault
    rw [(numberOrTextModels_shape m).2 fields hshape] at hmem
    cases hmem
  obtain ⟨hends, hspec⟩ := compile_decode hcompile
  have hends' := hends hunions hdefaults (.model 0)
  refine ⟨hcompile, hunions, hdefaults, hends', (hspec _ _ (hends' _)).2 _ rfl, ?_⟩
  intro haccepts
  obtain ⟨answer, hok⟩ := (hspec _ _ (hends' _)).1.mpr haccepts
  cases hok

end OpenApi.Document
