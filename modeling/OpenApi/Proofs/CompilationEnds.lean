-- SUMMARY: Compilation ends, however the schemas of a document refer to each other.
import OpenApi.Proofs.AllOfCycle
import OpenApi.Proofs.Compilation.Depth

/-!
# Where compilation ends

Objects, `allOf` members, unions, anchors and mappings may refer to each other in any
cycles: a model and an anchor are built once, and a schema is not merged into itself. Only
an array that holds itself through arrays alone has no type. In a document without one,
requests are never nested more deeply than the depth of a compilation, and this depth
might as well not be there.
-/

namespace OpenApi

open Relation (TransGen)

namespace Document

variable {doc : Document}

/-! ## Runs of a compilation -/

theorem namedWith_concurs {ask ask' : Requests} (h : ask.Concur doc doc.depth ask')
    (name : String) {state : Compilation} :
    Compile.Concurs doc (doc.namedWith ask name) (doc.namedWith ask' name) state := by
  unfold namedWith
  split
  · exact Compile.concurs_throw _
  · exact Compile.concurs_bind h.type_concurs fun type _ =>
      Compile.concurs_bind (Compile.concurs_modify _) fun _ _ => Compile.concurs_pure type

theorem compileNamedWith_concurs {ask ask' : Requests} (h : ask.Concur doc doc.depth ask')
    {state : Compilation} :
    Compile.Concurs doc (doc.compileNamedWith ask) (doc.compileNamedWith ask') state := by
  unfold compileNamedWith
  refine Compile.concurs_bind (Compile.concurs_forM ?_) fun _ _ => Compile.concurs_forM ?_
  · intro entry _ now
    obtain ⟨name, id⟩ := entry
    dsimp only
    split
    · exact Compile.concurs_map _ h.type_concurs
    · exact Compile.concurs_pure _
  · intro entry _ now
    exact Compile.concurs_map _ (namedWith_concurs h entry.1)

/-- Without arrays that hold themselves through arrays alone a compilation has an end. -/
theorem compileWith_ne_endless {ask : Requests} (h : ask.Concur doc doc.depth ask)
    (harrays : doc.NoArrayCycle) : doc.compileWith ask ≠ .error .endless := by
  have hnamed := (compileNamedWith_concurs h : Compile.Concurs doc _ _ {}).ne_endless harrays
  unfold compileWith
  split
  · intro hfinish
    obtain ⟨error, -, herror⟩ := exists_of_mapError_eq_error hfinish
    cases herror
  · rename_i stop after hrun
    rw [hrun] at hnamed
    exact fun heq => hnamed (congrArg Except.error (Except.error.inj heq))

/-! ## Compilation -/

/-- In a document without arrays that hold themselves through arrays alone, the requests of a
compilation are those without a bound, of which there are no others; none of them is nested so
deeply in any state that a greater depth makes a difference. Compilation gives a model set or an
error, and always has an end. -/
theorem compile_ends (harrays : doc.NoArrayCycle) :
    (∀ registry, doc.Unbounded registry (requests doc registry doc.depth) ∧
      (∀ ask, doc.Unbounded registry ask → ask = requests doc registry doc.depth) ∧
      (∀ depth, doc.depth ≤ depth →
        requests doc registry depth = requests doc registry doc.depth) ∧
      ∀ context id state,
        ((requests doc registry doc.depth).type context id state).1 ≠ .error .endless) ∧
    ((∃ set, doc.compile = .ok set) ∨ ∃ error, doc.compile = .error (.failed error)) := by
  have hself (registry : Registry) : (requests doc registry doc.depth).Concur doc doc.depth
      (requests doc registry doc.depth) := requests_concur (Nat.le_refl _)
  refine ⟨fun registry => ?_, ?_⟩
  · have hnext : requests doc registry doc.depth = requests doc registry (doc.depth + 1) :=
      (requests_eq_of_depth_le (Nat.le_succ doc.depth)).symm
    refine ⟨⟨fun context id => ?_, fun context name id => ?_⟩, fun ask hask => ?_,
      fun depth => requests_eq_of_depth_le, fun context id state => ?_⟩
    · exact congrArg (fun ask => ask.type context id) hnext
    · exact congrArg (fun ask => ask.merged context name id) hnext
    · exact ((hask.concur harrays doc.depth).eq).symm
    · exact (hself registry).type_concurs.ne_endless harrays
  · have hne := compileWith_ne_endless (hself .standard) harrays
    rw [← compile_eq_compileWith] at hne
    cases hcompile : doc.compile with
    | ok set => exact .inl ⟨set, rfl⟩
    | error stop =>
        cases stop with
        | failed error => exact .inr ⟨error, rfl⟩
        | endless => exact absurd hcompile hne

/-! ## Cells -/

/-- Cells and boxes that lead to each other through members, fields, alternatives and arrays, among
them an array of arrays. -/
def cells : Document where
  dialect := .openApi30
  schemas := #[
    { dialect := .openApi30, identity := some "Cell"
      allOf := [{ id := 1, reference := some "#/components/schemas/Owned" }]
      properties := [("rows", { id := 3 })] },
    { dialect := .openApi30, identity := some "Owned"
      properties := [("owner", { id := 2, reference := some "#/components/schemas/Box" })] },
    { dialect := .openApi30, identity := some "Box"
      oneOf := [{ id := 0, reference := some "#/components/schemas/Cell" }, { id := 5 }] },
    { dialect := .openApi30, identity := some "Cell.rows", type := some .array
      items := some { id := 4 } },
    { dialect := .openApi30, identity := some "Cell.rows.items", type := some .array
      items := some { id := 0, reference := some "#/components/schemas/Cell" } },
    { dialect := .openApi30, identity := some "Box.oneOf.1", type := some .array
      items := some { id := 2, reference := some "#/components/schemas/Box" } }]
  named := [("Cell", 0), ("Owned", 1), ("Box", 2)]

/-- The models of `cells`. -/
def cellsModels : ModelSet where
  models := #[
    { name := "Cell", schema := 0
      shape := .object [
        { name := "owner", type := .model 1 },
        { name := "rows", type := .array (.array (.model 0)) }] },
    { name := "Box", schema := 2, shape := .union [.model 0, .array (.model 1)] none [] },
    { name := "Owned", schema := 1, shape := .object [{ name := "owner", type := .model 1 }] }]
  bySchema := [(1, 2), (2, 1), (0, 0)]
  roots := [("Cell", some (.model 0)), ("Owned", some (.model 2)), ("Box", some (.model 1))]

private theorem cells_itemOf {array item : SchemaId} (h : cells.ItemOf array item) :
    (array = 3 ∧ item = 4) ∨ (array = 4 ∧ item = 0) ∨ (array = 5 ∧ item = 2) := by
  obtain ⟨htype, edge, hitems, rfl⟩ := h
  match array with
  | 0 | 1 | 2 => cases htype
  | 3 | 4 | 5 =>
      cases hitems
      simp
  | array + 6 => cases htype

private theorem cells_noArrayCycle : cells.NoArrayCycle := by
  intro id hcycle
  obtain ⟨first, hfirst, hwalk⟩ := TransGen.head'_iff.mp hcycle
  obtain ⟨last, -, hlast⟩ := TransGen.tail'_iff.mp hcycle
  have hitem := cells_itemOf hlast
  rcases cells_itemOf hfirst with ⟨rfl, rfl⟩ | ⟨rfl, rfl⟩ | ⟨rfl, rfl⟩
  · simp at hitem
  · -- The items of the inner array are cells, and from these no array is reached.
    rcases hwalk.cases_head with heq | ⟨next, hnext, -⟩
    · cases heq
    · simpa using cells_itemOf hnext
  · simp at hitem

/-- The cells lead to each other in every way but through arrays alone, and are compiled. -/
theorem cells_ends :
    cells.NoArrayCycle ∧
      cells.Unbounded .standard (requests cells .standard cells.depth) ∧
      cells.compile = .ok cellsModels := by
  have hcompile : cells.compile = .ok cellsModels := by rfl
  exact ⟨cells_noArrayCycle, ((compile_ends cells_noArrayCycle).1 .standard).1, hcompile⟩

end Document
end OpenApi
