-- SUMMARY: Decoding without defaults ends, however the models refer to each other.
import OpenApi.Proofs.Compilation.Result
import OpenApi.Proofs.Decoding.Unbounded

/-!
# Where decoding ends

A check of a field or an item goes further into the value. A check of an alternative or
a variant goes on with the same value, but an alternative is no anchor, so such checks
follow the alternatives of unions and come to no union twice. Without defaults there
are no other checks: the checks that a check asks for are well founded, whatever the
fields, items, anchors and unions refer to.
-/

namespace OpenApi

open Relation (TransGen)

namespace ModelSet

variable {set : ModelSet}

variable (set) in
/-- No field has a default. -/
def NoDefaults : Prop :=
  ∀ m, ∀ field ∈ (set.model m).fields, field.default = none

theorem NoDefaults.noDefaultCycle (h : set.NoDefaults) : set.NoDefaultCycle := by
  intro goal hdefault
  obtain ⟨m, fields, field, hshape, hmem, -, -, hsome⟩ := hdefault
  have hfield : field ∈ (set.model m).fields := by
    rw [Model.fields, hshape]
    exact hmem
  cases (h m field hfield).symm.trans hsome

end ModelSet

namespace Document

variable {doc : Document} {set : ModelSet}

/-- Decoding with a compiled set is well founded if no union is its own alternative and no field
has a default. The check that knows of no bound is there, only once, and answers what decoding
answers at its depth or any greater. -/
theorem compile_decode_wellFounded (h : doc.compile = .ok set) (hunions : set.NoUnionCycle)
    (hdefaults : set.NoDefaults) :
    WellFounded (fun next goal => set.Consults goal next) ∧
    (∃ run, set.Unbounded run ∧ (∀ other, set.Unbounded other → other = run) ∧
      ∀ type value report depth, set.depth type value ≤ depth →
        Check.upTo set depth type value report = some (run type value report)) ∧
    ∀ type value, (∃ answer, set.decode type value = .ok answer) ∨
      ∃ failure, set.decode type value = .error (.failed failure) ∧ failure.violations ≠ [] := by
  have hwf := compile_wellFormed h
  have htags := ModelSet.tagsInRange hwf
  have hacyclic := ModelSet.not_transGen_consults hunions hdefaults.noDefaultCycle
    (ModelSet.anchor_notMem_alternatives hwf)
  have hends (type : Ty) (value : Json) : set.EndsWithin (set.depth type value) (type, value) :=
    ModelSet.endsWithin_depth fun goal _ => hacyclic goal
  have hanswer (type : Ty) (value : Json) (report : Report) :
      ∃ outcome, Check.upTo set (set.depth type value) type value report = some outcome :=
    Option.isSome_iff_exists.mp ((Check.upTo_isSome_iff htags).mpr (hends type value))
  refine ⟨⟨fun goal => (hends goal.1 goal.2).acc⟩, ?_, fun type value => ?_⟩
  · obtain ⟨run, hrun⟩ := ModelSet.exists_unbounded fun type value report =>
      (hanswer type value report).imp fun outcome h => ⟨_, h⟩
    refine ⟨run, hrun, fun other hother => ?_, fun type value report depth hdepth => ?_⟩
    · funext type value report
      obtain ⟨outcome, houtcome⟩ := hanswer type value report
      rw [hother.eq_of_upTo houtcome, hrun.eq_of_upTo houtcome]
    · obtain ⟨outcome, houtcome⟩ := hanswer type value report
      rw [hrun.eq_of_upTo houtcome]
      exact Check.upTo_mono hdepth houtcome
  · obtain ⟨⟨answer, after⟩, houtcome⟩ := hanswer type value {}
    rcases ModelSet.decode_of_upTo htags houtcome with ⟨found, -, -, hok⟩ | ⟨-, hsome, -, herror⟩
    · exact .inl ⟨found, hok⟩
    · exact .inr ⟨_, herror, by simpa using hsome⟩

/-! ## Trees -/

/-- The discriminator of tree parts. -/
def partKind : Discriminator where
  property := "kind"
  mapping := some [("node", "#/components/schemas/Node")]

/-- Trees that contain themselves in a field, in a list of parts, and as a member of a union. -/
def tree : Document where
  dialect := .openApi30
  schemas := #[
    { dialect := .openApi30, identity := some "Node", type := some .object
      properties := [
        ("kind", { id := 3 }),
        ("next", { id := 1, reference := some "#/components/schemas/Branch" }),
        ("parts", { id := 4 })] },
    { dialect := .openApi30, identity := some "Branch"
      anyOf := [{ id := 0, reference := some "#/components/schemas/Node" }, { id := 5 }] },
    { dialect := .openApi30, identity := some "Part", discriminator := some partKind },
    { dialect := .openApi30, identity := some "Node.kind", type := some .string },
    { dialect := .openApi30, identity := some "Node.parts", type := some .array
      items := some { id := 2, reference := some "#/components/schemas/Part" } },
    { dialect := .openApi30, identity := some "Branch.anyOf.1", type := some .array
      items := some { id := 1, reference := some "#/components/schemas/Branch" } }]
  named := [("Node", 0), ("Branch", 1), ("Part", 2)]

/-- The models of `tree`. -/
def treeModels : ModelSet where
  models := #[
    { name := "Node", schema := 0
      shape := .object [
        { name := "kind", type := .literal "node" },
        { name := "next", type := .model 1 },
        { name := "parts", type := .array (.anchor 2) }] },
    { name := "Branch", schema := 1
      shape := .union [.model 0, .array (.model 1)] none [] }]
  bySchema := [(1, 1), (0, 0)]
  roots := [("Node", some (.model 0)), ("Branch", some (.model 1)), ("Part", none)]
  anchors := [(2, { name := "Part", variants := [0] })]

set_option maxRecDepth 2000 in
theorem tree_compile : tree.compile = .ok treeModels := by rfl

private theorem treeModels_alternative {outer inner : ModelId}
    (h : treeModels.Alternative outer inner) : outer = 1 ∧ inner = 0 := by
  match outer, h with
  | 0, h => cases h
  | 1, h =>
      have hmem : Ty.model inner ∈ [Ty.model 0, .array (.model 1)] := h
      simpa using hmem
  | outer + 2, h => exact absurd h.lt_size (Nat.not_lt.mpr (Nat.le_add_left 2 outer))

private theorem treeModels_noDefaults : treeModels.NoDefaults := by
  intro m field hmem
  match m with
  | 0 =>
      have hfields : field ∈ [
          { name := "kind", type := .literal "node" }, { name := "next", type := .model 1 },
          { name := "parts", type := .array (.anchor 2) }] := hmem
      simp only [List.mem_cons, List.not_mem_nil, or_false] at hfields
      rcases hfields with rfl | rfl | rfl <;> rfl
  | 1 => cases hmem
  | m + 2 =>
      rw [Model.fields, ModelSet.shape_of_size_le (Nat.le_add_left 2 m)] at hmem
      cases hmem

/-- A tree with a part inside its next tree. -/
def nestedTree : Json :=
  .obj [("next", .obj [("parts", .arr [.obj [("kind", .str "node")]])])]

/-- The instance that `nestedTree` is. -/
def nestedTreeInstance : Instance :=
  .object 0 [("next", .variant 1 0 (.object 0 [
    ("parts", .array [.object 0 [("kind", .scalar (.text "node"))]])]))]

/-- Trees refer to themselves in every way, and their checks end. -/
theorem tree_decode_wellFounded :
    tree.compile = .ok treeModels ∧ treeModels.NoUnionCycle ∧ treeModels.NoDefaults ∧
      WellFounded (fun next goal => treeModels.Consults goal next) ∧
      ∃ run, treeModels.Unbounded run ∧
        run (.model 0) nestedTree {} = (some nestedTreeInstance, {}) := by
  have hunions : treeModels.NoUnionCycle := by
    intro m hcycle
    obtain ⟨inner, hstep, -⟩ := TransGen.head'_iff.mp hcycle
    obtain ⟨outer, -, hlast⟩ := TransGen.tail'_iff.mp hcycle
    cases (treeModels_alternative hstep).1.symm.trans (treeModels_alternative hlast).2
  obtain ⟨hwell, ⟨run, hrun, -, hanswers⟩, -⟩ :=
    compile_decode_wellFounded tree_compile hunions treeModels_noDefaults
  have hcheck : Check.upTo treeModels 7 (.model 0) nestedTree {} =
      some (some nestedTreeInstance, {}) := by rfl
  exact ⟨tree_compile, hunions, treeModels_noDefaults, hwell, run, hrun, hrun.eq_of_upTo hcheck⟩

end Document
end OpenApi
