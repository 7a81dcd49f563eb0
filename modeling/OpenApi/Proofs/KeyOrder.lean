-- SUMMARY: Decoding does not look at the order of keys, but lists what it finds in their order.
import OpenApi.Proofs.Compilation.Result
import OpenApi.Proofs.Decoding.Parallel
import OpenApi.Proofs.ViolationPlaces

/-!
# The order of keys

Fields are checked in the order of the model, so the order in which a value has its keys
does not decide on anything. It shows only in a refusal: keys that are not declared are
reported in the order of the value, and what is found instead of a tag or a permitted
value is quoted as it stands.
-/

namespace OpenApi

/-! ## What is reported whatever the order -/

/-- The name of what is wrong, without the details. -/
def ViolationKind.name : ViolationKind → String
  | .missingField => "MissingField"
  | .unexpectedField _ => "UnexpectedField"
  | .wrongType .. => "WrongType"
  | .invalidFormat .. => "InvalidFormat"
  | .notInEnum .. => "NotInEnum"
  | .literalMismatch .. => "LiteralMismatch"
  | .missingDiscriminator _ => "MissingDiscriminator"
  | .uncoveredDiscriminator .. => "UncoveredDiscriminator"
  | .noMatchingAlternative .. => "NoMatchingAlternative"
  | .noVariant _ => "NoVariant"

/-- The place of a violation and the name of what is wrong there. -/
def Violation.outline (violation : Violation) : Path × String :=
  (violation.path, violation.kind.name)

/-- The violations of a list in outline. -/
def outlines (found : List Violation) : List (Path × String) := found.map Violation.outline

/-- Values in any order of keys, and reports that have the same outlines in any order. -/
def Likeness.keyOrder : Likeness where
  values := Json.Reordered
  kinds kind kind' := kind.name = kind'.name
  reports report report' := report.path = report'.path ∧
    (outlines report.violations.toList).Perm (outlines report'.violations.toList)

theorem outlines_add (report : Report) (found : List Violation) :
    outlines (report.add found).violations.toList =
      outlines report.violations.toList ++ outlines (found.map (·.below report.path)) := by
  simp [outlines, Report.add]

theorem outlines_undeclaredKeys {model : Model} {members members' : Keyed Json}
    (h : members.keys.Perm members'.keys) (place : Path) :
    (outlines ((model.undeclaredKeys members).map (·.below place))).Perm
      (outlines ((model.undeclaredKeys members').map (·.below place))) :=
  (((h.filter _).map _).map _).map _

theorem Likeness.keyOrder_lawful : keyOrder.Lawful where
  reordered h := h
  self value := .refl value
  items h := by
    cases h with
    | arr hitems => exact hitems.forall₂
  member h hvalue hvalue' := by
    cases h with
    | obj _ hmembers => exact hmembers _ _ _ hvalue hvalue'
  sameKind _ := rfl
  notInEnum _ _ := rfl
  literalMismatch _ _ := rfl
  size h := by simpa [outlines] using h.2.length_eq
  fresh h := ⟨h.1, .refl _⟩
  enter segment h := ⟨congrArg (· ++ [segment]) h.1, h.2⟩
  leave h := ⟨congrArg List.dropLast h.1, h.2⟩
  record {report report' kind kind'} h hkind := by
    refine ⟨h.1, ?_⟩
    have hlast : (⟨report.path, kind⟩ : Violation).outline =
        (⟨report'.path, kind'⟩ : Violation).outline := congrArg₂ Prod.mk h.1 hkind
    have houtlines := h.2.append_right [(⟨report.path, kind⟩ : Violation).outline]
    simpa [Report.record, outlines, hlast] using houtlines
  undeclared {members members' report report'} model h hreport := by
    cases h with
    | obj hkeys _ =>
        rw [Check.undeclared_eq_add, Check.undeclared_eq_add]
        refine ⟨hreport.1, ?_⟩
        rw [outlines_add, outlines_add, ← hreport.1]
        exact hreport.2.append (outlines_undeclaredKeys hkeys report.path)

namespace Document

/-- Where decoding with a compiled set terminates, it terminates on a reordered value. Both values
are read as one instance, or both are refused, with the same kinds of violations at the same
places. -/
theorem compile_decode_reordered {doc : Document} {set : ModelSet} (h : doc.compile = .ok set)
    {type : Ty} {value value' : Json} (hvalue : value.Reordered value')
    (hends : set.Terminates type value) :
    set.Terminates type value' ∧
      ((∃ answer, set.decode type value = .ok answer ∧ set.decode type value' = .ok answer) ∨
        ∃ failure failure', set.decode type value = .error (.failed failure) ∧
          set.decode type value' = .error (.failed failure') ∧ failure.target = failure'.target ∧
          (outlines failure.violations).Perm (outlines failure'.violations)) := by
  have htags := ModelSet.tagsInRange (compile_wellFormed h)
  obtain ⟨hends', hdecode⟩ := hends.decode_follows Likeness.keyOrder_lawful ⟨rfl, .refl _⟩ htags
    (.refl set) hvalue
  refine ⟨hends', ?_⟩
  rcases hdecode with ⟨answer, answer', hok, hread, hok', hread'⟩ |
    ⟨after, after', hafter, herror, herror'⟩
  · cases (hread.reordered hvalue).unique hread'
    exact .inl ⟨answer, hok, hok'⟩
  · exact .inr ⟨_, _, herror, herror', rfl, hafter.2⟩

/-! ## Two orders of keys -/

/-- An order without a number, with a line that is an object, and with two keys too many. -/
def strayOrder : Json := .obj [
  ("date", .null), ("lines", .arr [.str "a", .obj [("x", .null), ("y", .null)]]), ("by", .null)]

/-- The keys of `strayOrder` and of its line the other way round. -/
def strayOrderReversed : Json := .obj [
  ("by", .null), ("lines", .arr [.str "a", .obj [("y", .null), ("x", .null)]]), ("date", .null)]

private theorem strayOrder_reordered : strayOrder.Reordered strayOrderReversed := by
  refine .obj (by decide) fun key value value' hvalue hvalue' => ?_
  have hmem := Keyed.mem_of_get? hvalue
  simp only [List.mem_cons, Prod.mk.injEq, List.not_mem_nil, or_false] at hmem
  rcases hmem with ⟨rfl, rfl⟩ | ⟨rfl, rfl⟩ | ⟨rfl, rfl⟩ <;> cases hvalue'
  · exact .null
  · have hline : Json.Reordered (.obj [("x", .null), ("y", .null)])
        (.obj [("y", .null), ("x", .null)]) := .of_perm (by decide) (.swap _ _ _)
    exact .arr (.cons (.str "a") (.cons hline .nil))
  · exact .null

/-- The stray keys are reported in the order of the value, and no violation is lost. -/
theorem strayOrder_decode :
    orders.compile = .ok ordersModels ∧ strayOrder.Reordered strayOrderReversed ∧
      ordersModels.Terminates (.model 0) strayOrder ∧
      ∃ failure failure', ordersModels.decode (.model 0) strayOrder = .error (.failed failure) ∧
        ordersModels.decode (.model 0) strayOrderReversed = .error (.failed failure') ∧
        failure.violations ≠ failure'.violations ∧
        (outlines failure.violations).Perm (outlines failure'.violations) := by
  have hends : ordersModels.Terminates (.model 0) strayOrder := ⟨4, by rfl⟩
  refine ⟨orders_compile, strayOrder_reordered, hends, ?_⟩
  rcases (compile_decode_reordered orders_compile strayOrder_reordered hends).2 with
    ⟨answer, hok, -⟩ | ⟨failure, failure', herror, herror', -, hperm⟩
  · cases hok
  · refine ⟨failure, failure', herror, herror', ?_, hperm⟩
    cases herror
    cases herror'
    decide

end Document
end OpenApi
