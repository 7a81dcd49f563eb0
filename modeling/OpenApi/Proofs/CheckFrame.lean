-- SUMMARY: What a check does to the report that it is given, whatever is in there already.
import OpenApi.Proofs.Decoding.Unbounded
import OpenApi.Proofs.ViolationPlaces

/-!
# What a check does to its report

A check gets a report that stands somewhere and may hold violations already. Those who ask
for the check rely on three things: the report comes back to where it stood, what it held is
still there and in front, and the check has an answer unless it has added something. So it
is enough to compare sizes, or to look whether a fresh report is still empty.
-/

namespace OpenApi

namespace Report

/-- A report that comes back from a check: it stands where it stood, holds what it held and behind
that violations from here on inwards, and there is an answer exactly if nothing was added. -/
structure Keeps {α : Type} (before : Report) (answer : Option α) (after : Report) : Prop where
  path : after.path = before.path
  violations : ∃ added : List Violation,
    after.violations.toList = before.violations.toList ++ added ∧
      (answer = none ↔ added ≠ []) ∧ ∀ violation ∈ added, before.path <+: violation.path

end Report

namespace Check

variable {set : ModelSet} {depth : Nat} {value : Json} {report after : Report}
variable {answer : Option Instance}

/-- What was found at a place and added to the report there is kept, if the answer agrees. -/
theorem keeps_add {α : Type} {answer : Option α} {found : List Violation}
    (hanswer : answer = none ↔ (report.add found).violations.size ≠ report.violations.size) :
    report.Keeps answer (report.add found) := by
  refine ⟨rfl, found.map (·.below report.path), by simp [Report.add], ?_, ?_⟩
  · rw [hanswer]
    simp [Report.add]
  · intro violation hmem
    obtain ⟨own, -, rfl⟩ := List.mem_map.mp hmem
    exact List.prefix_append _ _

/-- A check of any depth that ends keeps the report. -/
theorem upTo_keeps {type : Ty} (h : upTo set depth type value report = some (answer, after)) :
    report.Keeps answer after := by
  obtain ⟨found, -, rfl⟩ := upTo_collects set depth h
  refine keeps_add ?_
  -- A clean check has an answer and the report as it was, any other neither.
  cases upTo_settles set depth h with
  | clean hreport hreads =>
      obtain ⟨answer, rfl, -⟩ := hreads
      simp [hreport]
  | violated _ hsize hnot => exact iff_of_true hnot.1 (Nat.ne_of_gt hsize)

/-- So does the check of a value of a field, which looks at the enumeration first. -/
theorem given_keeps {field : Field}
    (h : given (upTo set depth) field value report = some (answer, after)) :
    report.Keeps answer after := by
  have hrefuse : ∀ kind, refuse kind report = some (answer, after) → report.Keeps answer after := by
    intro kind hrefuse
    cases hrefuse
    rw [Report.record_eq_add]
    exact keeps_add (by simp [Report.add])
  unfold given at h
  split at h
  · exact upTo_keeps h
  · split at h
    · exact upTo_keeps h
    · exact hrefuse _ h

end Check

namespace ModelSet

variable {set : ModelSet} {type : Ty} {value : Json}

/-- Where decoding a value terminates, its check ends for every report, whatever place it stands at
and whatever violations it holds, at all depths that are enough with the same result, and it keeps
the report. So do the checks that it consists of, of models, anchors and values of fields, wherever
they end. Of a well-formed set only the tags matter. -/
theorem check_keeps_report (htags : set.TagsInRange) (hends : set.Terminates type value)
    (report : Report) :
    (∃ answer after, (∀ depth, set.depth type value ≤ depth →
        Check.upTo set depth type value report = some (answer, after)) ∧
      report.Keeps answer after) ∧
    ∀ depth value before answer after,
      (∀ m, Check.model set (Check.upTo set depth) m value before = some (answer, after) →
        before.Keeps answer after) ∧
      (∀ schema, Check.anchor set (Check.upTo set depth) schema value before =
          some (answer, after) → before.Keeps answer after) ∧
      ∀ field, Check.given (Check.upTo set depth) field value before = some (answer, after) →
        before.Keeps answer after := by
  constructor
  · have hbound := (Check.upTo_isSome_iff htags).mp (hends.isSome_upTo_depth htags)
    have hsome : (Check.upTo set (set.depth type value) type value report).isSome = true :=
      (Check.upTo_isSome_iff htags).mpr hbound
    obtain ⟨⟨answer, after⟩, hcheck⟩ := Option.isSome_iff_exists.mp hsome
    exact ⟨answer, after, fun depth hdepth => Check.upTo_mono hdepth hcheck,
      Check.upTo_keeps hcheck⟩
  · intro depth value before answer after
    refine ⟨fun m h => ?_, fun schema h => ?_, fun field h => Check.given_keeps h⟩
    · have hcheck : Check.upTo set (depth + 1) (.model m) value before = some (answer, after) := h
      exact Check.upTo_keeps hcheck
    · have hcheck : Check.upTo set (depth + 1) (.anchor schema) value before =
          some (answer, after) := h
      exact Check.upTo_keeps hcheck

end ModelSet

namespace Document

/-- A report that stands at the fourth of several orders, the second of which was no object. -/
def fourthOrder : Report where
  path := [.index 3]
  violations := #[⟨[.index 1], .wrongType "Order" .null⟩]

/-- The check of a faulty order adds to what was wrong with another. -/
theorem fourthOrder_keeps :
    ordersModels.TagsInRange ∧ ordersModels.Terminates (.model 0) faultyOrder ∧
      ∃ after, (∀ depth, ordersModels.depth (.model 0) faultyOrder ≤ depth →
          Check.upTo ordersModels depth (.model 0) faultyOrder fourthOrder = some (none, after)) ∧
        fourthOrder.Keeps (none : Option Instance) after ∧
        after.violations.toList.map (·.path) =
          [[.index 1], [.index 3, .field "id"], [.index 3, .field "lines", .index 1],
           [.index 3, .field "date"]] := by
  have htags : ordersModels.TagsInRange := ModelSet.tagsInRange (compile_wellFormed orders_compile)
  have hends : ordersModels.Terminates (.model 0) faultyOrder := ⟨4, by rfl⟩
  obtain ⟨answer, after, hcheck, hkeeps⟩ :=
    (ModelSet.check_keeps_report htags hends fourthOrder).1
  -- What comes out is seen at a small depth already.
  obtain ⟨after', hshallow, hpaths⟩ : ∃ after',
      Check.upTo ordersModels 4 (.model 0) faultyOrder fourthOrder = some (none, after') ∧
        after'.violations.toList.map (·.path) =
          [[.index 1], [.index 3, .field "id"], [.index 3, .field "lines", .index 1],
           [.index 3, .field "date"]] := ⟨_, by rfl, by rfl⟩
  cases Check.upTo_unique (hcheck _ (Nat.le_refl _)) hshallow
  exact ⟨htags, hends, after, hcheck, hkeeps, hpaths⟩

end Document
end OpenApi
