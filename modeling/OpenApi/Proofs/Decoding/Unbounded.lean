-- SUMMARY: Checks without a bound on their depth: an answer within any depth is the answer.
import OpenApi.Proofs.Decoding.Agreement
import OpenApi.Proofs.Decoding.Depth

/-!
# Checks without a bound

The depth of a check only says when to give up: two depths at which a check ends give
one answer. So decoding answers what the check answers at any depth at which it ends,
and where every check ends there is exactly one check that knows of no depth and asks
itself for the parts of a value.
-/

namespace OpenApi

namespace Check

variable {set : ModelSet} {type : Ty} {value : Json} {report : Report}
variable {depth depth' : Nat} {outcome outcome' : Option Instance × Report}

/-- What is answered within some depth is answered alike within any greater. -/
theorem upTo_mono (hle : depth ≤ depth') (h : upTo set depth type value report = some outcome) :
    upTo set depth' type value report = some outcome :=
  (ModelSet.agreeOn_self set).upTo hle trivial h

theorem upTo_unique (h : upTo set depth type value report = some outcome)
    (h' : upTo set depth' type value report = some outcome') : outcome = outcome' := by
  have hfirst := upTo_mono (Nat.le_max_left depth depth') h
  have hsecond := upTo_mono (Nat.le_max_right depth depth') h'
  exact Option.some.inj (hfirst.symm.trans hsecond)

end Check

namespace ModelSet

variable {set : ModelSet} {type : Ty} {value : Json}

/-! ## Decoding -/

/-- Decoding answers what the check of the value answers at any depth: an instance and no
violation, or no instance and all violations. -/
theorem decode_of_upTo (htags : set.TagsInRange) {depth : Nat} {answer : Option Instance}
    {after : Report} (h : Check.upTo set depth type value {} = some (answer, after)) :
    (∃ found, answer = some found ∧ set.Reads type value found ∧
      set.decode type value = .ok found) ∨
    (answer = none ∧ after.violations ≠ #[] ∧ ¬ set.Accepts type value ∧
      set.decode type value = .error
        (.failed { target := set.typeName type, violations := after.violations.toList })) := by
  have hends : set.Terminates type value := ⟨depth, Option.isSome_iff_exists.mpr ⟨_, h⟩⟩
  obtain ⟨outcome, hdepth⟩ := Option.isSome_iff_exists.mp (hends.isSome_upTo_depth htags)
  obtain rfl := Check.upTo_unique hdepth h
  cases Check.upTo_settles set _ h with
  | clean hreport hreads =>
      obtain ⟨found, rfl, hread⟩ := hreads
      subst hreport
      exact .inl ⟨found, rfl, hread, by simp [ModelSet.decode, hdepth]⟩
  | violated _ hsize hnot =>
      obtain ⟨rfl, hnot⟩ := hnot
      have hsome : after.violations ≠ #[] := by
        intro hempty
        simp [hempty] at hsize
      exact .inr ⟨rfl, hsome, hnot, by simp [ModelSet.decode, hdepth]⟩

/-! ## The recursion of checks -/

variable (set) in
/-- A check that always answers and asks itself for the parts of a value. -/
def Unbounded (run : Ty → Json → Report → Option Instance × Report) : Prop :=
  ∀ type value report,
    Check.type set (fun type value report => some (run type value report)) type value report =
      some (run type value report)

theorem Unbounded.eq_of_upTo {run : Ty → Json → Report → Option Instance × Report}
    (hrun : set.Unbounded run) {depth : Nat} {report : Report}
    {outcome : Option Instance × Report}
    (h : Check.upTo set depth type value report = some outcome) :
    run type value report = outcome := by
  induction depth generalizing type value report outcome with
  | zero => cases h
  | succ depth ih =>
      have hstep := (agreeOn_self set).typeCheck (fun type value report outcome _ heq =>
        congrArg some (ih heq)) trivial h
      exact Option.some.inj ((hrun type value report).symm.trans hstep)

/-- Where every check ends at some depth, the answers make up a check without a bound. -/
theorem exists_unbounded
    (h : ∀ type value report, ∃ outcome depth,
      Check.upTo set depth type value report = some outcome) :
    ∃ run, set.Unbounded run := by
  choose run depth hrun using h
  refine ⟨run, fun type value report => ?_⟩
  have hstep := Check.upTo_mono (Nat.le_succ _) (hrun type value report)
  refine (agreeOn_self set).typeCheck (fun type value report outcome _ heq => ?_) trivial hstep
  rw [Check.upTo_unique (hrun type value report) heq]

/-- A goal that ends within a depth is at the end of no chain that goes on forever. -/
theorem EndsWithin.acc {depth : Nat} {goal : Goal} (h : set.EndsWithin depth goal) :
    Acc (fun next goal => set.Consults goal next) goal := by
  induction depth generalizing goal with
  | zero => exact h.elim
  | succ depth ih => exact .intro goal fun next hstep => ih (h next hstep)

end ModelSet
end OpenApi
