-- SUMMARY: Two runs of a step that differ in the schemas that are being merged.
import OpenApi.Proofs.Schema.Walk
import OpenApi.Proofs.Step

/-!
# Runs beside each other

The schemas that are being merged matter to one thing only: whether a request for the
merged fields of one of them is refused. `Tracks` puts a step beside another that runs
while fewer schemas are being merged. They do the same unless the first is refused. A
refusal of the second is for a schema that is a member of itself; the first may also
be refused for a schema that leads back to itself by a walk below it.
-/

namespace OpenApi

open Relation (TransGen)

/-- The same compilation while the given schemas are being merged. -/
def Compilation.withMerging (state : Compilation) (merging : List SchemaId) : Compilation :=
  { state with merging }

@[simp] theorem Compilation.merging_withMerging (state : Compilation) (merging : List SchemaId) :
    (state.withMerging merging).merging = merging := rfl

namespace Document

/-- Where a step stops to refuse a schema as its own member, some schema of that name is one. -/
def Justifies (doc : Document) (stop : Stop SchemaError) : Prop :=
  ∀ label, stop = .failed (.cyclicAllOf label) →
    ∃ id, (doc.schema id).label = label ∧ TransGen doc.Includes id id

end Document

namespace Compile

variable {α β : Type}

/-- A step that leaves alone what is being merged, and refuses schemas for a reason. -/
abbrev Keeps (doc : Document) (step : Compile α) (state : Compilation) : Prop :=
  step.Ends state (fun _ after => after.merging = state.merging) fun stop _ => doc.Justifies stop

/-- The first step, run while the given schemas are being merged, does what the second does, unless
it is refused. -/
inductive Tracks (doc : Document) (first second : Compile α) (merging : List SchemaId)
    (state : Compilation) : Prop where
  | answers {answer : α} {after : Compilation} :
      first (state.withMerging merging) = (.ok answer, after.withMerging merging) →
        second state = (.ok answer, after) → after.merging = state.merging →
        Tracks doc first second merging state
  | fails {stop : Stop SchemaError} {after after' : Compilation} :
      first (state.withMerging merging) = (.error stop, after') →
        second state = (.error stop, after) → doc.Justifies stop →
        Tracks doc first second merging state
  | refused {id : SchemaId} {after : Compilation} :
      first (state.withMerging merging) =
          (.error (.failed (.cyclicAllOf (doc.schema id).label)), after) →
        TransGen doc.Includes id id ∨ doc.Descends id id → second.Keeps doc state →
        Tracks doc first second merging state

section Steps

variable {doc : Document} {first second : Compile α} {merging : List SchemaId}
variable {state : Compilation}

/-- The second step is refused for a reason. -/
theorem Tracks.keeps (h : Tracks doc first second merging state) : second.Keeps doc state := by
  cases h with
  | answers _ hsecond hmerging => simpa only [Keeps, Ends, hsecond] using hmerging
  | fails _ hsecond hjust => simpa only [Keeps, Ends, hsecond] using hjust
  | refused _ _ hkeeps => exact hkeeps

/-! ## Straight-line steps -/

theorem tracks_pure (answer : α) :
    Tracks doc (pure answer : Compile α) (pure answer) merging state :=
  .answers rfl rfl rfl

theorem tracks_throw {stop : Stop SchemaError} (h : doc.Justifies stop) :
    Tracks doc (throw stop : Compile α) (throw stop) merging state :=
  .fails rfl rfl h

theorem tracks_ofExcept {result : Except SchemaError α}
    (h : ∀ error, result = .error error → doc.Justifies (.failed error)) :
    Tracks doc (ofExcept result) (ofExcept result) merging state := by
  cases result with
  | ok answer => exact .answers rfl rfl rfl
  | error error => exact .fails rfl rfl (h error rfl)

theorem tracks_bind {next next' : α → Compile β} (h : Tracks doc first second merging state)
    (hnext : ∀ answer after, after.merging = state.merging →
      Tracks doc (next answer) (next' answer) merging after) :
    Tracks doc (first >>= next) (second >>= next') merging state := by
  cases h with
  | @answers answer after hfirst hsecond hmerging =>
      -- The steps have the same answer, so the rest decides how the whole ends.
      have hfirst' : (first >>= next) (state.withMerging merging) =
          next answer (after.withMerging merging) := by
        rw [bind_apply, hfirst]
      have hsecond' : (second >>= next') state = next' answer after := by
        rw [bind_apply, hsecond]
      cases hnext answer after hmerging with
      | answers hfirst'' hsecond'' hmerging' =>
          exact .answers (hfirst'.trans hfirst'') (hsecond'.trans hsecond'')
            (hmerging'.trans hmerging)
      | fails hfirst'' hsecond'' hjust =>
          exact .fails (hfirst'.trans hfirst'') (hsecond'.trans hsecond'') hjust
      | refused hfirst'' hcycle hkeeps =>
          refine .refused (hfirst'.trans hfirst'') hcycle ?_
          simp only [Keeps, Ends, hsecond', ← hmerging]
          exact hkeeps
  | fails hfirst hsecond hjust =>
      exact .fails (by rw [bind_apply, hfirst]) (by rw [bind_apply, hsecond]) hjust
  | refused hfirst hcycle hkeeps =>
      -- The first step stops here; the second goes on, and is refused for a reason if at all.
      refine .refused (by rw [bind_apply, hfirst]) hcycle ?_
      rw [Keeps, ends_bind]
      apply hkeeps.imp
      intro answer after hmerging
      exact hmerging ▸ (hnext answer after hmerging).keeps

theorem tracks_map {f : α → β} (h : Tracks doc first second merging state) :
    Tracks doc (f <$> first) (f <$> second) merging state := by
  simp only [← bind_pure_comp]
  exact tracks_bind h fun answer _ _ => tracks_pure (f answer)

/-- Both steps look at the state, which is the same but for what is being merged. -/
theorem tracks_get_bind {next next' : Compilation → Compile α}
    (h : Tracks doc (next (state.withMerging merging)) (next' state) merging state) :
    Tracks doc (get >>= next) (get >>= next') merging state := by
  cases h with
  | answers hfirst hsecond hmerging => exact .answers hfirst hsecond hmerging
  | fails hfirst hsecond hjust => exact .fails hfirst hsecond hjust
  | refused hfirst hcycle hkeeps => exact .refused hfirst hcycle hkeeps

/-! ## Changes of the state -/

theorem tracks_modify {change : Compilation → Compilation}
    (hchange : change (state.withMerging merging) = (change state).withMerging merging)
    (hmerging : (change state).merging = state.merging) :
    Tracks doc (modify change : Compile PUnit) (modify change) merging state :=
  .answers (congrArg (Prod.mk _) hchange) rfl hmerging

/-- What is being merged may change in between, as long as it is restored. -/
theorem tracks_between {enter leave : Compilation → Compilation} {merging' : List SchemaId}
    (henter : enter (state.withMerging merging) = (enter state).withMerging merging')
    (hleave : ∀ after, leave (after.withMerging merging') = (leave after).withMerging merging)
    (hrestore : ∀ after, after.merging = (enter state).merging →
      (leave after).merging = state.merging)
    (h : Tracks doc first second merging' (enter state)) :
    Tracks doc (between enter leave first) (between enter leave second) merging state := by
  cases h with
  | @answers answer after hfirst hsecond hmerging =>
      have hfirst' : between enter leave first (state.withMerging merging) =
          (.ok answer, (leave after).withMerging merging) := by
        simp only [between, henter, hfirst, hleave]
      exact .answers hfirst' (by simp only [between, hsecond]) (hrestore after hmerging)
  | fails hfirst hsecond hjust =>
      exact .fails (by simp only [between, henter, hfirst]; rfl)
        (by simp only [between, hsecond]; rfl) hjust
  | refused hfirst hcycle hkeeps =>
      refine .refused (by simp only [between, henter, hfirst]; rfl) hcycle ?_
      rw [Keeps, ends_between]
      exact hkeeps.imp fun _ after hmerging => hrestore after hmerging

/-! ## Loops -/

theorem tracks_foldlM {elements : List α} {step step' : β → α → Compile β}
    (hstep : ∀ element ∈ elements, ∀ found now, now.merging = state.merging →
      Tracks doc (step found element) (step' found element) merging now)
    (found : β) :
    Tracks doc (elements.foldlM step found) (elements.foldlM step' found) merging state := by
  induction elements generalizing found state with
  | nil => exact tracks_pure found
  | cons element rest ih =>
      rw [List.forall_mem_cons] at hstep
      simp only [List.foldlM_cons]
      apply tracks_bind (hstep.1 found state rfl)
      intro found after hafter
      exact ih (fun element hmem found now hnow =>
        hstep.2 element hmem found now (hnow.trans hafter)) found

theorem tracks_mapM {elements : List α} {step step' : α → Compile β}
    (hstep : ∀ element ∈ elements, ∀ now, now.merging = state.merging →
      Tracks doc (step element) (step' element) merging now) :
    Tracks doc (elements.mapM step) (elements.mapM step') merging state := by
  induction elements generalizing state with
  | nil =>
      simp only [List.mapM_nil]
      exact tracks_pure []
  | cons element rest ih =>
      rw [List.forall_mem_cons] at hstep
      simp only [List.mapM_cons]
      apply tracks_bind (hstep.1 state rfl)
      intro answer after hafter
      refine tracks_bind ?_ fun answers _ _ => tracks_pure (answer :: answers)
      exact ih fun element hmem now hnow => hstep.2 element hmem now (hnow.trans hafter)

theorem tracks_forM {elements : List α} {step step' : α → Compile PUnit}
    (hstep : ∀ element ∈ elements, ∀ now, now.merging = state.merging →
      Tracks doc (step element) (step' element) merging now) :
    Tracks doc (elements.forM step) (elements.forM step') merging state := by
  induction elements generalizing state with
  | nil => exact tracks_pure PUnit.unit
  | cons element rest ih =>
      rw [List.forall_mem_cons] at hstep
      simp only [List.forM_eq_forM, List.forM_cons]
      apply tracks_bind (hstep.1 state rfl)
      intro _ after hafter
      exact ih fun element hmem now hnow => hstep.2 element hmem now (hnow.trans hafter)

end Steps
end Compile
end OpenApi
