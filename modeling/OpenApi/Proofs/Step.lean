-- SUMMARY: What the steps of a compilation lead to, with one law for each way of building a step.
import OpenApi.Compilation

/-!
# Steps of a compilation

`step.Ends state ok fails` says where a step leads: it either succeeds with an
answer and a state that `ok` takes, or it stops without one, in a state that
`fails` takes. Each way of building a step has one law, and loops are proved with
an invariant over the elements that are done. A `Rule` says of any step where it may
start and how it may change a compilation; steps that follow it make up steps that do.
-/

namespace OpenApi.Compile

variable {α β : Type} {state : Compilation} {fails : Stop SchemaError → Compilation → Prop}

/-- Started in a state, a step succeeds as `ok` says or stops as `fails` says. -/
def Ends (step : Compile α) (state : Compilation) (ok : α → Compilation → Prop)
    (fails : Stop SchemaError → Compilation → Prop) : Prop :=
  match step state with
  | (.ok answer, after) => ok answer after
  | (.error stop, after) => fails stop after

/-! ## Straight-line steps -/

@[simp] theorem ends_pure {ok : α → Compilation → Prop} (answer : α) :
    (pure answer : Compile α).Ends state ok fails ↔ ok answer state := Iff.rfl

@[simp] theorem ends_throw {ok : α → Compilation → Prop} (stop : Stop SchemaError) :
    (throw stop : Compile α).Ends state ok fails ↔ fails stop state := Iff.rfl

theorem bind_apply (step : Compile α) (next : α → Compile β) (state : Compilation) :
    (step >>= next) state =
      match step state with
      | (.ok answer, after) => next answer after
      | (.error stop, after) => (.error stop, after) := by
  change (ExceptT.bind step next) state = _
  simp only [ExceptT.bind, ExceptT.mk, bind, StateT.bind, ExceptT.bindCont]
  rcases step state with ⟨_ | _, _⟩ <;> rfl

/-- A step and what follows it succeed only if both do. -/
theorem bind_eq_ok_iff {step : Compile α} {next : α → Compile β} {answer : β}
    {after : Compilation} :
    (step >>= next) state = (.ok answer, after) ↔
      ∃ middle now, step state = (.ok middle, now) ∧ next middle now = (.ok answer, after) := by
  rw [bind_apply]
  rcases step state with ⟨stop | middle, now⟩
  · exact ⟨nofun, by rintro ⟨_, _, ⟨⟩, _⟩⟩
  · exact ⟨fun h => ⟨middle, now, rfl, h⟩, by rintro ⟨_, _, ⟨⟩, h⟩; exact h⟩

/-- Nothing follows a step that stops. -/
theorem bind_eq_error {step : Compile α} {next : α → Compile β} {stop : Stop SchemaError}
    (h : (step state).1 = .error stop) : ((step >>= next) state).1 = .error stop := by
  rw [bind_apply]
  rcases hstep : step state with ⟨_ | _, now⟩ <;> rw [hstep] at h <;> cases h
  rfl

@[simp] theorem ends_bind {ok : β → Compilation → Prop} (step : Compile α) (next : α → Compile β) :
    (step >>= next).Ends state ok fails ↔
      step.Ends state (fun answer after => (next answer).Ends after ok fails) fails := by
  rcases hstep : step state with ⟨answer | stop, after⟩ <;> simp [Ends, bind_apply, hstep]

@[simp] theorem ends_map {ok : β → Compilation → Prop} (f : α → β) (step : Compile α) :
    (f <$> step).Ends state ok fails ↔
      step.Ends state (fun answer after => ok (f answer) after) fails := by
  rw [← bind_pure_comp, ends_bind]
  rfl

@[simp] theorem ends_discard {ok : PUnit → Compilation → Prop} (step : Compile α) :
    (discard step).Ends state ok fails ↔ step.Ends state (fun _ after => ok ⟨⟩ after) fails :=
  ends_map _ step

@[simp] theorem ends_get {ok : Compilation → Compilation → Prop} :
    (get : Compile Compilation).Ends state ok fails ↔ ok state state := Iff.rfl

@[simp] theorem ends_modify {ok : PUnit → Compilation → Prop} (change : Compilation → Compilation) :
    (modify change : Compile PUnit).Ends state ok fails ↔ ok ⟨⟩ (change state) := Iff.rfl

@[simp] theorem ends_ofExcept {ok : α → Compilation → Prop} (result : Except SchemaError α) :
    (ofExcept result).Ends state ok fails ↔
      (∀ answer, result = .ok answer → ok answer state) ∧
        ∀ error, result = .error error → fails (.failed error) state := by
  cases result with
  | ok answer =>
      change ok answer state ↔ _
      simp
  | error error =>
      change fails (.failed error) state ↔ _
      simp

/-- A check succeeds in any state, and leaves it alone. -/
theorem ofExcept_eq_ok_iff {result : Except SchemaError α} {answer : α} {after : Compilation} :
    ofExcept result state = (.ok answer, after) ↔ result = .ok answer ∧ state = after := by
  cases result with
  | error error => exact ⟨nofun, nofun⟩
  | ok answer' =>
      constructor
      · rintro ⟨⟩
        exact ⟨rfl, rfl⟩
      · rintro ⟨⟨⟩, rfl⟩
        rfl

@[simp] theorem ends_between {ok : α → Compilation → Prop} (enter leave : Compilation → Compilation)
    (step : Compile α) :
    (between enter leave step).Ends state ok fails ↔
      step.Ends (enter state) (fun answer after => ok answer (leave after))
        (fun stop after => fails stop (leave after)) := by
  rcases hstep : step (enter state) with ⟨answer | stop, after⟩ <;>
    simp [Ends, between, hstep]

/-- A step between two changes succeeds if it does behind the first of them. -/
theorem between_eq_ok_iff {enter leave : Compilation → Compilation} {step : Compile α} {answer : α}
    {after : Compilation} :
    between enter leave step state = (.ok answer, after) ↔
      ∃ last, step (enter state) = (.ok answer, last) ∧ after = leave last := by
  unfold between
  rcases step (enter state) with ⟨result, last⟩
  constructor
  · rintro ⟨⟩
    exact ⟨last, rfl, rfl⟩
  · rintro ⟨_, ⟨⟩, rfl⟩
    rfl

/-- Weaken what a step leads to. -/
theorem Ends.mono {step : Compile α} {ok ok' : α → Compilation → Prop}
    {fails' : Stop SchemaError → Compilation → Prop} (h : step.Ends state ok fails)
    (hok : ∀ answer after, ok answer after → ok' answer after)
    (hfails : ∀ stop after, fails stop after → fails' stop after) :
    step.Ends state ok' fails' := by
  unfold Ends at h ⊢
  split at h
  · exact hok _ _ h
  · exact hfails _ _ h

/-- Weaken what a step leads to where it succeeds. -/
theorem Ends.imp {step : Compile α} {ok ok' : α → Compilation → Prop}
    (h : step.Ends state ok fails) (hok : ∀ answer after, ok answer after → ok' answer after) :
    step.Ends state ok' fails :=
  h.mono hok fun _ _ hfails => hfails

/-- A step leads to all that is known of it. -/
theorem Ends.and {step : Compile α} {ok ok' : α → Compilation → Prop}
    {fails' : Stop SchemaError → Compilation → Prop} (h : step.Ends state ok fails)
    (h' : step.Ends state ok' fails') :
    step.Ends state (fun answer after => ok answer after ∧ ok' answer after)
      fun stop after => fails stop after ∧ fails' stop after := by
  unfold Ends at h h' ⊢
  split <;> simp_all

/-- What holds however a step ends holds of the state behind it. -/
theorem Ends.last {step : Compile α} {holds : Compilation → Prop}
    (h : step.Ends state (fun _ after => holds after) fun _ after => holds after) :
    holds (step state).2 := by
  unfold Ends at h
  split at h <;> simp_all

/-- What an answer leads to. -/
theorem Ends.of_ok {step : Compile α} {ok : α → Compilation → Prop} {answer : α}
    (h : step.Ends state ok fails) (hok : (step state).1 = .ok answer) :
    ok answer (step state).2 := by
  unfold Ends at h
  split at h <;> simp_all

/-- A step leads to one answer and one state. -/
theorem eq_ok_iff_ends {step : Compile α} {answer : α} {after : Compilation} :
    step state = (.ok answer, after) ↔
      step.Ends state (fun answer' after' => answer' = answer ∧ after' = after)
        fun _ _ => False := by
  unfold Ends
  rcases step state with ⟨stop | answer', after'⟩
  · exact ⟨nofun, False.elim⟩
  · constructor
    · rintro ⟨⟩
      exact ⟨rfl, rfl⟩
    · rintro ⟨rfl, rfl⟩
      rfl

/-! ## Loops -/

/-- A fold keeps an invariant over the elements that are done. -/
theorem ends_foldlM {elements : List α} {step : β → α → Compile β}
    (inv : List α → β → Compilation → Prop)
    (hstep : ∀ done element found now, element ∈ elements → inv done found now →
      (step found element).Ends now (inv (done ++ [element])) fails)
    {found : β} (hstart : inv [] found state) :
    (elements.foldlM step found).Ends state (inv elements) fails := by
  -- The induction is on the elements that are left; those that are done grow from the left.
  suffices h : ∀ rest done found now, done ++ rest = elements → inv done found now →
      (rest.foldlM step found).Ends now (inv elements) fails from
    h elements [] found state rfl hstart
  intro rest
  induction rest with
  | nil =>
      intro done found now hsplit hinv
      rw [List.append_nil] at hsplit
      simpa [← hsplit] using hinv
  | cons element rest ih =>
      intro done found now hsplit hinv
      rw [List.foldlM_cons, ends_bind]
      have hmem : element ∈ elements := by simp [← hsplit]
      apply (hstep done element found now hmem hinv).imp
      intro found now hinv
      exact ih (done ++ [element]) found now (by simpa using hsplit) hinv

/-- A map keeps an invariant over the elements that are done and their answers. -/
theorem ends_mapM {elements : List α} {step : α → Compile β}
    (inv : List α → List β → Compilation → Prop)
    (hstep : ∀ done element answers now, element ∈ elements → inv done answers now →
      (step element).Ends now
        (fun answer now => inv (done ++ [element]) (answers ++ [answer]) now) fails)
    (hstart : inv [] [] state) :
    (elements.mapM step).Ends state (inv elements) fails := by
  -- As for a fold. The answers of the rest come after those that are there already.
  suffices h : ∀ rest done answers now, done ++ rest = elements → inv done answers now →
      (rest.mapM step).Ends now (fun more now => inv elements (answers ++ more) now) fails from
    h elements [] [] state rfl hstart
  intro rest
  induction rest with
  | nil =>
      intro done answers now hsplit hinv
      rw [List.append_nil] at hsplit
      simpa [← hsplit] using hinv
  | cons element rest ih =>
      intro done answers now hsplit hinv
      rw [List.mapM_cons, ends_bind]
      have hmem : element ∈ elements := by simp [← hsplit]
      apply (hstep done element answers now hmem hinv).imp
      intro answer now hinv
      rw [ends_bind]
      apply (ih (done ++ [element]) (answers ++ [answer]) now (by simpa using hsplit) hinv).imp
      intro more now hinv
      simpa using hinv

/-- A loop without an answer keeps an invariant over the elements that are done. -/
theorem ends_forM {elements : List α} {step : α → Compile PUnit}
    (inv : List α → Compilation → Prop)
    (hstep : ∀ done element now, element ∈ elements → inv done now →
      (step element).Ends now (fun _ now => inv (done ++ [element]) now) fails)
    (hstart : inv [] state) :
    (elements.forM step).Ends state (fun _ now => inv elements now) fails := by
  suffices h : ∀ rest done now, done ++ rest = elements → inv done now →
      (rest.forM step).Ends now (fun _ now => inv elements now) fails from
    h elements [] state rfl hstart
  intro rest
  induction rest with
  | nil =>
      intro done now hsplit hinv
      rw [List.append_nil] at hsplit
      simpa [← hsplit] using hinv
  | cons element rest ih =>
      intro done now hsplit hinv
      rw [List.forM_eq_forM, List.forM_cons, ends_bind]
      have hmem : element ∈ elements := by simp [← hsplit]
      apply (hstep done element now hmem hinv).imp
      intro _ now hinv
      exact ih (done ++ [element]) now (by simpa using hsplit) hinv

/-! ## Rules -/

/-- A rule for steps: where they start, how they may change a compilation, and how they may stop.
It goes on behind each change, and what comes behind a change counts from before it. -/
structure Rule where
  starts : Compilation → Prop
  changes : Compilation → Compilation → Prop
  fails : Compilation → Stop SchemaError → Compilation → Prop
  refl : ∀ {state}, starts state → changes state state
  trans : ∀ {first second third}, changes first second → changes second third →
    changes first third
  goesOn : ∀ {first second}, changes first second → starts second
  fails_trans : ∀ {first second third stop}, changes first second → fails second stop third →
    fails first stop third

/-- Wherever the rule lets a step start, the step keeps to it. -/
def Follows (rule : Rule) (step : Compile α) : Prop :=
  ∀ state : Compilation, rule.starts state →
    step.Ends state (fun _ after => rule.changes state after) (rule.fails state)

variable {rule : Rule}

/-- A step behind a change changes what both do. -/
theorem Follows.after {step : Compile α} (h : step.Follows rule) {now : Compilation}
    (hnow : rule.changes state now) :
    step.Ends now (fun _ after => rule.changes state after) (rule.fails state) :=
  (h now (rule.goesOn hnow)).mono (fun _ _ => rule.trans hnow) fun _ _ => rule.fails_trans hnow

theorem follows_pure (answer : α) : (pure answer : Compile α).Follows rule := fun _ => rule.refl

theorem follows_get : (get : Compile Compilation).Follows rule := fun _ => rule.refl

theorem follows_modify {change : Compilation → Compilation}
    (h : ∀ state, rule.starts state → rule.changes state (change state)) :
    (modify change : Compile PUnit).Follows rule := h

theorem follows_throw {stop : Stop SchemaError}
    (h : ∀ state, rule.starts state → rule.fails state stop state) :
    (throw stop : Compile α).Follows rule := h

theorem follows_ofExcept {result : Except SchemaError α}
    (h : ∀ error, result = .error error → ∀ state, rule.starts state →
      rule.fails state (.failed error) state) : (ofExcept result).Follows rule :=
  fun state hstate => (ends_ofExcept result).mpr
    ⟨fun _ _ => rule.refl hstate, fun error herror => h error herror state hstate⟩

theorem follows_bind {step : Compile α} {next : α → Compile β} (h : step.Follows rule)
    (hnext : ∀ answer, (next answer).Follows rule) : (step >>= next).Follows rule := by
  intro state hstate
  rw [ends_bind]
  exact (h state hstate).imp fun answer _ hafter => (hnext answer).after hafter

theorem follows_discard {step : Compile α} (h : step.Follows rule) :
    (discard step).Follows rule := by
  intro state hstate
  rw [ends_discard]
  exact h state hstate

theorem follows_foldlM {elements : List α} {step : β → α → Compile β}
    (hstep : ∀ element ∈ elements, ∀ found, (step found element).Follows rule) (found : β) :
    (elements.foldlM step found).Follows rule := by
  intro state hstate
  refine ends_foldlM (fun _ _ now => rule.changes state now) ?_ (rule.refl hstate)
  exact fun _ element found now hmem hnow => (hstep element hmem found).after hnow

theorem follows_mapM {elements : List α} {step : α → Compile β}
    (hstep : ∀ element ∈ elements, (step element).Follows rule) :
    (elements.mapM step).Follows rule := by
  intro state hstate
  refine ends_mapM (fun _ _ now => rule.changes state now) ?_ (rule.refl hstate)
  exact fun _ element _ now hmem hnow => (hstep element hmem).after hnow

theorem follows_forM {elements : List α} {step : α → Compile PUnit}
    (hstep : ∀ element ∈ elements, (step element).Follows rule) :
    (elements.forM step).Follows rule := by
  intro state hstate
  refine ends_forM (fun _ now => rule.changes state now) ?_ (rule.refl hstate)
  exact fun _ element now hmem hnow => (hstep element hmem).after hnow

end OpenApi.Compile
