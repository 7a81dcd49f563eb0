-- SUMMARY: Chains of checks: where the whole succeeds, and where it goes on.
/-!
# Chains of checks

Readers and loaders are chains of checks of which the first that fails decides. Three
laws here open one link of a chain: forwards, where the check is known to succeed, and
backwards, where the whole chain did or did not. Another compares two chains of which
one does not see all. The last ones are about failures that are said in other words.
-/

namespace OpenApi

variable {ε ε' α β : Type}

/-- Behind a check that succeeds the chain goes on. -/
@[simp] theorem ok_bind (answer : α) (next : α → Except ε β) :
    ((.ok answer : Except ε α) >>= next) = next answer := rfl

/-- A chain succeeds only where each of its checks does. -/
theorem exists_of_bind_eq_ok {step : Except ε α} {next : α → Except ε β} {answer : β}
    (h : (step >>= next) = .ok answer) :
    ∃ middle, step = .ok middle ∧ next middle = .ok answer := by
  cases step with
  | error error => cases h
  | ok middle => exact ⟨middle, rfl, h⟩

/-- A chain fails at its first check, or goes on and fails behind it. -/
theorem cases_of_bind_eq_error {step : Except ε α} {next : α → Except ε β} {error : ε}
    (h : (step >>= next) = .error error) :
    step = .error error ∨ ∃ middle, step = .ok middle ∧ next middle = .error error := by
  cases step with
  | error error' =>
      cases h
      exact .inl rfl
  | ok middle => exact .inr ⟨middle, rfl, h⟩

/-- Where one sees the same of two chains, they fail alike or have answers of which one sees the
same. -/
theorem cases_of_map_eq_map {see : α → β} {first second : Except ε α}
    (h : see <$> first = see <$> second) :
    (∃ error, first = .error error ∧ second = .error error) ∨
      ∃ answer answer', first = .ok answer ∧ second = .ok answer' ∧ see answer = see answer' := by
  cases first <;> cases second
  · cases h
    exact .inl ⟨_, rfl, rfl⟩
  · cases h
  · cases h
  · exact .inr ⟨_, _, rfl, rfl, Except.ok.inj h⟩

/-- Saying failures in other words does not change what one sees of answers. -/
theorem map_mapError {f : ε → ε'} {see : α → β} (result : Except ε α) :
    see <$> result.mapError f = (see <$> result).mapError f := by
  cases result <;> rfl

/-- What succeeds with failures said in other words succeeds. -/
theorem eq_ok_of_mapError {f : ε → ε'} {result : Except ε α} {answer : α}
    (h : result.mapError f = .ok answer) : result = .ok answer := by
  cases result <;> cases h
  rfl

/-- What fails in other words fails. -/
theorem exists_of_mapError_eq_error {f : ε → ε'} {result : Except ε α} {error : ε'}
    (h : result.mapError f = .error error) : ∃ inner, result = .error inner ∧ error = f inner := by
  cases result <;> cases h
  exact ⟨_, rfl, rfl⟩

end OpenApi
