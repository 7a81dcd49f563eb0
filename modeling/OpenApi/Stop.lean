-- SUMMARY: Why a run comes to no answer: it fails, or it has no end.

/-!
# Runs without an answer

Schemas and models may refer to themselves, and a run that follows them may have no end. That is no
failure: there is nothing to report then, and nothing that could come after it.
-/

namespace OpenApi

/-- Why a run comes to no answer. -/
inductive Stop (ε : Type) where
  /-- The run fails. -/
  | failed (error : ε)
  /-- The run has no end. -/
  | endless
deriving DecidableEq, Repr

variable {ε ε' α : Type}

/-- Say in other words why a run fails. -/
def Stop.map (f : ε → ε') : Stop ε → Stop ε'
  | .failed error => .failed (f error)
  | .endless => .endless

/-- What a run ends with, if it has an end. -/
def ended : Except (Stop ε) α → Option (Except ε α)
  | .ok answer => some (.ok answer)
  | .error (.failed error) => some (.error error)
  | .error .endless => none

theorem ended_eq_some_iff {run : Except (Stop ε) α} {result : Except ε α} :
    ended run = some result ↔ run = result.mapError .failed := by
  refine ⟨fun h => ?_, fun h => ?_⟩
  · rcases run with (error | _) | answer <;> cases h <;> rfl
  · subst h
    cases result <;> rfl

theorem ended_eq_none_iff {run : Except (Stop ε) α} : ended run = none ↔ run = .error .endless := by
  rcases run with (_ | _) | _ <;> simp [ended]

end OpenApi
