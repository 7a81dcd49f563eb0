-- SUMMARY: Violations of an instance with their places, and the report that collects them.
import OpenApi.Json
import OpenApi.Text.Quoted

/-!
# Violations

A violation is what is wrong with one place of an instance. A report stands at a
place and collects violations there; it is entered for a field or an item and
left again. All violations of an instance are reported together, in the order in
which they were found.
-/

namespace OpenApi

/-! ## Places -/

/-- A step into an instance. -/
inductive Segment where
  | field (name : String)
  | index (place : Nat)
deriving DecidableEq, Repr

/-- The steps from the root of an instance to a place inside it. -/
abbrev Path := List Segment

/-- The text of a step. -/
def Segment.text : Segment → String
  | .field name => "." ++ name
  | .index place => "[" ++ toString place ++ "]"

/-- The text of a place, such as `$.tags[0].name`. -/
def Path.text (path : Path) : String := "$" ++ String.join (path.map Segment.text)

/-! ## Violations -/

/-- What is wrong with a place of an instance. -/
inductive ViolationKind where
  | missingField
  | unexpectedField (model : String)
  | wrongType (expected : String) (found : Kind)
  | invalidFormat (expected reason : String)
  | notInEnum (value permitted : String)
  | literalMismatch (expected found : String)
  | missingDiscriminator (property : String)
  | uncoveredDiscriminator (union value : String)
  | noMatchingAlternative (union : String) (attempts : Nat)
  | noVariant (anchor : String)
deriving DecidableEq, Repr

namespace ViolationKind

/-- The message for a violation. -/
def message : ViolationKind → String
  | .missingField => "field required"
  | .unexpectedField model => "extra field not permitted by `" ++ model ++ "`"
  | .wrongType expected found => "expected " ++ expected ++ ", found " ++ found.name
  | .invalidFormat expected reason => "invalid " ++ expected ++ ": " ++ reason
  | .notInEnum value permitted => "unexpected value " ++ value ++ "; permitted: " ++ permitted
  | .literalMismatch expected found =>
    "expected literal " ++ Text.quoted expected ++ ", found " ++ found
  | .missingDiscriminator property => "discriminator property `" ++ property ++ "` is missing"
  | .uncoveredDiscriminator union value =>
    "discriminator value " ++ Text.quoted value ++ " is not covered by the mapping of `" ++
      union ++ "`"
  | .noMatchingAlternative union attempts =>
    "none of the " ++ toString attempts ++ " alternatives of `" ++ union ++ "` accepts the value"
  | .noVariant anchor => "`" ++ anchor ++ "` has no concrete variant to resolve through"

/-- Whether the choice of a variant failed, and not a single field. -/
def isUnionFailure : ViolationKind → Bool
  | .missingDiscriminator _ | .uncoveredDiscriminator .. | .noMatchingAlternative ..
  | .noVariant _ => true
  | _ => false

end ViolationKind

/-- A violation and its place. -/
structure Violation where
  path : Path
  kind : ViolationKind
deriving DecidableEq, Repr

/-! ## Reports -/

/-- The place where a check stands and the violations found so far. -/
structure Report where
  path : Path := []
  violations : Array Violation := #[]
deriving DecidableEq, Repr

namespace Report

/-- Go one step further in. -/
def enter (report : Report) (segment : Segment) : Report :=
  { report with path := report.path ++ [segment] }

/-- Go one step back out; the root stays where it is. -/
def leave (report : Report) : Report :=
  { report with path := report.path.dropLast }

/-- Note a violation here. -/
def record (report : Report) (kind : ViolationKind) : Report :=
  { report with violations := report.violations.push ⟨report.path, kind⟩ }

@[simp] theorem leave_enter (report : Report) (segment : Segment) :
    (report.enter segment).leave = report := by
  simp [enter, leave]

end Report

/-! ## Failures -/

/-- Why a value is no instance of a type: the name of the type and all violations. -/
structure Failure where
  target : String
  violations : List Violation
deriving DecidableEq, Repr

namespace Failure

/-- Whether the choice of a variant failed somewhere. -/
def isUnionFailure (failure : Failure) : Bool := failure.violations.any (·.kind.isUnionFailure)

/-- What is wrong with the place that has this text. -/
def at_ (failure : Failure) (path : String) : List ViolationKind :=
  (failure.violations.filter (·.path.text == path)).map (·.kind)

/-- The message for a failure: a headline, and a line for each violation. -/
def message (failure : Failure) : String :=
  let count := failure.violations.length
  toString count ++ " validation " ++ (if count = 1 then "error" else "errors") ++ " for " ++
    failure.target ++ String.join (failure.violations.map fun v =>
      "\n  " ++ v.path.text ++ ": " ++ v.kind.message)

end Failure
end OpenApi
