-- SUMMARY: Running commands on a disk.
import OpenApi.Command
import OpenApi.Compilation.Types
import OpenApi.Decoding
import OpenApi.Disk.Glob
import OpenApi.Document.Load
import OpenApi.Json.Pointer
import OpenApi.Text.Blank
import OpenApi.Text.Lines
import OpenApi.View

/-!
# Running commands

A command first compiles its document. To validate, it then finds the root, reads
all instances and decodes them, and only when nothing has failed by then does it
print anything: every instance in turn, with its violations if it has any. A command
has no end where its document or one of its instances has none.
-/

namespace OpenApi.Command

/-! ## Instances -/

/-- A value to be validated and where it comes from. -/
structure Sample where
  label : String
  value : Json

/-- The values on the lines of a file, each with its number; blank lines have none. -/
def readLines (path : String) (place : Nat) : List String → Except Failure (List Sample)
  | [] => .ok []
  | line :: rest =>
    if Text.isBlankText line then readLines path (place + 1) rest
    else do
      let label := path ++ ":" ++ toString place
      let value ← (Json.parse line).mapError fun fault => .parseLine label fault line
      return { label, value } :: (← readLines path (place + 1) rest)

/-- The values in a file. -/
def readSamples (inputs : Inputs) (path text : String) : Except Failure (List Sample) := do
  if inputs.byLine then readLines path 1 (Text.lines text)
  else
    let value ← (Json.parse text).mapError fun fault => .parseSource path fault text
    return [{ label := path, value }]

/-- The part of a value that is the instance. -/
def select (inputs : Inputs) (sample : Sample) : Except Failure Sample :=
  match inputs.pointer with
  | none => .ok sample
  | some pointer =>
    match sample.value.pointer? pointer with
    | some value => .ok { sample with value }
    | none => .error (.nothingSelected pointer sample.label)

/-- The instances in a file. -/
def samplesOf (inputs : Inputs) (path text : String) : Except Failure (List Sample) := do
  (← readSamples inputs path text).mapM (select inputs)

/-! ## Judgement -/

/-- The lines for an instance and what its decoding gave. -/
def verdict (label : String) : Except OpenApi.Failure Instance → List String
  | .ok _ => ["✓ " ++ label]
  | .error failure =>
    ("✗ " ++ label) :: failure.violations.map fun violation =>
      "    " ++ violation.path.text ++ " " ++ violation.kind.message

/-- What is printed about all instances, and whether some were rejected. -/
def report (name : String) (outcomes : List (String × Except OpenApi.Failure Instance)) : Outcome :=
  let lines := outcomes.flatMap fun (label, outcome) => verdict label outcome
  let rejected := outcomes.countP fun (_, outcome) => !outcome.isOk
  { output := String.join (lines.map (· ++ "\n"))
    failure := if rejected = 0 then none else some (.rejected rejected outcomes.length name) }

/-- Decode all instances and report on them, if decoding them has an end. -/
def judge (set : ModelSet) (name : String) (type : Ty) (samples : List Sample) : Option Outcome :=
  (samples.mapM fun sample => (ended (set.decode type sample.value)).map (sample.label, ·)).map
    (report name)

/-! ## Running -/

variable {m : Type → Type} [Monad m] (disk : Disk m)

/-- Act on a disk, and fail where it refuses. -/
def attempt {α : Type} (action : m (Except Disk.Fault α)) (failure : Disk.Fault → Failure) :
    ExceptT (Stop Failure) m α :=
  ExceptT.mk (return (← action).mapError (.failed ∘ failure))

/-- The models of a schema document. -/
def compileAt (path : String) : ExceptT (Stop Failure) m ModelSet := do
  let text ← attempt (disk.read path) (.readDocument path)
  let doc ← ofExcept ((Document.ofText text).mapError (.failed ∘ .loadDocument path))
  ofExcept (doc.compile.mapError (.map (.compileDocument path)))
where
  /-- Stop where a step without a disk stops. -/
  ofExcept {α : Type} (result : Except (Stop Failure) α) : ExceptT (Stop Failure) m α :=
    ExceptT.mk (pure result)

/-- The paths that patterns mean, in their order. A text that is no pattern is a path, whether or
not something is there; a pattern has to match something. -/
def pathsOf (patterns : List String) : ExceptT (Stop Failure) m (List String) :=
  patterns.foldlM (fun found text => do
    if Glob.isPattern text then
      match Glob.Pattern.read text with
      | .error fault => throw (.failed (.badPattern fault))
      | .ok pattern =>
        let paths ← ExceptT.lift (Glob.paths disk pattern)
        if paths.isEmpty then throw (.failed (.nothingMatches text)) else return found ++ paths
    else return found ++ [text]) []

/-- The instances in all files. -/
def loadSamples (inputs : Inputs) : ExceptT (Stop Failure) m (List Sample) := do
  let paths ← pathsOf disk inputs.patterns
  paths.foldlM (fun samples path => do
    let text ← attempt (disk.read path) (.readSource path)
    match samplesOf inputs path text with
    | .ok more => return samples ++ more
    | .error failure => throw (.failed failure)) []

/-- Put a text into a file, in a folder that is made if need be. -/
def store (path text : String) : ExceptT (Stop Failure) m Unit := do
  if let some folder := Disk.around? path then
    attempt (disk.makeFolder folder) .makeFolder
  attempt (disk.write path text) (.writeView path)

/-- Carry out a command. -/
def carryOut : Command → ExceptT (Stop Failure) m Outcome
  | .inspect schema out => do
    let view := (← compileAt disk schema).view.pretty
    match out with
    | none => return { output := view ++ "\n" }
    | some path =>
      store disk path view
      return {}
  | .validate schema inputs root => do
    let set ← compileAt disk schema
    match set.root root with
    | none => throw (.failed (.noRoot root))
    | some type =>
      match judge set root type (← loadSamples disk inputs) with
      | some outcome => return outcome
      | none => throw .endless

/-- Run a command. There is an outcome unless the command has no end. -/
def run (command : Command) : m (Option Outcome) :=
  return (ended (← (carryOut disk command).run)).map fun
    | .ok outcome => outcome
    | .error failure => { failure := some failure }

end OpenApi.Command
