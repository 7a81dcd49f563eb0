-- SUMMARY: The program: commands on the files of the machine.
import OpenApi.Command.Arguments
import OpenApi.Command.Run

/-!
# The program

The program reads a command from its arguments, runs it on the machine's files, and
ends with a status that says whether it succeeded.
-/

namespace OpenApi.Main

/-- The fault for an error of the machine. -/
def faultOf : IO.Error → Disk.Fault
  | .noFileOrDirectory .. => .notFound
  | .alreadyExists .. => .alreadyThere
  | .inappropriateType _ 20 _ => .notFolder
  | .inappropriateType _ 21 _ => .isFolder
  | error => .other (toString error)

/-- Take an action, and give the fault if it fails. -/
def attempt {α : Type} (action : IO α) : IO (Except Disk.Fault α) := do
  match ← action.toBaseIO with
  | .ok value => return .ok value
  | .error error => return .error (faultOf error)

/-- What stands at a path. -/
def find (path : String) : IO (Option Disk.Entry) := do
  match ← (IO.FS.realPath path).toBaseIO with
  | .error _ => return none
  | .ok place =>
    if ← place.isDir then return some .folder
    else if ← place.pathExists then return some .file
    else return none

/-- The names in a folder. -/
def names (path : String) : IO (List String) := do
  match ← (IO.FS.realPath path >>= fun place => place.readDir).toBaseIO with
  | .error _ => return []
  | .ok entries => return (entries.map (·.fileName)).toList

/-- The disk of the machine. -/
def disk : Disk IO where
  read path := attempt (IO.FS.readFile path)
  find := find
  names := names
  makeFolder path := if path.isEmpty then return .ok () else attempt (IO.FS.createDirAll path)
  write path text := attempt (IO.FS.writeFile path text)

/-- What the program says about arguments that are no command. -/
def usageText : Command.Usage → String
  | .help | .helpForNothing =>
    "usage: inspect --schema FILE [--out FILE]\n" ++
    "       validate --schema FILE --root NAME --input FILE... [--ndjson] [--json-pointer POINTER]"
  | .unknownArgument => "error: unexpected argument"
  | .invalidSubcommand => "error: unrecognized subcommand"
  | .invalidValue => "error: a value is required"
  | .argumentConflict => "error: an argument cannot be used multiple times"
  | .missingArgument => "error: a required argument was not provided"
  | .tooManyValues => "error: unexpected value for a flag"

/-- The status for arguments that are no command. -/
def usageStatus : Command.Usage → UInt32
  | .help => 0
  | _ => 2

/-- The status of a run that is aborted because it has no end. -/
def endlessStatus : UInt32 := 134

end OpenApi.Main

open OpenApi in
/-- Run the program. -/
def main (arguments : List String) : IO UInt32 := do
  match Command.read arguments with
  | .error usage =>
    if usage = .help then IO.println (Main.usageText usage)
    else IO.eprintln (Main.usageText usage)
    return Main.usageStatus usage
  | .ok command =>
    match ← Command.run Main.disk command with
    | none => return Main.endlessStatus
    | some outcome =>
      IO.print outcome.output
      match outcome.failure with
      | none => return 0
      | some failure =>
        IO.eprintln ("Error: " ++ failure.message)
        return 1
