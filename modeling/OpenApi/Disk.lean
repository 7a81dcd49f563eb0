-- SUMMARY: Disks: what a command may do with files.

/-!
# Disks

A disk reads and writes files by their paths. A path is a text with steps between
slashes; `.` and `..` are the folder itself and the one around it.
-/

namespace OpenApi

namespace Disk

/-- Why a disk refuses. -/
inductive Fault where
  | notFound | notFolder | isFolder | alreadyThere
  | other (reason : String)
deriving DecidableEq, Repr

/-- The message for a fault. -/
def Fault.message : Fault → String
  | .notFound => "No such file or directory (os error 2)"
  | .notFolder => "Not a directory (os error 20)"
  | .isFolder => "Is a directory (os error 21)"
  | .alreadyThere => "File exists (os error 17)"
  | .other reason => reason

/-- What stands at a path. -/
inductive Entry where
  | file | folder
deriving DecidableEq, Repr

end Disk

/-- What can be done with files, as actions in `m`. -/
structure Disk (m : Type → Type) where
  /-- The text of a file. -/
  read : String → m (Except Disk.Fault String)
  /-- What stands at a path. -/
  find : String → m (Option Disk.Entry)
  /-- The names in a folder. -/
  names : String → m (List String)
  /-- Make a folder and those around it, as far as they are not there. -/
  makeFolder : String → m (Except Disk.Fault Unit)
  /-- Put a text into a file. -/
  write : String → String → m (Except Disk.Fault Unit)

namespace Disk

/-- The segments of a text between slashes. -/
def segments (path : String) : List String :=
  (path.toList.splitOn '/').map String.ofList

/-- The path of a name inside a folder. -/
def join (folder name : String) : String :=
  if folder.toList.getLast? = some '/' then folder ++ name else folder ++ "/" ++ name

/-- The folder around what a path means, unless that is the root. -/
def around? (path : String) : Option String :=
  let steps := (segments path).filter fun step => step ≠ "" && step ≠ "."
  let inner := String.intercalate "/" steps.dropLast
  if path.toList.head? = some '/' then if steps.isEmpty then none else some ("/" ++ inner)
  else some inner

end Disk
end OpenApi
