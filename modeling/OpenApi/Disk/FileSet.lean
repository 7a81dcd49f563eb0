-- SUMMARY: Sets of files in memory, and the disk that they make.
import OpenApi.Disk

/-!
# File sets

A file set is the content of one folder, the working folder: texts of files at
their places, and folders without files. A folder with a file somewhere inside
is there without being listed. What lies around the working folder is unknown: it
can be named by `..`, and nothing is found in it.
-/

namespace OpenApi

/-- The names that lead from the working folder to a place. -/
abbrev Place := List String

/-- The files of the working folder. -/
structure FileSet where
  files : List (Place × String) := []
  folders : List Place := []
deriving Repr

namespace FileSet

open Disk (Fault Entry)

/-! ## Places -/

/-- The text of the file at a place. -/
def textAt (set : FileSet) (place : Place) : Option String := List.lookup place set.files

/-- Whether a place is a folder: the working folder or one around it, a folder that was made, or
one that has something inside. -/
def isFolderAt (set : FileSet) (place : Place) : Bool :=
  place.all (· == "..") || (set.folders ++ set.files.map (·.1)).any fun other =>
    place.isPrefixOf other && (place != other || set.folders.contains place)

/-- What stands at a place. -/
def entryAt (set : FileSet) (place : Place) : Option Entry :=
  if (set.textAt place).isSome then some .file
  else if set.isFolderAt place then some .folder
  else none

/-- The place of the folder around a place. -/
def placeAround (place : Place) : Place :=
  if place.all (· == "..") then place ++ [".."] else place.dropLast

/-- Go along the steps of a path. Every step starts in a folder. -/
def follow (set : FileSet) : Place → List String → Except Fault Place
  | place, [] => .ok place
  | place, step :: rest =>
    match set.entryAt place with
    | none => .error .notFound
    | some .file => .error .notFolder
    | some .folder =>
      if step = "" || step = "." then follow set place rest
      else if step = ".." then follow set (placeAround place) rest
      else follow set (place ++ [step]) rest

/-- The place that a path means, whether or not something stands there. -/
def place (set : FileSet) (path : String) : Except Fault Place :=
  if path.isEmpty || path.startsWith "/" then .error .notFound
  else set.follow [] (Disk.segments path)

/-! ## Actions -/

/-- The text of the file that a path means. -/
def read (set : FileSet) (path : String) : Except Fault String := do
  let place ← set.place path
  match set.textAt place with
  | some text => .ok text
  | none => .error (if set.isFolderAt place then .isFolder else .notFound)

/-- What stands at a path. -/
def find (set : FileSet) (path : String) : Option Entry :=
  match set.place path with
  | .ok place => set.entryAt place
  | .error _ => none

/-- The names in the folder that a path means. -/
def names (set : FileSet) (path : String) : List String :=
  match set.place path with
  | .error _ => []
  | .ok place =>
    ((set.folders ++ set.files.map (·.1)).filterMap fun other =>
      (List.isPrefixOf? place other).bind List.head?).eraseDups

/-- Make the folders along the steps of a path. -/
def makeFolders (set : FileSet) : Place → List String → Except Fault FileSet
  | _, [] => .ok set
  | place, step :: rest =>
    let next :=
      if step = "" || step = "." then place
      else if step = ".." then placeAround place
      else place ++ [step]
    match set.entryAt next with
    | some .folder => makeFolders set next rest
    | some .file => .error (if rest.isEmpty then .alreadyThere else .notFolder)
    | none => makeFolders { set with folders := set.folders ++ [next] } next rest

/-- Make the folder that a path means, and those around it. -/
def makeFolder (set : FileSet) (path : String) : Except Fault FileSet :=
  if path.isEmpty then .ok set else set.makeFolders [] (Disk.segments path)

/-- Put a text at a place. -/
def put (set : FileSet) (place : Place) (text : String) : FileSet :=
  { set with files := set.files.filter (·.1 != place) ++ [(place, text)] }

/-- Put a text into the file that a path means. -/
def write (set : FileSet) (path text : String) : Except Fault FileSet := do
  let place ← set.place path
  if path.endsWith "/" || set.isFolderAt place then .error .isFolder
  else .ok (set.put place text)

/-- The set of files with the given paths and texts. -/
def ofList (files : List (String × String)) : FileSet :=
  files.foldl (fun set (path, text) => set.put (Disk.segments path) text) {}

/-! ## Disk -/

/-- Take an action that changes the set unless it fails. -/
def act (action : FileSet → Except Fault FileSet) : StateM FileSet (Except Fault Unit) :=
  fun set =>
    match action set with
    | .ok set => (.ok (), set)
    | .error fault => (.error fault, set)

/-- The disk of a file set. -/
def disk : Disk (StateM FileSet) where
  read path := return (← get).read path
  find path := return (← get).find path
  names path := return (← get).names path
  makeFolder path := act (·.makeFolder path)
  write path text := act (·.write path text)

end FileSet
end OpenApi
