-- SUMMARY: Commands on documents and instances, and why they fail.
import OpenApi.Disk.Glob
import OpenApi.Json.Fault
import OpenApi.SchemaError

/-!
# Commands

One command shows the models of a document; the other validates instances from
files against one of its named schemas. A failure has a headline and perhaps a
cause.
-/

namespace OpenApi

/-- Where instances come from. -/
structure Inputs where
  /-- Paths or path patterns. -/
  patterns : List String
  /-- Whether every line of a file is an instance of its own. -/
  byLine : Bool := false
  /-- Which part of each value is the instance. -/
  pointer : Option String := none
deriving DecidableEq, Repr

/-- What is to be done. -/
inductive Command where
  /-- Show the models of a document, in a file if one is named. -/
  | inspect (schema : String) (out : Option String)
  /-- Validate instances against a named schema of a document. -/
  | validate (schema : String) (inputs : Inputs) (root : String)
deriving DecidableEq, Repr

namespace Command

/-- Why a command fails. -/
inductive Failure where
  | readDocument (path : String) (fault : Disk.Fault)
  | loadDocument (path : String) (error : SchemaError)
  | compileDocument (path : String) (error : SchemaError)
  | noRoot (name : String)
  | badPattern (fault : Glob.Fault)
  | nothingMatches (pattern : String)
  | readSource (path : String) (fault : Disk.Fault)
  /-- A file is no JSON value; `text` is what it holds. -/
  | parseSource (path : String) (fault : Json.Fault) (text : String)
  | parseLine (label : String) (fault : Json.Fault) (text : String)
  | nothingSelected (pointer label : String)
  | rejected (count total : Nat) (root : String)
  | makeFolder (fault : Disk.Fault)
  | writeView (path : String) (fault : Disk.Fault)

namespace Failure

/-- What went wrong. -/
def headline : Failure → String
  | .readDocument path _ => "failed to read schema document " ++ path
  | .loadDocument path _ => "failed to load schema document " ++ path
  | .compileDocument path _ => "failed to compile schema document " ++ path
  | .noRoot name => "no schema named `" ++ name ++ "` resolves to a type"
  | .badPattern _ | .nothingMatches _ => "failed to resolve input file paths"
  | .readSource path _ => "failed to read source file " ++ path
  | .parseSource path _ _ => "failed to parse JSON source file (" ++ path ++ ")"
  | .parseLine label _ _ => "failed to parse NDJSON line " ++ label
  | .nothingSelected pointer label =>
    "JSON pointer " ++ pointer ++ " selects nothing in " ++ label
  | .rejected count total root =>
    toString count ++ " of " ++ toString total ++ " instances failed validation against `" ++
      root ++ "`"
  | .makeFolder fault => fault.message
  | .writeView path _ => "failed to write " ++ path

/-- Why it went wrong, if the headline does not say so. -/
def cause : Failure → Option String
  | .readDocument _ fault | .readSource _ fault | .writeView _ fault => some fault.message
  | .loadDocument _ error | .compileDocument _ error => some error.message
  | .badPattern fault => some fault.message
  | .nothingMatches pattern => some ("glob pattern matched no files: " ++ pattern)
  | .parseSource _ fault text | .parseLine _ fault text => some (fault.message text)
  | .noRoot _ | .nothingSelected .. | .rejected .. | .makeFolder _ => none

/-- Indent every line of a text. -/
def indented (text : String) : String :=
  String.intercalate "\n" ((text.toList.splitOn '\n').map fun line => "    " ++ String.ofList line)

/-- The message for a failure. -/
def message (failure : Failure) : String :=
  failure.headline ++ match failure.cause with
    | none => ""
    | some cause => "\n\nCaused by:\n" ++ indented cause

end Failure

/-- What a command prints, and why it failed if it did. -/
structure Outcome where
  output : String := ""
  failure : Option Failure := none

end Command
end OpenApi
