-- SUMMARY: Why a JSON text or value is no schema document.
import OpenApi.Json.Tree
import OpenApi.Text.Quoted

/-!
# Faults of documents

A document is read as records of known fields. A fault says what was found where
something else was expected, which choice of forms none fits, or what is wrong
with the JSON text itself.
-/

namespace OpenApi.Wire

/-- The records of a document. -/
inductive Record where
  | document | components | schema
deriving DecidableEq, Repr

/-- The name of a record in messages. -/
def Record.name : Record → String
  | .document => "struct RawDocument"
  | .components => "struct RawComponents"
  | .schema => "struct RawSchema"

/-- The number of fields of a record. -/
def Record.size : Record → Nat
  | .document => 4
  | .components => 1
  | .schema => 13

/-- What a place of a document asks for. -/
inductive Expected where
  | string | map | sequence
  | record (of : Record)
deriving DecidableEq, Repr

/-- What is asked for, as messages name it. -/
def Expected.name : Expected → String
  | .string => "a string"
  | .map => "a map"
  | .sequence => "a sequence"
  | .record kind => kind.name

/-- Places where one of several forms may stand. -/
inductive Choice where
  | type | required | discriminator
deriving DecidableEq, Repr

/-- The name of a choice in messages. -/
def Choice.name : Choice → String
  | .type => "RawType"
  | .required => "RawRequired"
  | .discriminator => "RawDiscriminator"

/-- What stands at a place, as messages name it. -/
def describe : Json → String
  | .null => "null"
  | .bool value => "boolean `" ++ toString value ++ "`"
  | .num (.int value) => "integer `" ++ toString value ++ "`"
  | .num (.float value) => "floating point `" ++ value.text ++ "`"
  | .str value => "string " ++ Text.quoted value
  | .arr _ => "sequence"
  | .obj _ => "map"

/-- Why a document cannot be read. -/
inductive Cause where
  /-- The text is no JSON. -/
  | malformed (defect : Json.Defect)
  /-- Something else was expected. -/
  | mismatch (found : Json) (expected : Expected)
  /-- None of the forms fits. -/
  | noForm (choice : Choice)
  /-- A field of a record stands there twice. -/
  | repeated (field : String)
  /-- A record written as a list lacks the field at this place. -/
  | tooShort (count : Nat) (record : Record)
  /-- A record written as a list of this length has fields too many. -/
  | tooLong (count : Nat)

/-- The words for a cause. -/
def Cause.message : Cause → String
  | .malformed defect => defect.message
  | .mismatch found expected =>
    "invalid type: " ++ describe found ++ ", expected " ++ expected.name
  | .noForm choice => "data did not match any variant of untagged enum " ++ choice.name
  | .repeated field => "duplicate field `" ++ field ++ "`"
  | .tooShort count record =>
    "invalid length " ++ toString count ++ ", expected " ++ record.name ++ " with " ++
      toString record.size ++ (if record.size = 1 then " element" else " elements")
  | .tooLong count =>
    "invalid length " ++ toString count ++ ", expected fewer elements in array"

/-- A cause and the number of bytes after which it was noticed, once that is known. -/
structure Fault where
  cause : Cause
  offset : Option Nat

/-- A fault of the JSON text. -/
def Fault.ofJson (fault : Json.Fault) : Fault := ⟨.malformed fault.defect, some fault.offset⟩

/-- Place a fault at the point where its reader rests, unless it has been placed. -/
def Fault.restAt (offset : Nat) (fault : Fault) : Fault :=
  { fault with offset := fault.offset.or (some offset) }

end OpenApi.Wire
