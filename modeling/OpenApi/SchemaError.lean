-- SUMMARY: Why a document cannot be loaded or compiled.
import OpenApi.Primitive
import OpenApi.Wire.Fault

/-!
# Schema errors

A schema error ends the loading or the compilation of a document. Violations of an
instance are never schema errors.
-/

namespace OpenApi

/-- Why a document cannot be loaded or compiled. -/
inductive SchemaError where
  /-- The document cannot be read; the position is known if it is a text. -/
  | parse (path : List Json.Step) (cause : Wire.Cause) (position : Option Json.Position)
  | unsupportedDocument (reason : String)
  | unresolvedReference (reference : String)
  | unknownType (identity tag : String)
  /-- No entry for a format of a type, and none for the type without a format. -/
  | malformedRegistry (primitive : Primitive) (format : Option String)
  | notScalar (primitive : Primitive)
  | missingItems (identity : String)
  | uncoveredDiscriminator (property : String) (path : List String)
  | conflictingField (model field : String)
  | cyclicAllOf (identity : String)
  | cyclicUnion (identity : String)
  | unmergeableMember (identity member : String)
  | unknownSchema (name : String)
  /-- A model was reserved and never built. -/
  | incomplete (identity : String)

/-- An optional text as messages show it. -/
def quotedOption : Option String → String
  | none => "None"
  | some text => "Some(" ++ Text.quoted text ++ ")"

/-- The message for a schema error. -/
def SchemaError.message : SchemaError → String
  | .parse path cause position =>
    "failed to parse schema document at " ++ Json.Step.pathText path ++ ": " ++ cause.message ++
      (position.map Json.Position.suffix).getD ""
  | .unsupportedDocument reason => "unsupported document: " ++ reason
  | .unresolvedReference reference => "unresolved reference `" ++ reference ++ "`"
  | .unknownType identity tag => "schema `" ++ identity ++ "` declares unknown type `" ++ tag ++ "`"
  | .malformedRegistry primitive format =>
    "format registry has no `" ++ primitive.tag ++ "` entry for format " ++ quotedOption format ++
      " and no default entry"
  | .notScalar primitive => "`" ++ primitive.tag ++ "` is not a scalar type"
  | .missingItems identity => "array schema `" ++ identity ++ "` has no items"
  | .uncoveredDiscriminator property path =>
    "discriminator `" ++ property ++ "` has no mapping entry covering [" ++
      String.intercalate ", " path ++ "]"
  | .conflictingField model field =>
    "allOf of `" ++ model ++ "` redefines field `" ++ field ++ "` with a different type"
  | .cyclicAllOf identity => "allOf of `" ++ identity ++ "` includes itself"
  | .cyclicUnion identity =>
    "union `" ++ identity ++ "` reaches itself without passing through an object or array"
  | .unmergeableMember identity member =>
    "allOf of `" ++ identity ++ "` cannot merge member `" ++ member ++
      "`: only object schemas contribute fields"
  | .unknownSchema name => "no schema named `" ++ name ++ "`"
  | .incomplete identity => "synthesis of `" ++ identity ++ "` did not complete"

end OpenApi
