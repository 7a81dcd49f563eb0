-- SUMMARY: References to named schemas, and discriminators that map tags to them.
import OpenApi.Keyed

/-!
# References

A schema is referred to by its name, alone or behind the place where the document
keeps its schemas. A discriminator names the property that tells the variants of
a union apart, and perhaps which variant each of its values, the tags, selects.
-/

namespace OpenApi

namespace Reference

/-- The text behind the last slash. -/
def lastSegment (reference : String) : String :=
  String.ofList (reference.toList.reverse.takeWhile (· ≠ '/')).reverse

/-- Whether a mapping target means a reference: it is the same text, or a name without a slash
that the reference ends in. -/
def isTarget (target reference : String) : Bool :=
  target == reference || (!target.toList.contains '/' && lastSegment reference == target)

/-- The place of schemas in OpenAPI 3 documents. -/
def componentsPlace : String := "#/components/schemas/"

/-- The place of schemas in Swagger 2 documents. -/
def definitionsPlace : String := "#/definitions/"

/-- The name that a reference means: the reference without the place in front of it. -/
def name (reference : String) : String :=
  match List.isPrefixOf? componentsPlace.toList reference.toList with
  | some rest => String.ofList rest
  | none =>
    match List.isPrefixOf? definitionsPlace.toList reference.toList with
    | some rest => String.ofList rest
    | none => reference

end Reference

/-- The property that tells variants apart, and the reference that each tag selects. -/
structure Discriminator where
  property : String
  mapping : Option (Keyed String) := none
deriving DecidableEq, Repr

namespace Discriminator

/-- Whether the tags are mapped. -/
def isTagged (d : Discriminator) : Bool := d.mapping.isSome

/-- The first tag whose target lies on a path of references. -/
def tagForPath (d : Discriminator) (path : List String) : Option String :=
  match d.mapping with
  | none => none
  | some mapping =>
    (mapping.find? fun entry => path.any (Reference.isTarget entry.2)).map (·.1)

end Discriminator
end OpenApi
