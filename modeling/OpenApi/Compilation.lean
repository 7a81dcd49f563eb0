-- SUMMARY: Compilations: what has been built of a model set, and steps that go on after a failure.
import OpenApi.Document
import OpenApi.Model
import OpenApi.SchemaError
import OpenApi.Stop

/-!
# Compilations

A compilation holds the models that have been built so far. A model gets its index
before its body is built, so a schema that reaches itself finds the index. A step
may fail; what it did until then stays, and the compilation can go on.
-/

namespace OpenApi

/-- The state of a compilation. -/
structure Compilation where
  /-- The models by index; empty while their bodies are being built. -/
  slots : Array (Option Model) := #[]
  /-- The index of the model of each schema, the last one first. -/
  memo : List (SchemaId × ModelId) := []
  anchors : List (SchemaId × Anchor) := []
  roots : Keyed (Option Ty) := []
  /-- The schemas whose `allOf` is being merged, the innermost first. -/
  merging : List SchemaId := []
  /-- The unions being built since the last field or item, the innermost first. -/
  unions : List SchemaId := []
  /-- The number of models without a name. -/
  anonymous : Nat := 0

namespace Compilation

/-- The model of a schema. -/
def model? (state : Compilation) (schema : SchemaId) : Option ModelId :=
  List.lookup schema state.memo

/-- The anchor of a schema. -/
def anchor? (state : Compilation) (schema : SchemaId) : Option Anchor :=
  List.lookup schema state.anchors

/-- Reserve the next index for the model of a schema. -/
def reserve (state : Compilation) (schema : SchemaId) : Compilation :=
  { state with
    slots := state.slots.push none
    memo := (schema, state.slots.size) :: state.memo }

/-- Put a model into its slot. -/
def fill (state : Compilation) (id : ModelId) (model : Model) : Compilation :=
  { state with slots := state.slots.setIfInBounds id (some model) }

/-- Add the anchor of a schema, still without variants. -/
def addAnchor (state : Compilation) (schema : SchemaId) (name : String) : Compilation :=
  { state with anchors := (schema, { name }) :: state.anchors }

/-- Give the anchor of a schema its variants. -/
def setVariants (state : Compilation) (schema : SchemaId) (variants : List ModelId) :
    Compilation :=
  { state with
    anchors := state.anchors.map fun (id, anchor) =>
      (id, if id = schema then { anchor with variants } else anchor) }

/-- Note the type of a named schema. -/
def addRoot (state : Compilation) (name : String) (type : Option Ty) : Compilation :=
  { state with roots := state.roots.insert name type }

end Compilation

/-! ## Steps -/

/-- A step of a compilation: it may fail, and changes the compilation in either case. What it makes
of the compilation means nothing where it has no end. -/
abbrev Compile := ExceptT (Stop SchemaError) (StateM Compilation)

namespace Compile

/-- Fail where a check fails. -/
def ofExcept {α : Type} (result : Except SchemaError α) : Compile α :=
  fun state => (result.mapError .failed, state)

/-- Take a step between two changes of the compilation, the second of which is made also when the
step fails. -/
def between {α : Type} (enter leave : Compilation → Compilation) (step : Compile α) : Compile α :=
  fun state =>
    let (answer, state) := step (enter state)
    (answer, leave state)

end Compile
end OpenApi
