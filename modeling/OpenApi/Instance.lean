-- SUMMARY: Instances: decoded values of types, and their JSON.
import OpenApi.Model
import OpenApi.Scalar

/-!
# Instances

An instance is a value that has been accepted by a type. It says which alternative
each union selected; its JSON does not.
-/

namespace OpenApi

/-- A decoded value. -/
inductive Instance where
  /-- An optional field that is present and null. -/
  | null
  | scalar (value : Scalar)
  | array (items : List Instance)
  /-- The fields that are present, in the order of the model. -/
  | object (model : ModelId) (fields : List (String × Instance))
  /-- The alternative of a union that accepted the value. -/
  | variant (union : ModelId) (index : Nat) (value : Instance)

namespace Instance

/-- The model and the fields of an object, seen through unions. -/
def asObject : Instance → Option (ModelId × Keyed Instance)
  | .object model fields => some (model, fields)
  | .variant _ _ value => value.asObject
  | _ => none

/-- The scalar, seen through unions. -/
def asScalar : Instance → Option Scalar
  | .scalar value => some value
  | .variant _ _ value => value.asScalar
  | _ => none

/-- The alternative that the outermost union selected. -/
def variantIndex : Instance → Option Nat
  | .variant _ index _ => some index
  | _ => none

mutual

/-- The JSON of an instance. -/
def toJson : Instance → Json
  | .null => .null
  | .scalar value => value.toJson
  | .array items => .arr (toJsonItems items)
  | .object _ fields => .obj (toJsonFields fields)
  | .variant _ _ value => toJson value

/-- The JSON of items. -/
def toJsonItems : List Instance → List Json
  | [] => []
  | item :: rest => toJson item :: toJsonItems rest

/-- The JSON of fields. -/
def toJsonFields : List (String × Instance) → List (String × Json)
  | [] => []
  | (name, value) :: rest => (name, toJson value) :: toJsonFields rest

end

end Instance
end OpenApi
