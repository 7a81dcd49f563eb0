-- SUMMARY: Decoding: whether a JSON value is an instance of a type, with every violation if not.
import OpenApi.Instance
import OpenApi.Json.Printer
import OpenApi.Stop
import OpenApi.Violation

/-!
# Decoding

A value is checked against a type part by part. Required fields must be present;
optional ones may be left out or null, and one that is left out takes its default.
A field with an enumeration must be one of its values, and no field may be there
that the model does not declare. A union with mapped tags goes by the tag; any
other union, and an anchor, takes the first candidate that accepts the value. What
candidates and defaults violate is not reported.

A check has a bound on its depth, because models refer to each other. It may reach
the bound only where a default contains itself, or a union is its own alternative.
-/

namespace OpenApi

/-! ## Checks -/

namespace Report

/-- A report at the same place without violations. -/
def fresh (report : Report) : Report := { report with violations := #[] }

end Report

/-- A check of a value against a type. It adds violations to the report unless it gives an
instance, and gives nothing at all when its depth is used up. -/
abbrev Check := Ty → Json → Report → Option (Option Instance × Report)

namespace Check

/-- Refuse a value for one violation. -/
def refuse (kind : ViolationKind) (report : Report) : Option (Option Instance × Report) :=
  some (none, report.record kind)

/-- Check one step further in. -/
def inside (segment : Segment) (check : Report → Option (Option Instance × Report))
    (report : Report) : Option (Option Instance × Report) :=
  (check (report.enter segment)).map fun (answer, report) => (answer, report.leave)

/-- Keep an instance unless violations have been added since. -/
def unlessViolated (before after : Report) (value : Instance) : Option Instance :=
  if after.violations.size = before.violations.size then some value else none

variable (set : ModelSet) (check : Check)

/-! ## Arrays -/

/-- Check items, the first of which stands at `place`. -/
def items (type : Ty) (place : Nat) :
    List Json → Report → Option (List Instance × Report)
  | [], report => some ([], report)
  | value :: rest, report => do
    let (answer, report) ← inside (.index place) (check type value) report
    let (answers, report) ← items type (place + 1) rest report
    some (answer.toList ++ answers, report)

/-- Check an array. -/
def array (type : Ty) (value : Json) (report : Report) : Option (Option Instance × Report) :=
  match value with
  | .arr values => do
    let (answers, after) ← items check type 0 values report
    some (unlessViolated report after (.array answers), after)
  | other => refuse (.wrongType (set.typeName (.array type)) other.kind) report

/-! ## Objects -/

/-- Check the value of a field: it has to be in the enumeration, if there is one, and of the
type. -/
def given (field : Field) (value : Json) (report : Report) :
    Option (Option Instance × Report) :=
  match field.enum with
  | none => check field.type value report
  | some permitted =>
    if permitted.any fun allowed => allowed.same value then check field.type value report
    else
      let texts := permitted.map Json.compact
      refuse (.notInEnum value.compact (String.intercalate ", " texts)) report

/-- What a field holds that is left out: its default, if that is of the type. -/
def leftOut (field : Field) (report : Report) : Option (Option Instance × Report) :=
  match field.default with
  | none => some (none, report)
  | some default => do
    let (answer, _) ← check field.type default report.fresh
    some (answer, report)

/-- Check a field of an object. -/
def field (members : Keyed Json) (field : Field) (report : Report) :
    Option (Option Instance × Report) :=
  match members.get? field.name with
  | none => if field.required then refuse .missingField report else leftOut check field report
  | some .null => if field.required then given check field .null report else some (some .null, report)
  | some value => given check field value report

/-- Check the fields of an object in the order of the model. -/
def fields (members : Keyed Json) :
    List Field → Report → Option (List (String × Instance) × Report)
  | [], report => some ([], report)
  | next :: rest, report => do
    let (answer, report) ← inside (.field next.name) (field check members next) report
    let (answers, report) ← fields members rest report
    some ((answer.map fun value => (next.name, value)).toList ++ answers, report)

/-- Report the keys that a model does not declare. -/
def undeclared (model : Model) (members : Keyed Json) (report : Report) : Report :=
  members.keys.foldl (fun report key =>
    if (model.field key).isSome then report
    else ((report.enter (.field key)).record (.unexpectedField model.name)).leave) report

/-- Check an object. -/
def object (id : ModelId) (value : Json) (report : Report) :
    Option (Option Instance × Report) :=
  let model := set.model id
  match value with
  | .obj members => do
    let (answers, after) ← fields check members model.fields report
    let after := undeclared model members after
    some (unlessViolated report after (.object id answers), after)
  | other => refuse (.wrongType model.name other.kind) report

/-! ## Unions and anchors -/

/-- The first type that accepts a value, with its place. -/
def firstMatch (value : Json) (report : Report) (place : Nat) :
    List Ty → Option (Option (Nat × Instance))
  | [] => some none
  | type :: rest => do
    let (answer, scratch) ← check type value report.fresh
    match answer with
    | some accepted =>
      if scratch.violations.isEmpty then some (some (place, accepted))
      else firstMatch value report (place + 1) rest
    | none => firstMatch value report (place + 1) rest

/-- The alternative that the tag of a value selects. -/
def select (name : String) (discriminator : Discriminator) (tags : Keyed Nat)
    (members : Keyed Json) : Except ViolationKind Nat :=
  match members.get? discriminator.property with
  | none => .error (.missingDiscriminator discriminator.property)
  | some (.str tag) =>
    match tags.get? tag with
    | some index => .ok index
    | none => .error (.uncoveredDiscriminator name tag)
  | some other => .error (.wrongType "discriminator string" other.kind)

/-- Check a value against the alternative that its tag selects. -/
def tagged (id : ModelId) (alternatives : List Ty) (discriminator : Discriminator)
    (tags : Keyed Nat) (value : Json) (report : Report) : Option (Option Instance × Report) :=
  let name := (set.model id).name
  match value with
  | .obj members =>
    match select name discriminator tags members with
    | .error kind => inside (.field discriminator.property) (refuse kind) report
    | .ok index => do
      let type ← alternatives[index]?
      let (answer, report) ← check type value report
      some (answer.map (.variant id index), report)
  | other => refuse (.wrongType name other.kind) report

/-- Check a value against the alternatives one after another. -/
def untagged (id : ModelId) (alternatives : List Ty) (value : Json) (report : Report) :
    Option (Option Instance × Report) := do
  match ← firstMatch check value report 0 alternatives with
  | some (index, answer) => some (some (.variant id index answer), report)
  | none => refuse (.noMatchingAlternative (set.model id).name alternatives.length) report

/-- Check a value against the variants of an anchor. -/
def anchor (schema : SchemaId) (value : Json) (report : Report) :
    Option (Option Instance × Report) :=
  match set.anchor schema with
  | none => refuse (.noVariant "<anchor>") report
  | some anchor =>
    if anchor.variants.isEmpty then refuse (.noVariant anchor.name) report
    else do
      match ← firstMatch check value report 0 (anchor.variants.map .model) with
      | some (_, answer) => some (some answer, report)
      | none => refuse (.noMatchingAlternative anchor.name anchor.variants.length) report

/-! ## Types -/

/-- Check a value against a model. -/
def model (id : ModelId) (value : Json) (report : Report) : Option (Option Instance × Report) :=
  let model := set.model id
  match model.shape with
  | .object _ => object set check id value report
  | .union alternatives _ tags =>
    match model.taggedBy with
    | some discriminator => tagged set check id alternatives discriminator tags value report
    | none => untagged set check id alternatives value report

/-- Check a value against a type, with `check` for its parts. -/
def type : Check
  | .scalar type, value, report =>
    match type.decode value with
    | .ok scalar => some (some (.scalar scalar), report)
    | .error kind => refuse kind report
  | .literal tag, value, report =>
    if value.isString tag then some (some (.scalar (.text tag)), report)
    else refuse (.literalMismatch tag value.compact) report
  | .array item, value, report => array set check item value report
  | .model id, value, report => model set check id value report
  | .anchor schema, value, report => anchor set check schema value report

/-- Check a value against a type, not deeper than `depth`. -/
def upTo : Nat → Check
  | 0, _, _, _ => none
  | depth + 1, goal, value, report => type set (upTo depth) goal value report

end Check

/-! ## Bounds -/

/-- The number of types inside a model. -/
def Model.typeCount (model : Model) : Nat :=
  match model.shape with
  | .object fields => fields.foldr (fun field count => field.type.size + count) 0
  | .union alternatives _ _ => alternatives.foldr (fun type count => type.size + count) 0

/-- The size of the defaults in a model. -/
def Model.defaultSize (model : Model) : Nat :=
  model.fields.foldr (fun field size => (field.default.map Json.size).getD 0 + size) 0

namespace ModelSet

/-- A depth that is enough: a check that comes to the same type and the same value again never
ends, so no other check goes deeper than there are pairs of a type and a value. -/
def depth (set : ModelSet) (type : Ty) (value : Json) : Nat :=
  let models := set.models.toList
  let types := models.foldr (fun model count => 1 + model.typeCount + count) 0
  let defaults := models.foldr (fun model size => model.defaultSize + size) 0
  (type.size + types + 2) * (value.size + defaults + 1) + 1

/-! ## Decoding -/

/-- Decode a value as an instance of a type. A value is refused with all its violations; decoding
has no end where the check of the value has none. -/
def decode (set : ModelSet) (type : Ty) (value : Json) : Except (Stop Failure) Instance :=
  let fail (violations : List Violation) : Except (Stop Failure) Instance :=
    .error (.failed { target := set.typeName type, violations })
  match Check.upTo set (set.depth type value) type value {} with
  | some (some answer, report) =>
    if report.violations.isEmpty then .ok answer else fail report.violations.toList
  | some (none, report) => fail report.violations.toList
  | none => .error .endless

/-- Decode a value as an instance of a model. -/
def decodeModel (set : ModelSet) (id : ModelId) (value : Json) :
    Except (Stop Failure) Instance :=
  set.decode (.model id) value

/-- Make an instance of a model from values for its fields; of several values for one field the
last one counts. -/
def construct (set : ModelSet) (id : ModelId) (fields : List (String × Json)) :
    Except (Stop Failure) Instance :=
  set.decodeModel id (.obj (Keyed.ofList fields))

end ModelSet
end OpenApi
