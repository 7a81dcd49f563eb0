-- SUMMARY: Reading a located JSON tree as a schema document.
import OpenApi.Wire
import OpenApi.Wire.Fault

/-!
# Reading documents

A record is written as an object, whose unknown members are skipped, or as a list
of its fields in order. A field that may be missing may also be `null`. The first
fault in reading order ends the reading; it knows the place of the value in which
it lies.

A fault that no reader of values notices (a form that does not fit, a repeated
field) is placed where the reader of the record around it comes to rest.
-/

namespace OpenApi.Wire

open Json (Tree Key Pause Ending Located Breach)

/-- A result of reading, or a fault and its place. -/
abbrev Read (α : Type) := Except (Located Fault) α

/-! ## Leaves -/

/-- Take over a fault of the JSON text. -/
def ofJson {α : Type} (result : Except (Located Json.Fault) α) : Except (Located Fault) α :=
  result.mapError fun located => ⟨located.path, Fault.ofJson located.fault⟩

/-- Something else was expected. A list or an object is refused before it is entered. -/
def mismatch {α : Type} (expected : Expected) : Tree → Except (Located Fault) α
  | .leaf _ stop (.ok value) => .error ⟨[], ⟨.mismatch value expected, some stop⟩⟩
  | .leaf _ _ (.error fault) => .error ⟨[], Fault.ofJson fault⟩
  | .list start .. => .error ⟨[], ⟨.mismatch (.arr []) expected, some start⟩⟩
  | .record start .. => .error ⟨[], ⟨.mismatch (.obj []) expected, some start⟩⟩
  | .broken breach => .error ⟨[], Fault.ofJson breach.strict⟩

/-- A text. -/
def readString : Tree → Except (Located Fault) String
  | .leaf _ _ (.ok (.str text)) => .ok text
  | tree => mismatch .string tree

/-- Whether a tree is `null`. -/
def isNull : Tree → Bool
  | .leaf _ _ (.ok .null) => true
  | _ => false

/-- A value that may be `null`. -/
def readOptional {α : Type} (read : Tree → Except (Located Fault) α) (tree : Tree) :
    Except (Located Fault) (Option α) :=
  if isNull tree then .ok none else (read tree).map some

/-- Any value. -/
def readValue (tree : Tree) : Except (Located Fault) Json := ofJson tree.value

/-- The items of a list, each any value. -/
def readValues : Tree → Except (Located Fault) (List Json)
  | tree@(.list ..) => (readValue tree).map fun value =>
      match value with
      | .arr items => items
      | _ => []
  | tree => mismatch .sequence tree

/-- Skip a value. -/
def skip (tree : Tree) : Except (Located Fault) Unit :=
  match tree.lenientFault with
  | some fault => .error ⟨[], Fault.ofJson fault⟩
  | none => .ok ()

/-! ## Choices -/

/-- Texts only. -/
def strings? : List Json → Option (List String)
  | [] => some []
  | .str text :: rest => (strings? rest).map (text :: ·)
  | _ => none

/-- One type tag, or a list of them. -/
def TypeTag.ofJson? : Json → Option TypeTag
  | .str tag => some (.one tag)
  | .arr items => (strings? items).map .many
  | _ => none

/-- A flag, or a list of names. -/
def Required.ofJson? : Json → Option Required
  | .bool value => some (.flag value)
  | .arr items => (strings? items).map .names
  | _ => none

/-- Members whose values are texts. -/
def textMembers? : List (String × Json) → Option (List (String × String))
  | [] => some []
  | (key, .str text) :: rest => (textMembers? rest).map ((key, text) :: ·)
  | _ => none

/-- The tags of a discriminator, which may be missing. -/
def mapping? : List Json → Option (Option (Keyed String))
  | [] => some none
  | [.null] => some none
  | [.obj members] => (textMembers? members).map fun pairs => some (Keyed.ofList pairs)
  | _ => none

/-- The name of a property, alone or with a mapping; either field may stand there once. -/
def discriminatorOfJson? : Json → Option Discriminator
  | .str property => some { property := property }
  | .obj members =>
    let under (key : String) : List Json := (members.filter (·.1 == key)).map (·.2)
    match under "propertyName", mapping? (under "mapping") with
    | [.str property], some mapping => some { property := property, mapping := mapping }
    | _, _ => none
  | _ => none

/-- One of several forms. -/
def readChoice {α : Type} (choice : Choice) (ofJson? : Json → Option α) (tree : Tree) :
    Except (Located Fault) α := do
  match ofJson? (← ofJson tree.contents) with
  | some result => .ok result
  | none => .error ⟨[], ⟨.noForm choice, none⟩⟩

/-! ## Records -/

/-- Go out of a member or an item of a record, behind which the reader rests at `rest`. -/
def leaveAt {α : Type} (step : Json.Step) (rest : Nat) (result : Except (Located Fault) α) :
    Except (Located Fault) α :=
  result.mapError fun located => ⟨step :: located.path, located.fault.restAt rest⟩

/-- The text of a key. -/
def readKey (key : Key) : Except (Located Fault) String := ofJson (Tree.keyName key)

/-- A known field may stand in a record once. -/
def onceOnly (seen : List String) (name : String) (rest : Nat) : Except (Located Fault) Unit :=
  if seen.contains name then .error ⟨[], ⟨.repeated name, some rest⟩⟩ else .ok ()

/-- The end of a record written as an object, of which some fields have been seen. -/
def endRecord (seen : List String) : Ending → Except (Located Fault) Unit
  | .colonless key fault => do
    let name ← readKey key
    onceOnly seen name key.rest
    .error ⟨[], Fault.ofJson fault⟩
  | ending => ofJson (Tree.endMembers ending)

/-- A field of a record: its name, and whether it may be left out when the record is written as
a list. -/
structure FieldSpec where
  name : String
  hasDefault : Bool
deriving DecidableEq, Repr

/-- What is left over when the fields and the items of a list have been paired. -/
structure Surplus where
  /-- The number of items that were read. -/
  count : Nat := 0
  /-- The fields without an item. -/
  fields : List FieldSpec := []
  /-- What follows the last item that was read. -/
  pause : Option Pause := none
  /-- The number of items without a field. -/
  extra : Nat := 0

/-- The end of a record written as a list. -/
def endPlaces (record : Record) (ending : Except Breach Nat) (surplus : Surplus) :
    Except (Located Fault) Unit :=
  if surplus.fields.isEmpty then
    match surplus.pause.bind (·.refusal) with
    | some fault => .error ⟨[], Fault.ofJson fault⟩
    | none =>
      if surplus.extra = 0 then .ok ()
      else .error ⟨[], ⟨.tooLong (surplus.count + surplus.extra), none⟩⟩
  else
    match ending with
    | .error breach => .error ⟨[], Fault.ofJson breach.strict⟩
    | .ok stop =>
      match surplus.fields.findIdx? (!·.hasDefault) with
      | some missing => .error ⟨[], ⟨.tooShort (surplus.count + missing) record, some stop⟩⟩
      | none => .ok ()

/-- The members of a record written as an object, given how a field is set. -/
def readMembers {α : Type} (specs : List FieldSpec)
    (set : α → String → Tree → Except (Located Fault) α) :
    List String → α → List (Key × Tree × Nat) → Except (Located Fault) (α × List String)
  | seen, acc, [] => .ok (acc, seen)
  | seen, acc, (key, tree, rest) :: members => do
    let name ← readKey key
    if specs.any (·.name == name) then
      onceOnly seen name key.rest
      let acc ← leaveAt (.key name) rest (set acc name tree)
      readMembers specs set (name :: seen) acc members
    else
      leaveAt (.key name) rest (skip tree)
      readMembers specs set seen acc members

/-- The items of a record written as a list, given how a field is set. -/
def readPlaces {α : Type} (set : α → String → Tree → Except (Located Fault) α) :
    List FieldSpec → Nat → Option Pause → α → List (Tree × Pause) →
      Except (Located Fault) (α × Surplus)
  | fields, count, pause, acc, [] => .ok (acc, ⟨count, fields, pause, 0⟩)
  | [], count, pause, acc, items => .ok (acc, ⟨count, [], pause, items.length⟩)
  | field :: fields, count, _, acc, (tree, pause) :: items => do
    let acc ← leaveAt (.index count) pause.rest (set acc field.name tree)
    readPlaces set fields (count + 1) (some pause) acc items

/-- A record, given its fields and how one is set. -/
def readRecord {α : Type} (record : Record) (specs : List FieldSpec)
    (set : α → String → Tree → Except (Located Fault) α) (start : α) :
    Tree → Except (Located Fault) α
  | .record place deep members ending => do
    ofJson (Tree.enter place deep)
    let (acc, seen) ← readMembers specs set [] start members
    endRecord seen ending
    .ok acc
  | .list place deep items ending => do
    ofJson (Tree.enter place deep)
    let (acc, surplus) ← readPlaces set specs 0 none start items
    endPlaces record ending surplus
    .ok acc
  | tree => mismatch (.record record) tree

/-! ## Schemas -/

/-- The fields of a schema. -/
def schemaFields : List FieldSpec :=
  [⟨"$ref", false⟩, ⟨"type", false⟩, ⟨"format", false⟩, ⟨"title", false⟩, ⟨"properties", true⟩,
   ⟨"required", false⟩, ⟨"items", false⟩, ⟨"allOf", true⟩, ⟨"anyOf", true⟩, ⟨"oneOf", true⟩,
   ⟨"discriminator", false⟩, ⟨"enum", false⟩, ⟨"default", false⟩]

/-- A tree read as each of the things that hold schemas. -/
structure Nested where
  schema : Unit → Except (Located Fault) Schema
  schemas : Unit → Except (Located Fault) (List Schema)
  named : Unit → Except (Located Fault) (List (String × Schema))

/-- Set a field of a schema to what a tree says. -/
def setField (schema : Schema) (name : String) (tree : Tree) (nested : Nested) :
    Except (Located Fault) Schema := do
  match name with
  | "$ref" => .ok { schema with reference := ← readOptional readString tree }
  | "type" => .ok { schema with type := ← readOptional (readChoice .type TypeTag.ofJson?) tree }
  | "format" => .ok { schema with format := ← readOptional readString tree }
  | "title" => .ok { schema with title := ← readOptional readString tree }
  | "properties" => .ok { schema with properties := ← nested.named () }
  | "required" =>
    .ok { schema with required := ← readOptional (readChoice .required Required.ofJson?) tree }
  | "items" => .ok { schema with items := ← readOptional (fun _ => nested.schema ()) tree }
  | "allOf" => .ok { schema with allOf := ← nested.schemas () }
  | "anyOf" => .ok { schema with anyOf := ← nested.schemas () }
  | "oneOf" => .ok { schema with oneOf := ← nested.schemas () }
  | "discriminator" =>
    .ok { schema with
      discriminator := ← readOptional (readChoice .discriminator discriminatorOfJson?) tree }
  | "enum" => .ok { schema with enum := ← readOptional readValues tree }
  | _ => .ok { schema with default := ← readOptional readValue tree }

mutual

/-- A tree read as a schema, as a list of schemas and as an object of named schemas. -/
def nested : Tree → Nested
  | tree@(.record place deep members ending) =>
    { schema := fun _ => do
        ofJson (Tree.enter place deep)
        let (schema, seen) ← readSchemaMembers [] {} members
        endRecord seen ending
        .ok schema,
      schemas := fun _ => mismatch .sequence tree,
      named := fun _ => do
        ofJson (Tree.enter place deep)
        let named ← readNamed members
        ofJson (Tree.endMembers ending)
        .ok (Keyed.ofList named) }
  | tree@(.list place deep items ending) =>
    { schema := fun _ => do
        ofJson (Tree.enter place deep)
        let (schema, surplus) ← readSchemaPlaces schemaFields 0 none {} items
        endPlaces .schema ending surplus
        .ok schema,
      schemas := fun _ => do
        ofJson (Tree.enter place deep)
        let schemas ← readSchemas 0 items
        ofJson (Tree.endItems ending)
        .ok schemas,
      named := fun _ => mismatch .map tree }
  | tree =>
    { schema := fun _ => mismatch (.record .schema) tree,
      schemas := fun _ => mismatch .sequence tree,
      named := fun _ => mismatch .map tree }

/-- The members of a schema written as an object. -/
def readSchemaMembers (seen : List String) (schema : Schema) :
    List (Key × Tree × Nat) → Except (Located Fault) (Schema × List String)
  | [] => .ok (schema, seen)
  | (key, tree, rest) :: members => do
    let name ← readKey key
    if schemaFields.any (·.name == name) then
      onceOnly seen name key.rest
      let schema ← leaveAt (.key name) rest (setField schema name tree (nested tree))
      readSchemaMembers (name :: seen) schema members
    else
      leaveAt (.key name) rest (skip tree)
      readSchemaMembers seen schema members

/-- The items of a schema written as a list. -/
def readSchemaPlaces (fields : List FieldSpec) (count : Nat) (pause : Option Pause)
    (schema : Schema) : List (Tree × Pause) → Except (Located Fault) (Schema × Surplus)
  | [] => .ok (schema, ⟨count, fields, pause, 0⟩)
  | (tree, next) :: items =>
    match fields with
    | [] => .ok (schema, ⟨count, [], pause, items.length + 1⟩)
    | field :: fields => do
      let schema ← leaveAt (.index count) next.rest
        (setField schema field.name tree (nested tree))
      readSchemaPlaces fields (count + 1) (some next) schema items

/-- Schemas in a list, from the given place on. -/
def readSchemas (place : Nat) : List (Tree × Pause) → Except (Located Fault) (List Schema)
  | [] => .ok []
  | (tree, _) :: items => do
    let schema ← ((nested tree).schema ()).mapError (·.inside (.index place))
    let schemas ← readSchemas (place + 1) items
    .ok (schema :: schemas)

/-- Schemas under names. -/
def readNamed : List (Key × Tree × Nat) → Except (Located Fault) (List (String × Schema))
  | [] => .ok []
  | (key, tree, _) :: members => do
    let name ← readKey key
    let schema ← ((nested tree).schema ()).mapError (·.inside (.key name))
    let named ← readNamed members
    .ok ((name, schema) :: named)

end

/-- A schema. -/
def readSchema (tree : Tree) : Except (Located Fault) Schema := (nested tree).schema ()

/-! ## Documents -/

/-- The components of a document, of which only the schemas count. -/
def readComponents (tree : Tree) : Except (Located Fault) (List (String × Schema)) :=
  readRecord .components [⟨"schemas", true⟩] (fun _ _ tree => (nested tree).named ()) [] tree

/-- A document. -/
def readDocument (tree : Tree) : Except (Located Fault) Document :=
  readRecord .document
    [⟨"swagger", false⟩, ⟨"openapi", false⟩, ⟨"definitions", true⟩, ⟨"components", true⟩]
    (fun doc name tree => do
      match name with
      | "swagger" => .ok { doc with swagger := ← readOptional readString tree }
      | "openapi" => .ok { doc with openapi := ← readOptional readString tree }
      | "definitions" => .ok { doc with definitions := ← (nested tree).named () }
      | _ => .ok { doc with components := ← readComponents tree })
    {} tree

end OpenApi.Wire
