-- SUMMARY: Scalar types, the catalog of formats, and the registry that resolves a type and a format.
import OpenApi.SchemaError

/-!
# Formats

A string or number schema may have a format. The catalog lists which scalar type
a primitive type and a format make; the registry keeps the first row for each
pair, falls back on the row without a format, and refuses where there is none.
Integers and booleans have one scalar type each, whatever their format.
-/

namespace OpenApi

/-! ## Scalar types -/

/-- The types of values without parts. -/
inductive ScalarType where
  | boolean | integer | float
  /-- Seconds as a number. -/
  | timeDelta
  | text | password | binary
  /-- Base64. -/
  | byte
  | date | dateTime | time
  | email | nameEmail | uri | uuid
  | ipv4 | ipv6 | ipAny
  | ipv4Network | ipv6Network | ipAnyNetwork
  | regex | path
deriving DecidableEq, Repr

namespace ScalarType

/-- The name of a scalar type in messages and views. -/
def name : ScalarType → String
  | .boolean => "bool"
  | .integer => "int"
  | .float => "float"
  | .timeDelta => "timedelta"
  | .text => "str"
  | .password => "password"
  | .binary => "binary"
  | .byte => "base64 bytes"
  | .date => "date"
  | .dateTime => "datetime"
  | .time => "time"
  | .email => "email"
  | .nameEmail => "name-email"
  | .uri => "uri"
  | .uuid => "uuid"
  | .ipv4 => "ipv4 address"
  | .ipv6 => "ipv6 address"
  | .ipAny => "ip address"
  | .ipv4Network => "ipv4 network"
  | .ipv6Network => "ipv6 network"
  | .ipAnyNetwork => "ip network"
  | .regex => "regex"
  | .path => "path"

/-- The primitive type of the values. -/
def primitive : ScalarType → Primitive
  | .boolean => .boolean
  | .integer => .integer
  | .float | .timeDelta => .number
  | _ => .string

end ScalarType

/-! ## Catalog -/

/-- A primitive type, a format, and the scalar type that they make. -/
structure CatalogEntry where
  primitive : Primitive
  format : Option String
  scalar : ScalarType
deriving DecidableEq, Repr

/-- Every known combination of type and format. -/
def catalog : List CatalogEntry :=
  [⟨.string, none, .text⟩,
   ⟨.string, some "password", .password⟩,
   ⟨.string, some "binary", .binary⟩,
   ⟨.string, some "byte", .byte⟩,
   ⟨.string, some "date", .date⟩,
   ⟨.string, some "date-time", .dateTime⟩,
   ⟨.string, some "time", .time⟩,
   ⟨.string, some "email", .email⟩,
   ⟨.string, some "name-email", .nameEmail⟩,
   ⟨.string, some "uri", .uri⟩,
   ⟨.string, some "uuid", .uuid⟩,
   ⟨.string, some "ipv4", .ipv4⟩,
   ⟨.string, some "ipv6", .ipv6⟩,
   ⟨.string, some "ipvanyaddress", .ipAny⟩,
   ⟨.string, some "ipv4network", .ipv4Network⟩,
   ⟨.string, some "ipv6network", .ipv6Network⟩,
   ⟨.string, some "ipvanynetwork", .ipAnyNetwork⟩,
   ⟨.string, some "regex", .regex⟩,
   ⟨.string, some "path", .path⟩,
   ⟨.number, none, .float⟩,
   ⟨.number, some "time-delta", .timeDelta⟩,
   ⟨.integer, none, .integer⟩,
   ⟨.boolean, none, .boolean⟩]

/-! ## Registry -/

/-- The scalar types of one primitive type by format. -/
abbrev FormatTable := List (Option String × ScalarType)

/-- Add an entry unless there is one for its format. -/
def FormatTable.add (table : FormatTable) (format : Option String) (scalar : ScalarType) :
    FormatTable :=
  if table.any (·.1 == format) then table else table ++ [(format, scalar)]

/-- The formats of strings and of numbers. -/
structure Registry where
  strings : FormatTable := []
  numbers : FormatTable := []
deriving DecidableEq, Repr

namespace Registry

/-- Add a row; rows for other types than strings and numbers are left out. -/
def add (registry : Registry) (row : CatalogEntry) : Registry :=
  match row.primitive with
  | .string => { registry with strings := FormatTable.add registry.strings row.format row.scalar }
  | .number => { registry with numbers := FormatTable.add registry.numbers row.format row.scalar }
  | _ => registry

/-- The registry of a catalog: the first row for a type and a format holds. -/
def ofCatalog (rows : List CatalogEntry) : Registry := rows.foldl add {}

/-- The registry of the whole catalog. -/
def standard : Registry := ofCatalog catalog

/-- The entry for a format, else the entry without a format. -/
def lookup? (table : FormatTable) (format : Option String) : Option ScalarType :=
  (format.bind fun name => List.lookup (some name) table).or (List.lookup none table)

/-- The scalar type that a primitive type and a format make. -/
def resolve (registry : Registry) (primitive : Primitive) (format : Option String) :
    Except SchemaError ScalarType :=
  let found (table : FormatTable) : Except SchemaError ScalarType :=
    match lookup? table format with
    | some scalar => .ok scalar
    | none => .error (.malformedRegistry primitive format)
  match primitive with
  | .integer => .ok .integer
  | .boolean => .ok .boolean
  | .array | .object => .error (.notScalar primitive)
  | .string => found registry.strings
  | .number => found registry.numbers

end Registry
end OpenApi
