-- SUMMARY: Scalar values: decoded from JSON by their type, and written back.
import OpenApi.Format
import OpenApi.Violation
import OpenApi.Calendar.Moment
import OpenApi.Address.Network
import OpenApi.Address.Shape
import OpenApi.Pattern.Check

/-!
# Scalars

A scalar type decides which JSON values it takes and what they mean. An integer
literal in a number stays an integer. Dates, times and addresses are decoded into
what they stand for and written back in one spelling; any other text is kept as
it is once its shape has been checked.
-/

namespace OpenApi

open Calendar (Date Clock Moment Zone)

/-- A decoded scalar. -/
inductive Scalar where
  | bool (value : Bool)
  | int (value : Int)
  | number (value : Double)
  | text (value : String)
  | date (value : Date)
  | dateTime (value : Moment) (zone : Zone)
  | time (value : Clock) (zone : Zone)
  | ip (value : Ip)
deriving DecidableEq

namespace ScalarType

/-! ## Decoding -/

/-- A value of another kind was found. -/
def wrongKind (type : ScalarType) (found : Json) : ViolationKind :=
  .wrongType type.name found.kind

/-- A value of the right kind is no such scalar. -/
def invalid (type : ScalarType) (reason : String) : ViolationKind :=
  .invalidFormat type.name reason

/-- Whether an integer fits 64 bits with a sign. -/
def fitsSigned (n : Int) : Bool := -0x8000000000000000 ≤ n && n < 0x8000000000000000

/-- Keep a text that has a shape. -/
def keep (type : ScalarType) (ok : Bool) (text reason : String) : Except ViolationKind Scalar :=
  if ok then .ok (.text text) else .error (type.invalid reason)

/-- Read a time of day, with or without a `Z` behind it. -/
def readTime (text : List Char) : Except Calendar.Fault (Clock × Zone) :=
  if text.getLast? = some 'Z' then (Clock.read text.dropLast).map fun clock => (clock, .zulu)
  else (Clock.read text).map fun clock => (clock, .floating)

/-- Decode a text. -/
def decodeText (type : ScalarType) (text : String) : Except ViolationKind Scalar :=
  let chars := text.toList
  let dated {α : Type} (result : Except Calendar.Fault α) (make : α → Scalar) :
      Except ViolationKind Scalar :=
    match result with
    | .ok value => .ok (make value)
    | .error fault => .error (type.invalid fault.message)
  let network (family : NetworkFamily) : Except ViolationKind Scalar :=
    match Network.check family text with
    | .ok _ => .ok (.text text)
    | .error fault => .error (type.invalid fault.message)
  let address (excluded : NetworkFamily) (reason : String) : Except ViolationKind Scalar :=
    match Ip.read chars with
    | none => .error (type.invalid "not an ip address")
    | some ip => if Network.excludes excluded ip then .error (type.invalid reason) else .ok (.ip ip)
  match type with
  | .text | .password | .binary | .path => .ok (.text text)
  | .byte => type.keep (Shape.isBase64 chars) text "not base64"
  | .email => type.keep (Shape.isEmail chars) text "not an email address"
  | .nameEmail => type.keep (Shape.isNamedEmail chars) text "not a name/email pair"
  | .uri => type.keep (Shape.isUri chars) text "not an absolute uri"
  | .uuid => type.keep (Shape.isUuid chars) text "not a uuid"
  | .date => dated (Date.read text) .date
  | .dateTime => dated (Moment.read text) fun (moment, zone) => .dateTime moment zone
  | .time => dated (readTime chars) fun (clock, zone) => .time clock zone
  | .ipv4 => address .v4 "expected an ipv4 address"
  | .ipv6 => address .v6 "expected an ipv6 address"
  | .ipAny => address .any ""
  | .ipv4Network => network .v4
  | .ipv6Network => network .v6
  | .ipAnyNetwork => network .any
  | .regex =>
    match Pattern.check text with
    | .ok _ => .ok (.text text)
    | .error refusal => .error (type.invalid (refusal.message text))
  | .boolean | .integer | .float | .timeDelta => .error (type.wrongKind (.str text))

/-- Decode a JSON value. -/
def decode (type : ScalarType) (value : Json) : Except ViolationKind Scalar :=
  match type with
  | .boolean =>
    match value with
    | .bool b => .ok (.bool b)
    | other => .error (type.wrongKind other)
  | .integer =>
    match value with
    | .num (.int n) =>
      if fitsSigned n then .ok (.int n)
      else .error (type.invalid "out of range for a 64-bit integer")
    | .num (.float x) => .error (type.invalid ("integer literal required, found " ++ x.text))
    | other => .error (type.wrongKind other)
  | .float | .timeDelta =>
    match value with
    | .num (.int n) =>
      if fitsSigned n then .ok (.int n)
      else .ok (.number ((Double.ofNat? n.toNat).getD Double.zero))
    | .num (.float x) => .ok (.number x)
    | other => .error (type.wrongKind other)
  | _ =>
    match value with
    | .str content => type.decodeText content
    | other => .error (type.wrongKind other)

end ScalarType

/-! ## Encoding -/

/-- Write a scalar as a JSON value. -/
def Scalar.toJson : Scalar → Json
  | .bool value => .bool value
  | .int value => .num (.int value)
  | .number value => .num (.float value)
  | .text value => .str value
  | .date value => .str value.text
  | .dateTime value zone => .str (value.text zone)
  | .time value zone => .str (value.text ++ if zone = .zulu then "Z" else "")
  | .ip value => .str value.text

end OpenApi
