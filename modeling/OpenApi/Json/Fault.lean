-- SUMMARY: What can be wrong with a JSON text, and the line and column of it.

/-!
# Faults

A fault is a defect and the number of bytes after which it was noticed. Its line
and column follow from the text: the column counts the bytes since the start of
the line. One place of a text can have two faults, one for a reader that wants
the value there and one for a reader that only skips it.
-/

namespace OpenApi.Json

/-- What is wrong with a JSON text. -/
inductive Defect where
  | endInValue
  | endInList
  | endInObject
  | endInString
  | expectedColon
  | expectedListSeparator
  | expectedMemberSeparator
  | expectedWord
  | expectedValue
  | invalidEscape
  | invalidNumber
  | numberOutOfRange
  | controlCharacter
  | keyNotString
  | loneSurrogate
  | unfinishedSurrogate
  | trailingComma
  | trailingCharacters
  | nestedTooDeep
deriving DecidableEq, Repr

/-- The message for a defect. -/
def Defect.message : Defect → String
  | .endInValue => "EOF while parsing a value"
  | .endInList => "EOF while parsing a list"
  | .endInObject => "EOF while parsing an object"
  | .endInString => "EOF while parsing a string"
  | .expectedColon => "expected `:`"
  | .expectedListSeparator => "expected `,` or `]`"
  | .expectedMemberSeparator => "expected `,` or `\x7d`"
  | .expectedWord => "expected ident"
  | .expectedValue => "expected value"
  | .invalidEscape => "invalid escape"
  | .invalidNumber => "invalid number"
  | .numberOutOfRange => "number out of range"
  | .controlCharacter => "control character (\\u0000-\\u001F) found while parsing a string"
  | .keyNotString => "key must be a string"
  | .loneSurrogate => "lone leading surrogate in hex escape"
  | .unfinishedSurrogate => "unexpected end of hex escape"
  | .trailingComma => "trailing comma"
  | .trailingCharacters => "trailing characters"
  | .nestedTooDeep => "recursion limit exceeded"

/-- A defect and the number of bytes after which it was noticed. -/
structure Fault where
  offset : Nat
  defect : Defect
deriving DecidableEq, Repr

/-- The faults of one place: for a reader that wants the value there, and for a reader that
skips it. -/
structure Breach where
  strict : Fault
  lenient : Fault
deriving DecidableEq, Repr

/-- The same fault for both readers. -/
def Fault.both (fault : Fault) : Breach := ⟨fault, fault⟩

/-! ## Lines and columns -/

/-- A line, counted from one, and the bytes before a place on it. -/
structure Position where
  line : Nat
  column : Nat
deriving DecidableEq, Repr

/-- Move over `offset` bytes of the characters. -/
def Position.advance (position : Position) : List Char → Nat → Position
  | [], _ => position
  | c :: rest, offset =>
    if offset = 0 then position
    else if c = '\n' then Position.advance ⟨position.line + 1, 0⟩ rest (offset - 1)
    else
      let width := min c.utf8Size offset
      Position.advance ⟨position.line, position.column + width⟩ rest (offset - width)

/-- The position after `offset` bytes of a text. -/
def Position.after (text : String) (offset : Nat) : Position :=
  Position.advance ⟨1, 0⟩ text.toList offset

/-- A position as messages name it. -/
def Position.suffix (position : Position) : String :=
  " at line " ++ toString position.line ++ " column " ++ toString position.column

/-- The message for a fault of a text. -/
def Fault.message (fault : Fault) (text : String) : String :=
  fault.defect.message ++ (Position.after text fault.offset).suffix

end OpenApi.Json
