-- SUMMARY: The shapes of mailboxes, URIs, UUIDs and base64 texts.
import OpenApi.Text.Blank

/-!
# Shapes of text

Some formats only ask for a shape: which characters stand where. Each shape is a
test on the characters of a text.
-/

namespace OpenApi.Shape

/-- A letter or a digit of ASCII. -/
def isAlphanumeric (c : Char) : Bool := c.isAlphanum

/-- Nonempty, with every character of a class. -/
def someOf (ok : Char → Bool) (text : List Char) : Bool := !text.isEmpty && text.all ok

/-- The pieces between the separators; one more than there are separators. -/
def splitOn (separator : Char) : List Char → List (List Char)
  | [] => [[]]
  | c :: rest =>
    if c = separator then [] :: splitOn separator rest
    else
      match splitOn separator rest with
      | piece :: pieces => (c :: piece) :: pieces
      | [] => [[c]]

/-! ## Mailboxes -/

/-- A local part, `@`, and at least two labels between points. -/
def isEmail (text : List Char) : Bool :=
  match splitOn '@' text with
  | [local_, domain] =>
    let labels := splitOn '.' domain
    someOf (fun c => isAlphanumeric c || "._%+-".contains c) local_
      && 2 ≤ labels.length
      && labels.all (someOf fun c => isAlphanumeric c || c = '-')
  | _ => false

/-- The address between angle brackets at the end of a text, if there is no other bracket. -/
def bracketed? (text : List Char) : Option (List Char) :=
  let plain (c : Char) : Bool := c ≠ '<' && c ≠ '>'
  match text.dropWhile plain with
  | '<' :: rest =>
    let address := rest.takeWhile plain
    match rest.drop address.length with
    | '>' :: rest => if !address.isEmpty && rest.all Text.isBlank then some address else none
    | _ => none
  | _ => none

/-- An address, alone or between angle brackets behind a name. -/
def isNamedEmail (text : List Char) : Bool := isEmail ((bracketed? text).getD text)

/-! ## Identifiers and payloads -/

/-- A scheme, a colon, and at least one character, none of them blank. -/
def isUri (text : List Char) : Bool :=
  let scheme := text.takeWhile (· ≠ ':')
  match scheme, text.drop scheme.length with
  | first :: rest, ':' :: after =>
    first.isAlpha && rest.all (fun c => isAlphanumeric c || "+.-".contains c)
      && someOf (fun c => !Text.isBlank c) after
  | _, _ => false

/-- A hexadecimal digit. -/
def isHexDigit (c : Char) : Bool :=
  c.isDigit || ('a' ≤ c && c ≤ 'f') || ('A' ≤ c && c ≤ 'F')

/-- Groups of 8, 4, 4, 4 and 12 hexadecimal digits between dashes. -/
def isUuid (text : List Char) : Bool :=
  let groups := splitOn '-' text
  groups.map List.length == [8, 4, 4, 4, 12] && groups.all (·.all isHexDigit)

/-- Groups of four characters of the base64 alphabet, the last one filled up with one or two
equality signs if need be. -/
def isBase64 : List Char → Bool
  | [] => true
  | a :: b :: c :: d :: rest =>
    let letter (x : Char) : Bool := isAlphanumeric x || x = '+' || x = '/'
    if letter a && letter b && letter c && letter d then isBase64 rest
    else letter a && letter b && (letter c || c = '=') && d = '=' && rest.isEmpty
  | _ => false

end OpenApi.Shape
