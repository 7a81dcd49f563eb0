-- SUMMARY: Pointers to a place inside a JSON value.
import OpenApi.Json

/-!
# Pointers

A pointer is empty, for the whole value, or names step by step a key or a place in
a list, each behind a slash. In a key a slash is written `~1` and a tilde `~0`.
-/

namespace OpenApi.Json

/-- Replace `~` and a digit by a character. -/
def unescape (digit meaning : Char) : List Char → List Char
  | '~' :: d :: rest =>
    if d = digit then meaning :: unescape digit meaning rest
    else '~' :: unescape digit meaning (d :: rest)
  | c :: rest => c :: unescape digit meaning rest
  | [] => []

/-- The key that a segment of a pointer means. -/
def pointerKey (segment : List Char) : String :=
  String.ofList (unescape '0' '~' (unescape '1' '/' segment))

/-- The place in a list that a key means: a decimal number without sign and leading zeros. -/
def placeOf? (key : String) : Option Nat :=
  let digits := key.toList
  if digits.isEmpty || !digits.all Char.isDigit then none
  else if digits.head? = some '0' && digits.length ≠ 1 then none
  else some (digits.foldl (fun n c => 10 * n + (c.toNat - '0'.toNat)) 0)

/-- The value one step further in. -/
def child? (value : Json) (key : String) : Option Json :=
  match value with
  | .obj members => Keyed.get? members key
  | .arr items => (placeOf? key).bind (items[·]?)
  | _ => none

/-- The value that a pointer selects. -/
def pointer? (value : Json) (pointer : String) : Option Json :=
  match pointer.toList with
  | [] => some value
  | '/' :: rest => ((rest.splitOn '/').map pointerKey).foldlM child? value
  | _ => none

end OpenApi.Json
