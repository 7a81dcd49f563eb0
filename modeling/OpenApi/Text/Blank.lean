-- SUMMARY: White space, and text without it at its ends.
import OpenApi.Text.Ranges

/-!
# Blanks

A blank is a character with the Unicode property White_Space. It may stand
before the numbers of a date, around a mailbox name and on an empty line, and it
may not stand in a URI.
-/

namespace OpenApi.Text

/-- The characters with the property White_Space. -/
def blankRanges : List (Nat × Nat) :=
  [(0x9, 0xD), (0x20, 0x20), (0x85, 0x85), (0xA0, 0xA0), (0x1680, 0x1680), (0x2000, 0x200A),
   (0x2028, 0x2029), (0x202F, 0x202F), (0x205F, 0x205F), (0x3000, 0x3000)]

/-- Whether `c` is white space. -/
def isBlank (c : Char) : Bool := inRanges blankRanges c

/-- Whether every character is a blank. -/
def isBlankText (text : String) : Bool := text.toList.all isBlank

end OpenApi.Text
