-- SUMMARY: Membership of a character in a table of code point ranges.

/-!
# Code point ranges

A character property is a table of ranges, both ends included, in ascending
order. Every property of `OpenApi.Text` is asked through `inRanges`.
-/

namespace OpenApi.Text

/-- Whether the code point of `c` lies in one of the ranges. -/
def inRanges (ranges : List (Nat × Nat)) (c : Char) : Bool :=
  ranges.any fun range => range.1 ≤ c.toNat && c.toNat ≤ range.2

end OpenApi.Text
