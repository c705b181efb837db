/-!
# Sets of characters given by ranges of code points

A property of the Unicode standard, version 16.0, is written down as its ranges, ascending and
inclusive. The table itself is data; what a table says about one character is `CharRanges.has`.
-/

namespace TestScout

/-- Inclusive ranges of code points, ascending. -/
abbrev CharRanges := List (Nat × Nat)

/-- Whether the character lies in one of the ranges. -/
def CharRanges.has (ranges : CharRanges) (c : Char) : Bool :=
  ranges.any fun range => range.1 ≤ c.toNat && c.toNat ≤ range.2

/-- **A character is in the set exactly when one range holds its code point.** -/
theorem CharRanges.has_iff {ranges : CharRanges} {c : Char} :
    ranges.has c = true ↔ ∃ range ∈ ranges, range.1 ≤ c.toNat ∧ c.toNat ≤ range.2 := by
  simp [CharRanges.has]

end TestScout
