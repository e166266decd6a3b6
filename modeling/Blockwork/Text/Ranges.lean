/-!
Classes of characters that are given by ranges of codes.
-/

namespace Blockwork.Text

/-- Whether one of the ranges holds the character. -/
def inRanges (ranges : List (Nat × Nat)) (c : Char) : Bool :=
  ranges.any fun r => decide (r.1 ≤ c.toNat) && decide (c.toNat ≤ r.2)

end Blockwork.Text
