/-!
# Classes of characters

A class of characters is given by ranges of code points.
-/

namespace OpCalculus.Text

/-- Whether the code point of a character lies in one of the inclusive ranges. -/
def inRanges (ranges : List (Nat × Nat)) (c : Char) : Bool :=
  ranges.any fun r => r.1 ≤ c.toNat && c.toNat ≤ r.2

end OpCalculus.Text
