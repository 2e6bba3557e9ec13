/-!
Sets of characters given by ranges of code points.
-/

namespace IntervalRules.Text

/-- Whether a character's code point lies in one of the inclusive ranges. -/
def inRanges (ranges : List (Nat × Nat)) (c : Char) : Bool :=
  ranges.any fun (first, last) => first ≤ c.toNat && c.toNat ≤ last

end IntervalRules.Text
