/-! # Ranges of characters

A class of characters is given by ranges of their numbers, in ascending order. -/

namespace JsonSelect.Text

/-- Whether a number lies in one of some ranges, whose ends belong to them. -/
def inRanges (ranges : List (Nat × Nat)) (n : Nat) : Bool :=
  ranges.any fun r => r.1 ≤ n && n ≤ r.2

end JsonSelect.Text
