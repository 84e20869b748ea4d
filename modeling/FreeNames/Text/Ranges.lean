/-!
# Ranges of characters

A class of characters is given by ranges of their numbers, in increasing order, which do not touch.
-/

namespace FreeNames.Text

/-- Whether a number lies in one of increasing ranges. -/
def inRanges (n : Nat) : List (Nat × Nat) → Bool
  | [] => false
  | (low, high) :: rest => if n < low then false else n ≤ high || inRanges n rest

end FreeNames.Text
