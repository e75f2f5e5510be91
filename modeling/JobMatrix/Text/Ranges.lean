set_option autoImplicit false

/-!
Sets of code points written as ascending lists of closed code point intervals.
-/

namespace JobMatrix.Text

/-- Closed intervals of code points, in ascending order and without overlap. -/
abbrev CodeRanges := List (Nat × Nat)

/-- A code point belongs when some interval holds it. -/
def CodeRanges.has (ranges : CodeRanges) (code : Nat) : Bool :=
  ranges.any fun r => r.1 ≤ code && code ≤ r.2

end JobMatrix.Text
