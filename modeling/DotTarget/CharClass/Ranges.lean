set_option autoImplicit false

/-! # Tables of code points

A property of characters is given as an ascending list of closed intervals of code points.
`Ranges.covers` looks a code point up; it stops at the first interval that starts above it, so
common characters are found near the front of the list. -/

namespace DotTarget.CharClass

/-- Closed intervals of code points, in ascending order. -/
abbrev Ranges := List (Nat × Nat)

/-- Whether `n` lies in one of the intervals. The intervals must be in ascending order. -/
def Ranges.covers : Ranges → Nat → Bool
  | [], _ => false
  | (lo, hi) :: rest, n => if n < lo then false else if n ≤ hi then true else covers rest n

end DotTarget.CharClass
