import DotTarget.Position

set_option autoImplicit false

/-! # Faults

A fault is the violation of a condition that an operation takes for granted: it says that the
caller's values, or the operation itself, are wrong, and no answer is given. Sizes and offsets
are kept in machine words, so sums that leave the word (`addressLimit`) are faults too. -/

namespace DotTarget

/-- Why an operation broke off without an answer. -/
inductive Fault where
  /-- The bounds of a span were given in the wrong order. -/
  | reversedBounds (start stop : Position)
  /-- A sum does not fit in a machine word. -/
  | addOverflow
  /-- A difference is below zero. -/
  | subtractOverflow
  /-- An index lies outside what it indexes. -/
  | outOfBounds (index length : Nat)
  /-- A backward scan moved forward. -/
  | movedRight (origin target : Position)
  deriving DecidableEq, Repr

/-- The text of a fault. -/
def Fault.message : Fault → String
  | .reversedBounds start stop => s!"range start {start.display} is after end {stop.display}"
  | .addOverflow => "attempt to add with overflow"
  | .subtractOverflow => "attempt to subtract with overflow"
  | .outOfBounds index length => s!"index {index} out of range for length {length}"
  | .movedRight origin target => s!"scan moved right: {origin.display} -> {target.display}"

/-- One more than the largest machine word: two to the power of 64. -/
def addressLimit : Nat := 18446744073709551616

/-- The sum of two machine words, which must be a machine word again. -/
def checkedAdd (a b : Nat) : Except Fault Nat :=
  if a + b < addressLimit then .ok (a + b) else .error .addOverflow

end DotTarget
