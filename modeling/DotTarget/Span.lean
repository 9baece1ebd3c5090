import DotTarget.Fault

set_option autoImplicit false

/-! # Spans

A half-open stretch of a document, from `start` up to but not including `stop`. The structure
itself does not order its bounds, because spans also arrive from outside; `Span.ordered` is the
way to make one whose bounds are in order. -/

namespace DotTarget

/-- A stretch of a document from `start` up to `stop`. -/
structure Span where
  start : Position
  stop : Position
  deriving DecidableEq, Repr, Inhabited

namespace Span

/-- The span with the given bounds, which must be in order. -/
def ordered (start stop : Position) : Except Fault Span :=
  if start ≤ stop then .ok ⟨start, stop⟩ else .error (.reversedBounds start stop)

/-- The empty span at a place. -/
def emptyAt (p : Position) : Span := ⟨p, p⟩

/-- Whether the two bounds coincide. -/
def isEmpty (s : Span) : Bool :=
  s.start = s.stop

/-- Whether a place lies in the span: at or after the start, before the stop. -/
def contains (s : Span) (p : Position) : Bool :=
  s.start ≤ p && p < s.stop

/-- The written form `row:column-row:column`. -/
def display (s : Span) : String :=
  s!"{s.start.display}-{s.stop.display}"

theorem ordered_of_le {start stop : Position} (h : start ≤ stop) :
    ordered start stop = .ok ⟨start, stop⟩ := by
  simp [ordered, h]

end Span

end DotTarget
