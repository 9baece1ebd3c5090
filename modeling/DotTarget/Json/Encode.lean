import DotTarget.Json.Value
import DotTarget.Session.Resolver

set_option autoImplicit false

/-! # Values of the library as JSON

The fields of a structure are written in the order given here. -/

namespace DotTarget

def Position.toJson (p : Position) : Json :=
  .object [("row", .ofNat p.row), ("column", .ofNat p.column)]

def Span.toJson (s : Span) : Json :=
  .object [("start", s.start.toJson), ("end", s.stop.toJson)]

def Edit.toJson (e : Edit) : Json :=
  .object
    [("start_byte", .ofNat e.startByte),
     ("old_end_byte", .ofNat e.oldEndByte),
     ("new_end_byte", .ofNat e.newEndByte),
     ("start", e.start.toJson),
     ("old_end", e.oldEnd.toJson),
     ("new_end", e.newEnd.toJson)]

def NodeKind.toJson (kind : NodeKind) : Json :=
  .ofString kind.name

def Strategy.toJson (strategy : Strategy) : Json :=
  .ofString strategy.name

def Pruning.toJson (pruning : Pruning) : Json :=
  .ofString pruning.name

def NodeSummary.toJson (summary : NodeSummary) : Json :=
  .object
    [("kind", .ofString summary.kind),
     ("grammar_kind", .ofOption NodeKind.toJson summary.accepted),
     ("range", summary.span.toJson),
     ("parent_kind", .ofOption .ofString summary.parent)]

def Boundary.toJson (boundary : Boundary) : Json :=
  .object
    [("range", boundary.span.toJson),
     ("node", .ofOption NodeSummary.toJson boundary.node),
     ("strategy", boundary.strategy.toJson)]

def Trigger.toJson (trigger : Trigger) : Json :=
  .object [("dot", trigger.dot.toJson), ("word", trigger.word.toJson)]

def Scan.Outcome.toJson (outcome : Scan.Outcome) : Json :=
  .object
    [("range", outcome.span.toJson),
     ("iterations", .ofNat outcome.iterations),
     ("mismatches", .ofNat outcome.mismatches),
     ("converged", .bool outcome.converged)]

end DotTarget
