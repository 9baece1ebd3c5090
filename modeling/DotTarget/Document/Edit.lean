import DotTarget.Span
import DotTarget.Document.LineIndex

set_option autoImplicit false

/-! # Edits

An edit says which stretch of a text was replaced and where the new text ends, both in bytes and
in positions. `Edit.replace` computes the bytes from the text before the edit. The descriptor
holds no text itself. -/

namespace DotTarget

/-- The stretch from `start` to `oldEnd` was replaced by a text that ends at `newEnd`. -/
structure Edit where
  startByte : Nat
  oldEndByte : Nat
  newEndByte : Nat
  start : Position
  oldEnd : Position
  newEnd : Position
  deriving DecidableEq, Repr, Inhabited

/-- The position reached after writing a text at `p`. -/
def Position.advance (p : Position) : Text → Position
  | [] => p
  | c :: cs =>
    let next : Position := if c = '\n' then ⟨p.row + 1, 0⟩ else ⟨p.row, p.column + c.utf8Size⟩
    next.advance cs

namespace Edit

/-- The edit that replaces a span of `t`. There is none when a bound lies outside the text. -/
def replace (t : Text) (s : Span) (replacement : Text) : Except Fault (Option Edit) := do
  let index := LineIndex.ofText t
  let some startByte ← index.offset s.start | return none
  let some oldEndByte ← index.offset s.stop | return none
  return some
    { startByte
      oldEndByte
      newEndByte := startByte + Text.width replacement
      start := s.start
      oldEnd := s.stop
      newEnd := s.start.advance replacement }

/-- The edit that inserts a text at a position. -/
def insert (t : Text) (p : Position) (inserted : Text) : Except Fault (Option Edit) :=
  replace t (Span.emptyAt p) inserted

/-! ## What an edit touches -/

/-- Offsets are kept in words of 32 bits, so larger ones wrap around. -/
def wordLimit : Nat := 4294967296

/-- Whether an edit touches something that depends on the first `reach` bytes: it starts before or
right behind them. An edit that changes nothing does not count when it starts right behind
them. -/
def touches (edit : Edit) (reach : Nat) : Bool :=
  let start := edit.startByte % wordLimit
  let changesNothing :=
    edit.oldEndByte % wordLimit = start && edit.newEndByte % wordLimit = start
  start < reach || (start = reach && !changesNothing)

end Edit

end DotTarget
