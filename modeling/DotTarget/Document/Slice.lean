import DotTarget.Span
import DotTarget.Document.LineIndex

set_option autoImplicit false

/-! # The text of a span

`Span.slice?` reads the text that a span covers. There is none when a bound lies outside the
text or inside a character, or when the bounds are reversed. `Span.slice` reads the same text
with the offsets computed in machine words. -/

namespace DotTarget.Span

/-- The text that a span covers. -/
def slice? (s : Span) (t : Text) : Option Text := do
  let index := LineIndex.ofText t
  let start ← index.offset? s.start
  let stop ← index.offset? s.stop
  Text.slice? t start stop

/-- The text that a span covers, with offsets computed in machine words. -/
def slice (s : Span) (t : Text) : Except Fault (Option Text) := do
  let index := LineIndex.ofText t
  let some start ← index.offset s.start | return none
  let some stop ← index.offset s.stop | return none
  return Text.slice? t start stop

end DotTarget.Span
