import DotTarget.Completion.Word
import DotTarget.Span

set_option autoImplicit false

/-! # Triggers

A completion is triggered by a dot and the word typed behind it so far. The cursor stands in that
word or at its ends; the word goes on to the right of the cursor as far as there are word
characters. -/

namespace DotTarget

/-- A dot and the span of the word typed behind it. -/
structure Trigger where
  dot : Position
  word : Span
  deriving DecidableEq, Repr

/-- The trigger for a cursor on a row: the word at the cursor must follow a dot directly, and the
dot must not stand right of the cursor. -/
def Trigger.find? (line : Text) (cursor : Position) : Option Trigger :=
  let found := Word.around line cursor.column
  match found.before.reverse with
  | '.' :: front =>
    let dot := Text.width front
    let stop := dot + 1 + Text.width found.word
    some ⟨⟨cursor.row, dot⟩, ⟨⟨cursor.row, dot + 1⟩, ⟨cursor.row, stop⟩⟩⟩
  | _ => none

end DotTarget
