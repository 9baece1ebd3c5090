import DotTarget.Completion.Word
import DotTarget.Lexical.Upward
import DotTarget.Span
import DotTarget.Text.Blank

set_option autoImplicit false

/-! # Alias targets

While an `as` clause is being typed, `aliasTarget` finds the name it would repeat: the word before
the one under the cursor, on the same row or on the nearest row above that is not blank. -/

namespace DotTarget

/-- The name that an `as` clause at `cursor` would repeat. The word at the cursor must start with
`a`, on a row of at least three bytes. -/
def aliasTarget (lines : List Text) (cursor : Position) : Option Span := do
  let line ← lines[cursor.row]?
  if Text.width line < 3 then none
  let typed := Word.around line cursor.column
  if typed.word.head? ≠ some 'a' then none
  let before := Text.trimEnd typed.before
  let (row, text) ←
    if before.isEmpty then
      ((rowsAbove lines cursor.row).map fun (row, text) => (row, Text.trimEnd text)).find?
        fun (_, text) => !text.isEmpty
    else some (cursor.row, before)
  let name := Word.around text (Text.width text)
  if name.word.isEmpty then none
  let start := Text.width name.before
  return ⟨⟨row, start⟩, ⟨row, start + Text.width name.word⟩⟩

end DotTarget
