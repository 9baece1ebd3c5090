import DotTarget.CharClass
import DotTarget.Text.Width

set_option autoImplicit false

/-! # The word at a column

A word is a maximal run of word characters. `Word.around` splits a row at the word that touches a
column, which may lie inside the word or at either end of it. -/

namespace DotTarget

open CharClass (isWordChar)

/-- A row split in three: what precedes a word, the word, and what follows it. -/
structure Word where
  before : Text
  word : Text
  after : Text
  deriving DecidableEq, Repr

/-- The row split at the word that touches a byte column; the word may be empty. -/
def Word.around (line : Text) (column : Nat) : Word :=
  let front := Text.cut line column
  let back := line.drop front.length
  { before := (front.reverse.dropWhile isWordChar).reverse
    word := (front.reverse.takeWhile isWordChar).reverse ++ back.takeWhile isWordChar
    after := back.dropWhile isWordChar }

end DotTarget
