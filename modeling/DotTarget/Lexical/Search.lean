import DotTarget.Lexical.Matcher
import DotTarget.Lexical.Upward

set_option autoImplicit false

/-! # Bracket searches

Two searches drive a `Matcher` upward through a document. `findOpener` starts right behind a
closing bracket and stops at the opener that balances it; `enclosingOpener` stops at the first
opener that no closer on the way belongs to. Both are `seek` with a different goal. -/

namespace DotTarget

namespace Matcher

/-- Feeds the characters of a row from its last to its first, given in that order, until one of
them does what `goal` says. Gives the matcher reached and the byte column of that character. -/
def seekRow (goal : Step) : Matcher → Text → Matcher × Option Nat
  | m, [] => (m, none)
  | m, c :: left =>
    let (m', step) := m.feed left c
    if step = goal then (m', some (Text.width left)) else seekRow goal m' left

theorem seekRow_cons (goal : Step) (m : Matcher) (c : Char) (left : Text) :
    seekRow goal m (c :: left) =
      if (m.feed left c).2 = goal then ((m.feed left c).1, some (Text.width left))
      else seekRow goal (m.feed left c).1 left :=
  rfl

/-- Feeds rows, given from the lowest upward, until a character does what `goal` says. -/
def seek (goal : Step) : Matcher → List (Nat × Text) → Matcher × Option Position
  | m, [] => (m, none)
  | m, (row, text) :: above =>
    match seekRow goal m text.reverse with
    | (m', some column) => (m', some ⟨row, column⟩)
    | (m', none) => seek goal m'.endLine above

end Matcher

/-- The outcome of looking for the opener of a closing bracket. -/
structure BracketMatch where
  opener : Option Position
  /-- How many brackets of different kinds were paired, also when no opener was found. -/
  mismatches : Nat
  deriving DecidableEq, Repr

/-- The opener that balances the closing bracket right before `place`. -/
def findOpener (lines : List Text) (place : Position) : BracketMatch :=
  let (m, opener) := Matcher.initial.seek .balanced (upward lines place)
  ⟨opener, m.mismatches⟩

/-- The innermost opener before `place` that is not closed before it. -/
def enclosingOpener (lines : List Text) (place : Position) : Option Position :=
  (Matcher.initial.seek .unbalanced (upward lines place)).2

end DotTarget
