import DotTarget.CharClass.Letter
import DotTarget.CharClass.Alphabetic
import DotTarget.CharClass.Mark
import DotTarget.CharClass.Numeral
import DotTarget.CharClass.Blank
import DotTarget.CharClass.Hidden
import DotTarget.CharClass.Recent

set_option autoImplicit false

/-! # Character classes

The classes of characters that names, words and blanks are made of.

Two notions of a "word character" live side by side. `isNamePart` is what may continue a name in
program text: alphabetic characters, marks, decimal digits, connectors and joiners.
`isWordChar` is what counts as part of a word being typed: the underscore and the alphanumeric
characters. They differ on marks (only in names), on numerals such as `²` (only in words) and on
characters that are new to Unicode (only in words). -/

namespace DotTarget

namespace CharClass

/-- A letter: general category L. -/
def isLetter (c : Char) : Bool :=
  letterRanges.covers c.toNat

/-- The Unicode property Alphabetic. -/
def isAlphabetic (c : Char) : Bool :=
  isLetter c || letterNumeralRanges.covers c.toNat || otherAlphabeticRanges.covers c.toNat

/-- A decimal digit of any script: general category Nd. -/
def isDecimal (c : Char) : Bool :=
  digitRanges.covers c.toNat

/-- Any numeral: general categories Nd, Nl and No. -/
def isNumeral (c : Char) : Bool :=
  isDecimal c || letterNumeralRanges.covers c.toNat || otherNumeralRanges.covers c.toNat

/-- Alphabetic characters and numerals. -/
def isAlphanumeric (c : Char) : Bool :=
  isAlphabetic c || isNumeral c

/-- The Unicode property White_Space. -/
def isBlank (c : Char) : Bool :=
  blankRanges.covers c.toNat

/-- A character that is too new to stand in a name. -/
def isRecent (c : Char) : Bool :=
  recentRanges.covers c.toNat

/-- What a name starts with: an underscore, or a letter that is not too new. -/
def isNameStart (c : Char) : Bool :=
  c = '_' || isLetter c && !isRecent c

/-- What continues a name: alphabetic characters, marks, decimal digits, connectors and joiners
that are not too new. -/
def isNamePart (c : Char) : Bool :=
  (isAlphabetic c || markRanges.covers c.toNat || isDecimal c || connectorRanges.covers c.toNat
    || joinerRanges.covers c.toNat) && !isRecent c

/-- What a word under the cursor consists of: the underscore and alphanumeric characters. -/
def isWordChar (c : Char) : Bool :=
  c = '_' || isAlphanumeric c

/-- Whether a quoted text shows the character as it is. -/
def isShown (c : Char) : Bool :=
  !extendRanges.covers c.toNat && !hiddenRanges.covers c.toNat

end CharClass

end DotTarget
