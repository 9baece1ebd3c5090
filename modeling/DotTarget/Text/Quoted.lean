import DotTarget.CharClass
import DotTarget.Text.Width

set_option autoImplicit false

/-! # Quoted text

`Text.quoted` writes a text between double quotes so that it fits on one row and every character
can be told: characters without a glyph of their own, and those that would attach to the one
before them, are written by number. -/

namespace DotTarget.Text

/-- A character written by its code point. -/
def numbered (c : Char) : Text :=
  ['\\', 'u', '\x7b'] ++ Nat.toDigits 16 c.toNat ++ ['\x7d']

/-- How a character is written inside a quoted text. -/
def escaped (c : Char) : Text :=
  if c = '"' then ['\\', '"']
  else if c = '\\' then ['\\', '\\']
  else if c = '\n' then ['\\', 'n']
  else if c = '\r' then ['\\', 'r']
  else if c = '\t' then ['\\', 't']
  else if c.toNat = 0 then ['\\', '0']
  else if CharClass.isShown c then [c]
  else numbered c

/-- A text between double quotes. -/
def quoted (t : Text) : Text :=
  '"' :: t.flatMap escaped ++ ['"']

end DotTarget.Text
