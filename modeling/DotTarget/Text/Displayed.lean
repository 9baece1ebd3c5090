import DotTarget.Text.Width

set_option autoImplicit false

/-! # Text on a screen

`Text.displayed` is the form in which a row of text is shown on a screen: every character takes
one column. A tab becomes four blanks, a control character becomes its picture, and a character
that turns the direction of writing becomes a replacement mark. A zero-width joiner is left
out. -/

namespace DotTarget.Text

/-- The columns that a tab takes. -/
def tabWidth : Nat := 4

/-- The code point of the picture of the control character zero. The others follow in order. -/
def pictureBase : Nat := 0x2400

/-- The code points of the characters that turn the direction of writing. -/
def isDirectional (n : Nat) : Bool :=
  (0x202A ≤ n && n ≤ 0x202E) || (0x2066 ≤ n && n ≤ 0x2069)

/-- How one character is shown. -/
def displayedChar (c : Char) : Text :=
  let n := c.toNat
  if c = '\t' then List.replicate tabWidth ' '
  else if n < 0x20 then [Char.ofNat (pictureBase + n)]
  else if n = 0x7F then ['\u2421']
  else if n = 0x200D then []
  else if isDirectional n then ['\ufffd']
  else [c]

/-- How a row of text is shown. -/
def displayed (t : Text) : Text :=
  t.flatMap displayedChar

/-- The column at which the byte `column` of a row is shown. -/
def displayedColumn (line : Text) (column : Nat) : Nat :=
  (displayed (cut line column)).length

end DotTarget.Text
