import DotTarget.Pattern.Longest

set_option autoImplicit false

/-! # Atoms

An atom is the piece of an expression that holds no brackets: adjacent string literals, a
number, or a name, then any number of members `.name`. A member may also stand at the front, when
its receiver is something else.

`atomEnd` finds the longest atom at the end of a text, and `atomStart` the byte at which it
starts. A bare keyword is no atom. -/

namespace DotTarget

namespace Atom

open Pattern

/-! ## Grammar -/

/-- A name: a letter or an underscore, then any number of name characters. -/
def name : Pattern :=
  seq (one .nameStart) (star (one .namePart))

/-- A backslash and the character it escapes, which is never a newline. -/
def escapePair : Pattern :=
  seq (oneOf "\\") (noneOf "\n")

/-- A literal on one row between two equal quotes. -/
def shortLiteral (quote : String) : Pattern :=
  chain [oneOf quote, star (alt (noneOf (quote ++ "\\\n")) escapePair), oneOf quote]

/-- A literal between triple quotes. One or two quotes inside it must be followed by something
else. -/
def longLiteral (quote : String) : Pattern :=
  let item := alt (noneOf (quote ++ "\\")) escapePair
  let delimiter := chain [oneOf quote, oneOf quote, oneOf quote]
  chain
    [delimiter,
     star (alt item (chain [oneOf quote, opt (oneOf quote), item])),
     delimiter]

/-- A string literal with at most two letters in front of it. -/
def literal : Pattern :=
  let letter := oneOf "rRbBuUfF"
  seq (opt (seq letter (opt letter)))
    (choice (longLiteral "'") [longLiteral "\"", shortLiteral "'", shortLiteral "\""])

/-- String literals, with nothing or blanks between them. -/
def literals : Pattern :=
  seq literal (star (seq (star (one .blank)) literal))

/-- A digit, then digits and underscores. -/
def digits : Pattern :=
  seq (oneOf "0123456789") (star (oneOf "0123456789_"))

/-- A number in a base other than ten. -/
def based (mark digits : String) : Pattern :=
  chain [oneOf "0", oneOf mark, plus (oneOf digits)]

/-- A number: in base 16, 8 or 2, or decimal with a fraction, an exponent or an imaginary mark. -/
def number : Pattern :=
  let fraction := seq (oneOf ".") (star (oneOf "0123456789_"))
  let exponent := chain [oneOf "eE", opt (oneOf "+-"), digits]
  choice (based "xX" "0123456789abcdefABCDEF_")
    [based "oO" "01234567_",
     based "bB" "01_",
     chain
       [alt (seq digits (opt fraction)) (seq (oneOf ".") digits), opt exponent, opt (oneOf "jJ")]]

/-- A member: a dot and a name. -/
def member : Pattern :=
  seq (oneOf ".") name

/-- An atom, be it a keyword or not. -/
def grammar : Pattern :=
  seq (choice literals [number, name, member]) (star member)

/-! ## Keywords -/

/-- The words that are never names. -/
def keywords : List String :=
  ["and", "as", "assert", "async", "await", "break", "class", "continue", "def", "del", "elif",
   "else", "except", "finally", "for", "from", "global", "if", "import", "in", "is", "lambda",
   "nonlocal", "not", "or", "pass", "raise", "return", "try", "while", "with", "yield"]

/-- Whether a text is a keyword. -/
def isKeyword (word : Text) : Bool :=
  keywords.any fun keyword => keyword.toList = word

theorem isKeyword_iff {word : Text} :
    isKeyword word = true ↔ ∃ keyword ∈ keywords, keyword.toList = word := by
  simp only [isKeyword, List.any_eq_true, decide_eq_true_eq]

end Atom

/-- The longest atom at the end of a text, unless it is a bare keyword. -/
def atomEnd (t : Text) : Option Text := do
  let atom ← Atom.grammar.longestEnd t
  if Atom.isKeyword atom then none else some atom

/-- The byte at which the longest atom at the end of a text starts. -/
def atomStart (t : Text) : Option Nat :=
  (atomEnd t).map fun atom => Text.width t - Text.width atom

end DotTarget
