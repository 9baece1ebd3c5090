import DotTarget.Fault
import DotTarget.Lexical.Comment

set_option autoImplicit false

/-! # Matching brackets backward

A `Matcher` pairs brackets while the characters of a document are fed to it from right to left.
Closers wait in `pending` for their opener; brackets inside string literals are passed over.

Read backward, a literal is entered at its closing quote. Whether a quote closes, opens or is
escaped shows only in what stands to its left, so `Matcher.feed` is given the characters left of
the one it is fed, nearest first. A literal in single quotes ends with its row at the latest
(`Matcher.endLine`), one in triple quotes may go on in the row above.

`Matcher.feedAt` feeds any character as if it stood at a given byte of a row. When the matcher has
to look at bytes behind the end of the row, that is a fault. -/

namespace DotTarget

/-- The opener that belongs to a closer. -/
def openerOf? : Char → Option Char
  | ')' => some '('
  | ']' => some '['
  | '}' => some '{'
  | _ => none

/-- Whether a character is a closing bracket. -/
def isCloser (c : Char) : Bool :=
  c = ')' || c = ']' || c = '}'

/-- Whether a character is an opening bracket. -/
def isOpener (c : Char) : Bool :=
  c = '(' || c = '[' || c = '{'

/-- The number of backslashes at the front of `left`, the characters to the left of a place,
nearest first. -/
def escapeRun (left : Text) : Nat :=
  (left.takeWhile (· = '\\')).length

/-- Whether a quote with `left` to its left is the last of an unescaped triple quote. -/
def endsTriple (quote : Char) : Text → Bool
  | a :: b :: left => a = quote && b = quote && escapeRun left % 2 = 0
  | _ => false

namespace Matcher

/-- What the next character to the left belongs to. -/
inductive Mode where
  /-- Program text outside literals. -/
  | code
  /-- The inside of a literal in single quotes. -/
  | string (quote : Char)
  /-- The last `remaining` of the backslashes that escape a quote inside a literal. -/
  | escape (quote : Char) (remaining : Nat)
  /-- The inside of a literal in triple quotes. -/
  | triple (quote : Char)
  deriving DecidableEq, Repr

/-- What a fed character did. -/
inductive Step where
  | more
  /-- It was the opener of the last pending closer. -/
  | balanced
  /-- It was an opener while no closer was pending. -/
  | unbalanced
  deriving DecidableEq, Repr

end Matcher

/-- The state of backward bracket matching. -/
structure Matcher where
  mode : Matcher.Mode
  /-- The closers that wait for their opener, innermost first. -/
  pending : List Char
  /-- How many openers were paired with a closer of another kind. -/
  mismatches : Nat
  /-- How many characters of a triple quote are still to be passed over. -/
  skip : Nat
  deriving DecidableEq, Repr

namespace Matcher

/-- The matcher before any character. -/
def initial : Matcher := ⟨.code, [], 0, 0⟩

/-- The number of closers that wait for their opener. -/
def depth (m : Matcher) : Nat :=
  m.pending.length

/-- Feeds an opening bracket outside literals. -/
def feedOpener (m : Matcher) (opener : Char) : Matcher × Step :=
  match m.pending with
  | [] => (m, .unbalanced)
  | closer :: rest =>
    let missed := if openerOf? closer = some opener then 0 else 1
    ({ m with pending := rest, mismatches := m.mismatches + missed },
      if rest.isEmpty then .balanced else .more)

/-- Feeds a character outside literals. `triple` says whether it is the last of a triple
quote. -/
def feedCode (m : Matcher) (c : Char) (triple : Bool) : Matcher × Step :=
  if isCloser c then ({ m with pending := c :: m.pending }, .more)
  else if isOpener c then m.feedOpener c
  else if isQuote c then
    if triple then ({ m with mode := .triple c, skip := 2 }, .more)
    else ({ m with mode := .string c }, .more)
  else (m, .more)

/-- Feeds a character. `triple` says whether it is the last of a triple quote, `run` how many
backslashes stand right before it. -/
def advance (m : Matcher) (c : Char) (triple : Bool) (run : Nat) : Matcher × Step :=
  if 0 < m.skip then ({ m with skip := m.skip - 1 }, .more)
  else
    match m.mode with
    | .code => m.feedCode c triple
    | .triple quote =>
      if c = quote && triple then ({ m with mode := .code, skip := 2 }, .more) else (m, .more)
    | .string quote =>
      if c = quote then
        ({ m with mode := if run % 2 = 1 then .escape quote run else .code }, .more)
      else (m, .more)
    | .escape quote remaining =>
      ({ m with mode := if remaining ≤ 1 then .string quote else .escape quote (remaining - 1) },
        .more)

/-- Feeds the character `c` that has the characters `left` to its left, nearest first. -/
def feed (m : Matcher) (left : Text) (c : Char) : Matcher × Step :=
  m.advance c (endsTriple c left) (escapeRun left)

/-- Ends a row: a literal in single quotes does not go on in the row above. -/
def endLine (m : Matcher) : Matcher :=
  { m with
    skip := 0
    mode := match m.mode with
      | .triple quote => .triple quote
      | _ => .code }

/-! ## Feeding by byte offset -/

/-- The characters of a row that start before byte `n`. -/
def startingBefore : Text → Nat → Text
  | _, 0 => []
  | [], _ + 1 => []
  | c :: cs, n + 1 => c :: startingBefore cs (n + 1 - c.utf8Size)

/-- The number of backslashes right before a byte of a row, which must not lie behind its
end. -/
def escapeRunAt (line : Text) (byte : Nat) : Except Fault Nat :=
  if byte ≤ Text.width line then .ok (escapeRun (startingBefore line byte).reverse)
  else .error (.outOfBounds byte (Text.width line))

/-- Whether a quote at a byte of a row is the last of an unescaped triple quote. The two bytes
before it are looked at from the left, the second only if the first is the quote. -/
def endsTripleAt (line : Text) (byte : Nat) (quote : Char) : Except Fault Bool :=
  let length := Text.width line
  if byte ≤ length then .ok (endsTriple quote (startingBefore line byte).reverse)
  else if byte < 2 || (byte = length + 1 && line.getLast? ≠ some quote) then .ok false
  else .error (.outOfBounds byte length)

/-- Feeds a character as standing at a byte of a row. -/
def feedAt (m : Matcher) (line : Text) (byte : Nat) (c : Char) : Except Fault (Matcher × Step) :=
  let plain := m.advance c false 0
  if 0 < m.skip then .ok plain
  else
    match m.mode with
    | .code =>
      if isQuote c then do return m.advance c (← endsTripleAt line byte c) 0 else .ok plain
    | .triple quote =>
      if c = quote then do return m.advance c (← endsTripleAt line byte c) 0 else .ok plain
    | .string quote =>
      if c = quote then do return m.advance c false (← escapeRunAt line byte) else .ok plain
    | .escape _ _ => .ok plain

end Matcher

end DotTarget
