import DotTarget.Cli.Window
import DotTarget.Span
import DotTarget.Text.Blank
import DotTarget.Text.Decimal
import DotTarget.Text.Displayed
import DotTarget.Text.Lines

set_option autoImplicit false

/-! # Annotated snippets

A snippet shows the rows of a source that a span covers, with the span underlined and labelled.
A span on one row is underlined with carets. A span over several rows is drawn as a bar along
their left side, which starts at the span's start and leads to a caret at its end; if they are
many, those in the middle are left out.

The output has a column of row numbers, a separator, the column of the bar if there is one, and
then the code. All code is shown through one window, so what stands at a column of a row stands
below the same column of the row above. -/

namespace DotTarget.Cli

/-- What a snippet shows. -/
structure Snippet where
  /-- All rows of the source. -/
  lines : List Text
  /-- Where the source comes from, if that is shown. -/
  origin : Option String
  /-- The stretch that is underlined. -/
  span : Span
  title : Text
  label : Text
  deriving DecidableEq, Repr

/-- The columns of the screen. -/
def screenWidth : Nat := 140

namespace Snippet

/-! ## Rows of the source -/

/-- The text of a row. A carriage return right before a newline does not belong to it. -/
def line (s : Snippet) (row : Nat) : Text :=
  let text := s.lines.getD row []
  if row + 1 < s.lines.length ∧ text.getLast? = some '\r' then text.dropLast else text

/-- The text of a row as it is shown. -/
def shown (s : Snippet) (row : Nat) : Text :=
  Text.displayed (s.line row)

/-- Whether the span covers several rows. -/
def isTall (s : Snippet) : Bool :=
  s.span.start.row ≠ s.span.stop.row

/-- The column where the span starts, in its first row. -/
def startColumn (s : Snippet) : Nat :=
  Text.displayedColumn (s.line s.span.start.row) s.span.start.column

/-- The column where the span ends, in its last row. -/
def stopColumn (s : Snippet) : Nat :=
  Text.displayedColumn (s.line s.span.stop.row) s.span.stop.column

/-! ## Choice of rows -/

/-- Whether a row says little: it is blank, holds a single bracket or starts with two slashes. -/
def isFiller (t : Text) : Bool :=
  let text := String.ofList (Text.trim t)
  ["", "\x7b", "\x7d", "(", ")", "[", "]"].contains text
    || (text.startsWith "//" && !text.startsWith "///" && !text.startsWith "//!")

/-- The rows that are shown in any case before a gap, the first one included. -/
def leadRows : Nat := 4

/-- The rows between the first and the last one that belong to the snippet: the next few without
the fillers at their end, and the one before the last unless it is a filler. -/
def innerRows (s : Snippet) : List Nat :=
  let first := s.span.start.row
  let last := s.span.stop.row
  let middle := min (first + leadRows) last
  let next := (List.range (middle - (first + 1))).map (first + 1 + ·)
  let lead := (next.reverse.dropWhile fun row => isFiller (s.line row)).reverse
  if middle < last - 1 && !isFiller (s.line (last - 1)) then lead ++ [last - 1] else lead

/-- The rows that belong to the snippet. -/
def rows (s : Snippet) : List Nat :=
  if s.isTall then s.span.start.row :: s.innerRows ++ [s.span.stop.row] else [s.span.start.row]

/-! ## Layout -/

/-- The width of the column of row numbers. -/
def gutter (s : Snippet) : Nat :=
  (Text.ofNat (s.span.stop.row + 1)).length

/-- The column of the separator. -/
def separatorColumn (s : Snippet) : Nat :=
  s.gutter + 1

/-- The column of the bar. -/
def barColumn (s : Snippet) : Nat :=
  s.gutter + 3

/-- The column where the code starts. -/
def codeColumn (s : Snippet) : Nat :=
  if s.isTall then s.barColumn + 2 else s.barColumn

/-- The width of the blanks that a row starts with. -/
def indentation (t : Text) : Nat :=
  (Text.displayed (t.takeWhile CharClass.isBlank)).length

/-- The columns that the snippet has to show. -/
def extent (s : Snippet) : Extent :=
  let texts := s.rows.map s.line
  let indents := (texts.filter fun t => !Text.isBlankText t).map indentation
  let start := s.startColumn
  let stop := s.stopColumn
  { indent := indents.min?.getD 0
    spanLeft := if s.isTall then min start (stop - 1) else start
    spanRight := if s.isTall then max (start + 1) stop else stop
    labelRight :=
      let labelled := stop + s.label.length + 1
      if s.isTall then max (start + 1) labelled else labelled
    widest := (s.rows.map fun row => (s.shown row).length).max?.getD 0 }

/-- The window through which the code is shown. -/
def window (s : Snippet) : Window :=
  Window.fit (screenWidth - s.codeColumn) s.extent

/-- The first column that is shown of a row. -/
def leftOf (s : Snippet) (row : Nat) : Nat :=
  s.window.leftOf (s.shown row).length

/-! ## Rows of the output -/

/-- So many copies of a character. -/
def times (n : Nat) (c : Char) : Text :=
  List.replicate n c

/-- A row of the output without a number. -/
def bare (s : Snippet) : Row :=
  Row.put [] s.separatorColumn (.mark ['|'])

/-- A row of the source with its number. -/
def numbered (s : Snippet) (row : Nat) : Row :=
  let number := Text.ofNat (row + 1)
  let aligned := times (s.gutter - number.length) ' ' ++ number
  ((Row.mark aligned).put s.separatorColumn (.mark ['|'])).put s.codeColumn
    (s.window.view (s.shown row))

/-- A row of the source beside the bar. -/
def barred (s : Snippet) (row : Nat) : Row :=
  (s.numbered row).put s.barColumn (.mark ['|'])

/-- A row for several rows of the source that are left out. -/
def gap (s : Snippet) : Row :=
  Row.dots.put s.barColumn (.mark ['|'])

/-- Whether a span on one row is so wide that its middle is left out. -/
def isOverlong (s : Snippet) : Bool :=
  2 * s.window.width < s.stopColumn - s.startColumn

/-- A row without the middle of an overlong span. At least a third of the window is kept on either
side. -/
def shortened (s : Snippet) (row : Row) : Row :=
  let kept := s.window.width / 3
  if s.isOverlong then row.elide (s.startColumn + kept) (s.stopColumn - kept) else row

/-- The rows of a span on one row. -/
def singleRow (s : Snippet) : List Row :=
  let row := s.span.start.row
  let left := s.leftOf row
  let carets := Row.mark (times (s.stopColumn - s.startColumn) '^')
  let underline := s.bare.put (s.codeColumn + s.startColumn - left) carets
  [s.shortened (s.numbered row),
   s.shortened (underline.put (s.codeColumn + s.stopColumn + 1 - left) (.mark s.label))]

/-- The row where a span over several rows starts. The bar starts in this row when only blanks
precede the span, else in a row below it. -/
def openingRows (s : Snippet) : List Row :=
  let row := s.span.start.row
  let text := s.numbered row
  if Text.isBlankText ((s.shown row).take s.startColumn) then
    [text.put s.barColumn (.mark ['/'])]
  else
    let lead := ' ' :: times (s.startColumn + 1 - s.leftOf row) '_' ++ ['^']
    [text, s.bare.put s.barColumn (.mark lead)]

/-- The rows of the source that lead from one row of the snippet to the next one. -/
def bridge (s : Snippet) (row next : Nat) : List Row :=
  if row + 2 < next then [s.gap]
  else if row + 2 = next then [s.barred (row + 1)]
  else []

/-- The rows of the output behind a row of the snippet, up to the last row of the span. -/
def laterRows (s : Snippet) (row : Nat) : List Nat → List Row
  | [] => s.bridge row s.span.stop.row ++ [s.barred s.span.stop.row]
  | next :: rest => s.bridge row next ++ s.barred next :: s.laterRows next rest

/-- The row where a span over several rows ends. -/
def closingRow (s : Snippet) : Row :=
  let left := s.leftOf s.span.stop.row
  let foot := '|' :: times (s.stopColumn - 1 + 1 - left) '_' ++ ['^']
  let row := s.bare.put s.barColumn (.mark foot)
  row.put (row.length + 1) (.mark s.label)

/-- The rows of a span over several rows. -/
def severalRows (s : Snippet) : List Row :=
  s.openingRows ++ s.laterRows s.span.start.row s.innerRows ++ [s.closingRow]

/-- The rows that show the span. -/
def body (s : Snippet) : List Row :=
  s.bare :: if s.isTall then s.severalRows else s.singleRow

/-! ## The snippet -/

/-- The first row of the output: the title. -/
def heading (s : Snippet) (style : Style) : Text :=
  style.marked "info".toList ++ style.title ++ ':' :: ' ' :: s.title ++ style.reset

/-- The row that says where the source comes from, with row and character counted from one. -/
def originRow (s : Snippet) (style : Style) (origin : String) : Text :=
  let column := (Text.cut (s.line s.span.start.row) s.span.start.column).length
  Row.render style (Row.blanks s.gutter ++ .mark "--> ".toList) ++ origin.toList
    ++ ':' :: Text.ofNat (s.span.start.row + 1) ++ ':' :: Text.ofNat (column + 1)

/-- All rows of the output, each ended by a newline. -/
def render (s : Snippet) (style : Style) : Text :=
  let origin := s.origin.toList.map (s.originRow style)
  let rows := s.heading style :: origin ++ s.body.map (Row.render style)
  rows.flatMap (· ++ ['\n'])

end Snippet

end DotTarget.Cli
