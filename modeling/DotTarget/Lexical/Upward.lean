import DotTarget.Lexical.Comment
import DotTarget.Position

set_option autoImplicit false

/-! # Reading a document upward

A backward search visits the rows of a document from a starting place upward. `rowsAbove` lists
the rows above a given one, nearest first, with their numbers. `upward` lists what a search
sees: the starting row cut at the starting column, then the rows above it, all without their
comments. -/

namespace DotTarget

/-- The rows above row `row`, nearest first, with their numbers. -/
def rowsAbove (lines : List Text) (row : Nat) : List (Nat × Text) :=
  ((lines.take row).zipIdx.map fun (text, number) => (number, text)).reverse

/-- The rows from a place upward, without comments; the first is cut at the place's column.
There are none when the row does not exist. -/
def upward (lines : List Text) (place : Position) : List (Nat × Text) :=
  match lines[place.row]? with
  | none => []
  | some line =>
    (place.row, Comment.strip (Text.cut line place.column))
      :: (rowsAbove lines place.row).map fun (number, text) => (number, Comment.strip text)

end DotTarget
