import DotTarget.Text.Width

set_option autoImplicit false

/-! # Styled rows

A row of output is a list of cells, one to a column. A cell may be set off as a mark.
`Row.render` writes a row with the codes of a style around each run of marked cells. -/

namespace DotTarget.Cli

/-- The codes that set off parts of an output. -/
structure Style where
  /-- Before a run of marks. -/
  mark : Text
  /-- Before the title. -/
  title : Text
  /-- After each of these. -/
  reset : Text
  deriving DecidableEq, Repr

namespace Style

/-- No codes at all. -/
def plain : Style := ⟨[], [], []⟩

/-- Terminal codes: bold bright blue marks and a bold title. -/
def colored : Style :=
  ⟨"\x1b[1m\x1b[94m".toList, "\x1b[1m".toList, "\x1b[0m".toList⟩

/-- A part set off as a mark. -/
def marked (style : Style) (t : Text) : Text :=
  style.mark ++ t ++ style.reset

/-- The codes between a cell that is set off or not and one that is or not. -/
def switch (style : Style) : Bool → Bool → Text
  | false, true => style.mark
  | true, false => style.reset
  | _, _ => []

end Style

/-- A character and whether it is set off as a mark. -/
structure Cell where
  char : Char
  isMark : Bool
  deriving DecidableEq, Repr

/-- The cells of a row, from column zero on. -/
abbrev Row := List Cell

namespace Row

/-- A text that is not set off. -/
def plain (t : Text) : Row :=
  t.map (⟨·, false⟩)

/-- A text set off as a mark. -/
def mark (t : Text) : Row :=
  t.map (⟨·, true⟩)

/-- So many blank cells. -/
def blanks (n : Nat) : Row :=
  List.replicate n ⟨' ', false⟩

/-- The row with the cells from a column on replaced. A gap before them is left blank. -/
def put (row : Row) (column : Nat) (cells : Row) : Row :=
  if cells.isEmpty then row
  else row.take column ++ blanks (column - row.length) ++ cells ++ row.drop (column + cells.length)

/-- What stands for cells that are left out. -/
def dots : Row :=
  mark "...".toList

/-- The row with dots for the cells from one column to another. A row that does not reach that far
stays as it is. -/
def elide (row : Row) (start stop : Nat) : Row :=
  if start = stop || row.length < start || row.length < stop then row
  else row.take start ++ dots ++ row.drop stop

/-- The characters of a row with the codes of a style, behind a cell that is set off or not. -/
def renderAfter (style : Style) (before : Bool) : Row → Text
  | [] => style.switch before false
  | cell :: rest =>
    style.switch before cell.isMark ++ cell.char :: renderAfter style cell.isMark rest

/-- The characters of a row with the codes of a style. -/
def render (style : Style) (row : Row) : Text :=
  renderAfter style false row

end Row

end DotTarget.Cli
