import DotTarget.Cli.Styled

set_option autoImplicit false

/-! # Windows on wide rows

The rows of a snippet are shown through a common window, a stretch of columns. Deep indentation
is cut at the left. Rows that are still too wide for the screen are cut so that the span stays in
view, with its label if there is room for it. Dots stand for what is cut off. -/

namespace DotTarget.Cli

/-- What a window has to show, in columns. -/
structure Extent where
  /-- The blanks that every row starts with. -/
  indent : Nat
  /-- Where the span starts. -/
  spanLeft : Nat
  /-- Where the span ends. -/
  spanRight : Nat
  /-- Where the label behind the span ends. -/
  labelRight : Nat
  /-- The width of the widest row. -/
  widest : Nat
  deriving DecidableEq, Repr

/-- The columns from `left` to `right`. A row that needs at most `width` columns from `left` on is
shown to its end. -/
structure Window where
  left : Nat
  right : Nat
  width : Nat
  deriving DecidableEq, Repr

namespace Window

/-- The columns kept free beside a span. -/
def clearance : Nat := 6

/-- The widest indentation that is shown in full, besides the clearance. -/
def deepIndent : Nat := 20

/-- The indentation that is left of a deeper one, besides the clearance. -/
def keptIndent : Nat := 16

/-- The window of a given width for what has to be shown. -/
def fit (width : Nat) (e : Extent) : Window :=
  let indent := e.indent - clearance
  let spanLeft := e.spanLeft - clearance
  let spanRight := e.spanRight + clearance
  let labelRight := e.labelRight + clearance
  let left := if deepIndent < indent then indent - keptIndent else 0
  let right := max e.widest left
  let wide (left : Nat) : Window := ⟨left, left + width, width⟩
  if right - left ≤ width then ⟨left, right, width⟩
  else if labelRight - indent ≤ width then wide indent
  else if labelRight - spanLeft ≤ width then
    wide (spanLeft - (width - (labelRight - spanLeft)) / 2)
  else if spanRight - spanLeft ≤ width then
    wide (spanLeft - (width - (spanRight - spanLeft)) / 5 * 2)
  else ⟨spanLeft, spanRight, width⟩

/-- The first column that is shown of a row of some length. -/
def leftOf (w : Window) (length : Nat) : Nat :=
  min w.left length

/-- The column where what is shown of a row of some length ends. -/
def rightOf (w : Window) (length : Nat) : Nat :=
  if length - w.left ≤ w.width then length else min length w.right

/-- What is shown of a row. -/
def view (w : Window) (line : Text) : Row :=
  let right := w.rightOf line.length
  let code := Row.plain ((line.take right).drop (w.leftOf line.length))
  let code := if w.left = 0 then code else Row.dots ++ code.drop Row.dots.length
  if right < line.length then code.put (code.length - Row.dots.length) Row.dots else code

end Window

end DotTarget.Cli
