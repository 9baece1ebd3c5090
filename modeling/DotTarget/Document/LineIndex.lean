import DotTarget.Fault
import DotTarget.Text.Lines

set_option autoImplicit false

/-! # Line index

Converts between positions and byte offsets of one text. The index keeps the byte offset at
which each row starts and the length of the text.

`LineIndex.offset?` is the conversion over the natural numbers. `LineIndex.offset` does the same
sum in machine words, where a column near the largest word is a fault. -/

namespace DotTarget

/-- The byte offsets at which rows start, and the length of the text in bytes. -/
structure LineIndex where
  starts : List Nat
  length : Nat
  deriving DecidableEq, Repr

namespace LineIndex

/-- The offsets right behind the newlines of a text that itself starts at offset `base`. -/
def startsAfter (base : Nat) : Text → List Nat
  | [] => []
  | c :: cs =>
    let next := base + c.utf8Size
    if c = '\n' then next :: startsAfter next cs else startsAfter next cs

/-- The index of a text. -/
def ofText (t : Text) : LineIndex :=
  ⟨0 :: startsAfter 0 t, Text.width t⟩

/-- The number of rows. -/
def lineCount (index : LineIndex) : Nat :=
  index.starts.length

/-- Where a row ends: right before the newline that closes it, or at the end of the text. -/
def rowEnd (index : LineIndex) (row : Nat) : Nat :=
  match index.starts[row + 1]? with
  | some next => next - 1
  | none => index.length

/-- The byte offset of a position. There is none when the row does not exist or the column lies
behind the end of the row. -/
def offset? (index : LineIndex) (p : Position) : Option Nat := do
  let start ← index.starts[p.row]?
  if start + p.column ≤ index.rowEnd p.row then some (start + p.column) else none

/-- The byte offset of a position, computed in machine words. -/
def offset (index : LineIndex) (p : Position) : Except Fault (Option Nat) :=
  match index.starts[p.row]? with
  | none => .ok none
  | some start => do
    let sum ← checkedAdd start p.column
    return if sum ≤ index.rowEnd p.row then some sum else none

/-- The position of a byte offset. An offset behind the end counts as the end. -/
def position (index : LineIndex) (offset : Nat) : Except Fault Position :=
  let offset := min offset index.length
  match (index.starts.takeWhile (· ≤ offset)).length with
  | 0 => .error .subtractOverflow
  | row + 1 =>
    match index.starts[row]? with
    | none => .error (.outOfBounds row index.lineCount)
    | some start => .ok ⟨row, offset - start⟩

/-- Computing in machine words makes no difference as long as the sum is a machine word. -/
theorem offset_eq_ok (index : LineIndex) (p : Position)
    (h : ∀ start, index.starts[p.row]? = some start → start + p.column < addressLimit) :
    index.offset p = .ok (index.offset? p) := by
  unfold offset offset?
  cases hs : index.starts[p.row]? with
  | none => rfl
  | some start => simp [checkedAdd, h start hs, bind, Except.bind, pure, Except.pure]

end LineIndex

end DotTarget
