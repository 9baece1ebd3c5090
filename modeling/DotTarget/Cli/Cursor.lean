import DotTarget.Fault
import DotTarget.Text.Blank
import DotTarget.Text.Decimal

set_option autoImplicit false

/-! # Cursor arguments

A cursor is given as `ROW:COL`, with blanks allowed around the two numerals and a plus sign
allowed in front of them. The row ends at the first colon. -/

namespace DotTarget.Cli

/-- What is wrong with a cursor argument. -/
inductive CursorError where
  | shape (given : Text)
  | row (given : Text)
  | column (given : Text)
  deriving DecidableEq, Repr

/-- The text of an error. -/
def CursorError.message : CursorError → String
  | .shape given => "expected ROW:COL, got '" ++ String.ofList given ++ "'"
  | .row given => "invalid row '" ++ String.ofList given ++ "'"
  | .column given => "invalid column '" ++ String.ofList given ++ "'"

/-- A numeral that may follow a plus sign. -/
def unsigned? : Text → Option Nat
  | '+' :: digits => Text.decimal? digits
  | digits => Text.decimal? digits

/-- A numeral between blanks, whose value must be a machine word. -/
def coordinate? (t : Text) : Option Nat := do
  let n ← unsigned? (Text.trim t)
  if n < addressLimit then some n else none

/-- Reads a cursor argument. -/
def parseCursor (t : Text) : Except CursorError Position :=
  let row := t.takeWhile (· ≠ ':')
  match t.dropWhile (· ≠ ':') with
  | [] => .error (.shape t)
  | _ :: column =>
    match coordinate? row with
    | none => .error (.row row)
    | some r =>
      match coordinate? column with
      | none => .error (.column column)
      | some c => .ok ⟨r, c⟩

end DotTarget.Cli
