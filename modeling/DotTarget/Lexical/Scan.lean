import DotTarget.Lexical.Atom
import DotTarget.Lexical.Search
import DotTarget.Span
import DotTarget.Text.Blank

set_option autoImplicit false

/-! # Scanning for the start of an expression

`scan` finds where the expression right before a trigger starts, without a syntax tree. Its start
moves left over whatever stands directly before it, an atom or a bracketed group, until nothing
does or a cap on the number of steps is reached.

A member `.name` is taken only together with its receiver. The receiver may stand on an earlier
row, if a bracket around the place is open or a backslash joins the rows (`memberReceiver`). -/

namespace DotTarget

namespace Scan

/-- The place moved back into its row and between two characters. A place on a row that does not
exist stays. -/
def clamp (lines : List Text) (place : Position) : Position :=
  match lines[place.row]? with
  | some line => ⟨place.row, Text.width (Text.cut line place.column)⟩
  | none => place

/-- Whether an atom starts with a member, as opposed to a number such as `.5`. -/
def isMemberAccess : Text → Bool
  | '.' :: c :: _ => c = '_' || CharClass.isAlphabetic c
  | _ => false

/-- Whether the text before a dot ends with something that can have members: a closed group, a
literal or an atom. -/
def endsOperand (receiver : Text) : Bool :=
  match receiver.getLast? with
  | none => false
  | some c => isCloser c || isQuote c || (atomEnd receiver).isSome

/-- The receiver's part of the first row above that is not blank. A backslash at its end joins it
to the row below and is dropped; without one the rows are joined only inside brackets. -/
def joinedReceiver (bracketed : Bool) (above : List (Nat × Text)) : Option (Nat × Text) := do
  let (row, text) ← above.find? fun (_, text) => !Text.isBlankText text
  let text := Text.trimEnd text
  if text.getLast? = some '\\' then some (row, Text.trimEnd text.dropLast)
  else if bracketed then some (row, text)
  else none

/-- Where the scan goes on for a member whose dot stands at `dot`: at the dot when a closer stands
right before it, else at the end of the receiver. There is no such place when nothing that can
have members precedes the dot. -/
def memberReceiver (lines : List Text) (dot : Position) : Option Position :=
  match upward lines dot with
  | [] => none
  | (_, line) :: above => do
    if line.getLast?.any isCloser then some dot
    else
      let near := Text.trimEnd line
      let (row, receiver) ←
        if near.isEmpty then joinedReceiver (enclosingOpener lines dot).isSome above
        else some (dot.row, near)
      if endsOperand receiver then some ⟨row, Text.width receiver⟩ else none

/-- One step: where the piece that ends at `place` starts, or `place` itself when there is none,
and the number of bracket pairs of different kinds met on the way. -/
def step (lines : List Text) (place : Position) : Position × Nat :=
  match lines[place.row]? with
  | none => (place, 0)
  | some line =>
    let before := Text.cut line place.column
    match before.getLast? with
    | none => (place, 0)
    | some c =>
      if isCloser c then
        let found := findOpener lines place
        (found.opener.getD place, found.mismatches)
      else
        match atomEnd before with
        | none => (place, 0)
        | some atom =>
          let start : Position := ⟨place.row, Text.width before - Text.width atom⟩
          if isMemberAccess atom then ((memberReceiver lines start).getD place, 0)
          else (start, 0)

/-- What repeated steps led to. -/
structure Walk where
  start : Position
  iterations : Nat
  mismatches : Nat
  converged : Bool
  deriving DecidableEq, Repr

/-- Steps from `place` until one moves nothing, but at most `cap` of them. A step must not move
to the right. -/
def walk (lines : List Text) : Nat → Position → Except Fault Walk
  | 0, place => .ok ⟨place, 0, 0, false⟩
  | cap + 1, place =>
    let (next, mismatches) := step lines place
    if next = place then .ok ⟨place, 1, mismatches, true⟩
    else if next < place then do
      let rest ← walk lines cap next
      return { rest with
        iterations := rest.iterations + 1
        mismatches := mismatches + rest.mismatches }
    else .error (.movedRight place next)

theorem walk_of_step_eq {lines : List Text} {place : Position} (cap : Nat)
    (h : (step lines place).1 = place) :
    walk lines (cap + 1) place = .ok ⟨place, 1, (step lines place).2, true⟩ := by
  simp [walk, h]

theorem walk_of_step_lt {lines : List Text} {place : Position} {cap : Nat} {rest : Walk}
    (h : (step lines place).1 < place) (hrest : walk lines cap (step lines place).1 = .ok rest) :
    walk lines (cap + 1) place = .ok { rest with
      iterations := rest.iterations + 1
      mismatches := (step lines place).2 + rest.mismatches } := by
  have hne : (step lines place).1 ≠ place := by
    intro heq
    rw [heq] at h
    exact Position.lt_iff_not_le.1 h (Position.le_refl place)
  simp [walk, hne, h, hrest, bind, Except.bind, pure, Except.pure]

/-- The outcome of a scan. -/
structure Outcome where
  span : Span
  /-- The steps taken, the last one that moved nothing included. -/
  iterations : Nat
  /-- The bracket pairs of different kinds met on the way. -/
  mismatches : Nat
  /-- Whether the scan ended by itself, and not by the cap. -/
  converged : Bool
  deriving DecidableEq, Repr

end Scan

/-- The expression right before a trigger, whose character stands just left of `place`. The span
is empty when nothing precedes the trigger. -/
def scan (lines : List Text) (place : Position) (cap : Nat) : Except Fault Scan.Outcome := do
  let stop := Scan.clamp lines (place.shiftedLeft 1)
  let walk ← Scan.walk lines cap stop
  let span ← Span.ordered walk.start stop
  return ⟨span, walk.iterations, walk.mismatches, walk.converged⟩

end DotTarget
