import DotTarget.Text.Width

set_option autoImplicit false

/-! # Rows of a text

A document is the list of its rows. Rows are parted by the newline character alone, so a
carriage return stays at the end of its row, and a text always has at least one row. -/

namespace DotTarget.Text

/-- The rows of a text: the stretches between newlines. -/
def lines : Text → List Text
  | [] => [[]]
  | c :: cs =>
    let rest := lines cs
    if c = '\n' then [] :: rest else (c :: rest.headD []) :: rest.tail

/-- The text with the given rows, one newline between any two. -/
def ofLines : List Text → Text
  | [] => []
  | [row] => row
  | row :: next :: rest => row ++ '\n' :: ofLines (next :: rest)

theorem lines_ne_nil (t : Text) : lines t ≠ [] := by
  cases t with
  | nil => simp [lines]
  | cons c cs => by_cases h : c = '\n' <;> simp [lines, h]

/-- Splitting into rows loses nothing. -/
theorem ofLines_lines (t : Text) : ofLines (lines t) = t := by
  induction t with
  | nil => rfl
  | cons c cs ih =>
    obtain ⟨row, rest, hrest⟩ := List.exists_cons_of_ne_nil (lines_ne_nil cs)
    rw [hrest] at ih
    by_cases h : c = '\n'
    · simp [lines, h, hrest, ofLines, ih]
    · cases rest with
      | nil => simp_all [lines, ofLines]
      | cons next rest => simp_all [lines, ofLines]

end DotTarget.Text
