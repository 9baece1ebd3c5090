import DotTarget.CharClass
import DotTarget.Text.Width

set_option autoImplicit false

/-! # Trimming blanks

Blanks are the characters with the Unicode property White_Space. -/

namespace DotTarget.Text

open CharClass (isBlank)

/-- The text without the blanks at its end. -/
def trimEnd (t : Text) : Text :=
  (t.reverse.dropWhile isBlank).reverse

/-- The text without the blanks at its two ends. -/
def trim (t : Text) : Text :=
  trimEnd (t.dropWhile isBlank)

/-- Whether a text holds nothing but blanks. -/
def isBlankText (t : Text) : Bool :=
  t.all isBlank

theorem dropWhile_isBlank_eq_nil_iff (t : Text) :
    t.dropWhile isBlank = [] ↔ ∀ c ∈ t, isBlank c = true := by
  induction t with
  | nil => simp
  | cons c cs ih => by_cases h : isBlank c = true <;> simp [h, ih]

/-- A text is trimmed to nothing exactly when it is blank. -/
theorem trimEnd_eq_nil_iff (t : Text) : trimEnd t = [] ↔ isBlankText t = true := by
  rw [trimEnd, List.reverse_eq_nil_iff, dropWhile_isBlank_eq_nil_iff]
  simp [isBlankText]

end DotTarget.Text
