import DotTarget.Span
import DotTarget.Text.Decimal

set_option autoImplicit false

/-! # Decimal numerals read and written

`Text.decimal?` accepts exactly the texts of one or more ASCII digits and gives their value to base
ten, whatever zeros they begin with (`Text.decimal?_eq_some_iff`). It undoes `Text.ofNat`
(`Text.decimal?_ofNat`). Positions and spans are written with such numerals. -/

namespace DotTarget

namespace Text

theorem digit?_of_isDigit {c : Char} (h : c.isDigit = true) :
    digit? c = some (c.toNat - '0'.toNat) := by
  simp only [Char.isDigit, Bool.and_eq_true, decide_eq_true_eq] at h
  exact if_pos h

theorem digit?_of_not_isDigit {c : Char} (h : c.isDigit = false) : digit? c = none := by
  simp only [Char.isDigit, Bool.and_eq_false_iff, decide_eq_false_iff_not] at h
  exact if_neg fun hdigit => h.elim (absurd hdigit.1) (absurd hdigit.2)

/-- The digits that follow those of `n` must all be digits, and continue its value. -/
theorem decimalFrom_eq_some_iff {n m : Nat} {cs : Text} :
    decimalFrom n cs = some m ↔
      (∀ c ∈ cs, c.isDigit = true) ∧ Nat.ofDigitChars 10 cs n = m := by
  induction cs generalizing n with
  | nil => simp [decimalFrom]
  | cons c cs ih =>
    rw [decimalFrom, List.forall_mem_cons, Nat.ofDigitChars_cons]
    cases hdigit : c.isDigit with
    | false => simp [digit?_of_not_isDigit hdigit]
    | true => simp [digit?_of_isDigit hdigit, ih]

/-- **What a numeral is, and its value.** -/
theorem decimal?_eq_some_iff {cs : Text} {n : Nat} :
    decimal? cs = some n ↔
      cs ≠ [] ∧ (∀ c ∈ cs, c.isDigit = true) ∧ Nat.ofDigitChars 10 cs 0 = n := by
  cases cs with
  | nil => simp [decimal?]
  | cons c cs => simp [decimal?, decimalFrom_eq_some_iff]

theorem ofNat_ne_nil (n : Nat) : ofNat n ≠ [] :=
  Nat.toDigits_ne_nil

theorem isDigit_of_mem_ofNat {n : Nat} {c : Char} (h : c ∈ ofNat n) : c.isDigit = true :=
  Nat.isDigit_of_mem_toDigits (by decide) (by decide) h

/-- Reading a numeral undoes writing it. -/
theorem decimal?_ofNat (n : Nat) : decimal? (ofNat n) = some n :=
  decimal?_eq_some_iff.2
    ⟨ofNat_ne_nil n, fun _ => isDigit_of_mem_ofNat, Nat.ofDigitChars_ten_toDigits⟩

end Text

/-! ## Written positions and spans -/

theorem Position.toList_display (p : Position) :
    p.display.toList = Text.ofNat p.row ++ ':' :: Text.ofNat p.column := by
  have hcolon : (toString ":").toList = [':'] := rfl
  simp [display, Text.ofNat, hcolon]

theorem Span.toList_display (s : Span) :
    s.display.toList = s.start.display.toList ++ '-' :: s.stop.display.toList := by
  have hdash : (toString "-").toList = ['-'] := rfl
  have hbound (p : Position) : toString p.display = p.display := rfl
  simp [display, hdash, hbound]

end DotTarget
