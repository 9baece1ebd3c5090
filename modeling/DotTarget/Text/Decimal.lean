import DotTarget.Text.Width

set_option autoImplicit false

/-! # Decimal numerals

`Text.decimal?` reads a numeral of one or more ASCII digits, `Text.ofNat` writes one without
leading zeros. -/

namespace DotTarget.Text

/-- The value of an ASCII digit. -/
def digit? (c : Char) : Option Nat :=
  if '0' ≤ c ∧ c ≤ '9' then some (c.toNat - '0'.toNat) else none

/-- The value of a numeral whose digits follow those of `n`. -/
def decimalFrom (n : Nat) : Text → Option Nat
  | [] => some n
  | c :: cs => do decimalFrom (10 * n + (← digit? c)) cs

/-- The value of a numeral of one or more ASCII digits. -/
def decimal? : Text → Option Nat
  | [] => none
  | cs => decimalFrom 0 cs

/-- A number written in decimal. -/
def ofNat (n : Nat) : Text :=
  Nat.toDigits 10 n

end DotTarget.Text
