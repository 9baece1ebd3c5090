import DotTarget.Cli.Cursor
import DotTarget.Proofs.Text.Decimal
import DotTarget.Proofs.Text.Trimming

set_option autoImplicit false

/-! # The notation of cursors

A cursor argument is two coordinates with a colon between them. A coordinate is a numeral of ASCII
digits below two to the power of 64, which may have a plus sign before it and blanks around it
(`Cli.Coordinate`). `Cli.parseCursor` accepts exactly these texts and gives the values of the two
numerals, and it undoes the way positions are written (`Cli.parseCursor_exact`). -/

namespace DotTarget

open CharClass (isBlank)

theorem CharClass.isBlank_eq_false_of_isDigit {c : Char} (h : c.isDigit = true) :
    isBlank c = false := by
  have hbounds := Char.isDigit_iff_toNat.1 h
  simp only [isBlank, blankRanges, Ranges.covers]
  grind

namespace Cli

/-! ## Coordinates -/

/-- The written form of a coordinate: one or more ASCII digits, of which the first ones may be
zeros, perhaps with a plus sign before them, and blanks around them. -/
structure Coordinate where
  left : Text
  signed : Bool
  digits : Text
  right : Text
  left_isBlank : ∀ c ∈ left, isBlank c = true
  digits_ne_nil : digits ≠ []
  digits_isDigit : ∀ c ∈ digits, c.isDigit = true
  right_isBlank : ∀ c ∈ right, isBlank c = true

namespace Coordinate

/-- The numeral with its sign. -/
def core (n : Coordinate) : Text :=
  (if n.signed then ['+'] else []) ++ n.digits

def text (n : Coordinate) : Text :=
  n.left ++ (n.core ++ n.right)

/-- The value of the digits to base ten. -/
def value (n : Coordinate) : Nat :=
  Nat.ofDigitChars 10 n.digits 0

theorem core_ne_nil (n : Coordinate) : n.core ≠ [] :=
  List.append_ne_nil_of_right_ne_nil _ n.digits_ne_nil

theorem isBlank_eq_false_of_mem_core (n : Coordinate) {c : Char} (h : c ∈ n.core) :
    isBlank c = false := by
  rcases List.mem_append.1 h with hsign | hdigit
  · split at hsign
    · obtain rfl := List.mem_singleton.1 hsign
      decide
    · exact absurd hsign List.not_mem_nil
  · exact CharClass.isBlank_eq_false_of_isDigit (n.digits_isDigit c hdigit)

/-- Trimming leaves the numeral with its sign. -/
theorem trim_text (n : Coordinate) : Text.trim n.text = n.core :=
  Text.trim_append n.left_isBlank n.right_isBlank n.core_ne_nil
    (fun _ hc => n.isBlank_eq_false_of_mem_core (List.mem_of_mem_head? hc))
    (fun _ hc => n.isBlank_eq_false_of_mem_core (List.mem_of_mem_getLast? hc))

theorem unsigned?_core (n : Coordinate) : unsigned? n.core = some n.value := by
  have hvalue : Text.decimal? n.digits = some n.value :=
    Text.decimal?_eq_some_iff.2 ⟨n.digits_ne_nil, n.digits_isDigit, rfl⟩
  obtain ⟨first, rest, hdigits⟩ := List.exists_cons_of_ne_nil n.digits_ne_nil
  cases hsigned : n.signed with
  | true => simpa [core, hsigned, unsigned?] using hvalue
  | false =>
    have hplus : first ≠ '+' := by
      rintro rfl
      exact absurd (n.digits_isDigit '+' (hdigits ▸ List.mem_cons_self)) (by decide)
    rw [← hvalue]
    simp only [core, hsigned, hdigits, Bool.false_eq_true, if_false, List.nil_append]
    unfold unsigned?
    split
    · rename_i heq
      exact absurd (List.cons.inj heq).1 hplus
    · rfl

end Coordinate

/-- A numeral with or without a sign is what stands in some coordinate. -/
theorem exists_signed_of_unsigned? {core : Text} {n : Nat} (h : unsigned? core = some n) :
    ∃ (signed : Bool) (digits : Text), core = (if signed then ['+'] else []) ++ digits ∧
      Text.decimal? digits = some n := by
  unfold unsigned? at h
  split at h
  · rename_i digits
    exact ⟨true, digits, rfl, h⟩
  · exact ⟨false, core, rfl, h⟩

/-- The text is a coordinate with the given value. -/
def Spells (t : Text) (n : Nat) : Prop :=
  ∃ coordinate : Coordinate, coordinate.text = t ∧ coordinate.value = n

/-- **What a coordinate is, and its value.** -/
theorem coordinate?_eq_some_iff {t : Text} {n : Nat} :
    coordinate? t = some n ↔ Spells t n ∧ n < addressLimit := by
  constructor
  · intro h
    simp only [coordinate?, bind, Option.bind_eq_some_iff] at h
    obtain ⟨value, hvalue, hlimit⟩ := h
    split at hlimit
    · rename_i hlt
      obtain rfl := Option.some.inj hlimit
      obtain ⟨signed, digits, hcore, hdigits⟩ := exists_signed_of_unsigned? hvalue
      obtain ⟨hne, hisDigit, hofDigits⟩ := Text.decimal?_eq_some_iff.1 hdigits
      obtain ⟨left, right, ht, hleft, hright⟩ := Text.exists_eq_append_trim_append t
      rw [hcore] at ht
      exact ⟨⟨⟨left, signed, digits, right, hleft, hne, hisDigit, hright⟩, ht.symm, hofDigits⟩, hlt⟩
    · exact absurd hlimit (by simp)
  · rintro ⟨⟨coordinate, rfl, rfl⟩, hlt⟩
    simp [coordinate?, coordinate.trim_text, coordinate.unsigned?_core, hlt]

/-- A number written without blanks or sign is a coordinate. -/
theorem spells_ofNat (n : Nat) : Spells (Text.ofNat n) n := by
  obtain ⟨hne, hisDigit, hvalue⟩ := Text.decimal?_eq_some_iff.1 (Text.decimal?_ofNat n)
  refine ⟨⟨[], false, Text.ofNat n, [], by simp, hne, hisDigit, by simp⟩, ?_, hvalue⟩
  simp [Coordinate.text, Coordinate.core]

/-! ## Cursors -/

theorem parseCursor_of_free {t : Text} (h : ':' ∉ t) : parseCursor t = .error (.shape t) := by
  have hdrop : t.dropWhile (fun c => decide (c ≠ ':')) = [] :=
    List.dropWhile_eq_nil_iff.2 fun c hc => decide_eq_true fun heq => h (heq ▸ hc)
  simp only [parseCursor, hdrop]

/-- The row ends at the first colon, and what follows is the column. -/
theorem parseCursor_append_eq_ok_iff {row column : Text} (hrow : ':' ∉ row) {p : Position} :
    parseCursor (row ++ ':' :: column) = .ok p ↔
      coordinate? row = some p.row ∧ coordinate? column = some p.column := by
  have hfree : ∀ c ∈ row, decide (c ≠ ':') = true :=
    fun c hc => decide_eq_true fun heq => hrow (heq ▸ hc)
  have hcolon : ∀ c ∈ (':' :: column).head?, decide (c ≠ ':') = false := by simp
  simp only [parseCursor, Text.takeWhile_run_append hfree hcolon,
    Text.dropWhile_run_append hfree hcolon]
  cases coordinate? row with
  | none => simp
  | some r =>
    cases coordinate? column with
    | none => simp
    | some c => cases p; simp

/-- **Which texts are cursors.** -/
theorem parseCursor_eq_ok_iff {t : Text} {p : Position} :
    parseCursor t = .ok p ↔ ∃ row column, t = row ++ ':' :: column ∧ ':' ∉ row ∧
      (Spells row p.row ∧ p.row < addressLimit) ∧ Spells column p.column ∧
      p.column < addressLimit := by
  simp only [← coordinate?_eq_some_iff]
  constructor
  · intro h
    by_cases hmem : ':' ∈ t
    · obtain ⟨row, column, rfl, hrow⟩ := List.eq_append_cons_of_mem hmem
      exact ⟨row, column, rfl, hrow, (parseCursor_append_eq_ok_iff hrow).1 h⟩
    · rw [parseCursor_of_free hmem] at h
      exact absurd h (by simp)
  · rintro ⟨row, column, rfl, hrow, hcoordinates⟩
    exact (parseCursor_append_eq_ok_iff hrow).2 hcoordinates

theorem colon_notMem_ofNat (n : Nat) : ':' ∉ Text.ofNat n := by
  intro hmem
  exact absurd (Text.isDigit_of_mem_ofNat hmem) (by decide)

/-- **Cursor arguments are read exactly.** A text is accepted as the position `p` if and only if it
is two coordinates with the values `p.row` and `p.column`, both below two to the power of 64 (the
`addressLimit`), on either side of its first colon. Every position with such a row and column is
read back from the way it is written. -/
theorem parseCursor_exact (p : Position) :
    (∀ t, parseCursor t = .ok p ↔ ∃ row column, t = row ++ ':' :: column ∧ ':' ∉ row ∧
      Spells row p.row ∧ Spells column p.column ∧ p.row < addressLimit ∧
        p.column < addressLimit) ∧
    (p.row < addressLimit → p.column < addressLimit →
      parseCursor p.display.toList = .ok p) := by
  constructor
  · intro t
    rw [parseCursor_eq_ok_iff]
    refine exists₂_congr fun row column => ?_
    tauto
  · intro hrow hcolumn
    rw [Position.toList_display, parseCursor_eq_ok_iff]
    exact ⟨_, _, rfl, colon_notMem_ofNat p.row, ⟨spells_ofNat _, hrow⟩, spells_ofNat _, hcolumn⟩

/-- The largest row, with a sign, zeros and blanks of two kinds. -/
theorem parseCursor_exact_largest :
    parseCursor "\u3000+0018446744073709551615 : 7".toList = .ok ⟨18446744073709551615, 7⟩ ∧
      parseCursor "18446744073709551615:7".toList = .ok ⟨18446744073709551615, 7⟩ := by
  have hexact := parseCursor_exact ⟨18446744073709551615, 7⟩
  have hrow : Spells "\u3000+0018446744073709551615 ".toList 18446744073709551615 :=
    ⟨⟨['\u3000'], true, "0018446744073709551615".toList, [' '], List.all_eq_true.1 (by decide),
      by decide, List.all_eq_true.1 (by decide), List.all_eq_true.1 (by decide)⟩,
      by decide, by decide⟩
  have hcolumn : Spells " 7".toList 7 :=
    ⟨⟨[' '], false, ['7'], [], List.all_eq_true.1 (by decide), by decide,
      List.all_eq_true.1 (by decide), List.all_eq_true.1 (by decide)⟩, by decide, by decide⟩
  have hdisplay : (⟨18446744073709551615, 7⟩ : Position).display.toList =
      "18446744073709551615:7".toList := by decide
  refine ⟨(hexact.1 _).2 ⟨_, _, ?_, ?_, hrow, hcolumn, by decide, by decide⟩, ?_⟩
  · decide
  · decide
  · rw [← hdisplay]
    exact hexact.2 (by decide) (by decide)

/-- One more than the largest row is refused. -/
example : parseCursor "18446744073709551616:7".toList =
    .error (.row "18446744073709551616".toList) := by decide

end Cli

end DotTarget
