import DotTarget.Text.Quoted

set_option autoImplicit false

/-! # Reading past quoted texts

`Text.outsideQuotes` reads a text from the front and leaves out what stands between double quotes,
where a backslash takes the quote behind it for a part of the quotation. What `Text.quoted` writes
is one such quotation, whatever it quotes (`Text.outsideQuotes_quoted`), and it stays on one row
(`Text.newline_notMem_quoted`). -/

namespace DotTarget.Text

/-- Where a reader stands that looks for quotations: outside of them, inside one, or there behind a
backslash. -/
inductive QuoteState where
  | outside
  | inside
  | escaping

/-- What stands outside of quotations, for a reader that starts in the given state. -/
def outsideQuotes : QuoteState → Text → Text
  | _, [] => []
  | .outside, c :: t => if c = '"' then outsideQuotes .inside t else c :: outsideQuotes .outside t
  | .inside, c :: t =>
    if c = '\\' then outsideQuotes .escaping t
    else if c = '"' then outsideQuotes .outside t
    else outsideQuotes .inside t
  | .escaping, _ :: t => outsideQuotes .inside t

theorem outsideQuotes_append {s : Text} (hs : '"' ∉ s) (t : Text) :
    outsideQuotes .outside (s ++ t) = s ++ outsideQuotes .outside t := by
  induction s with
  | nil => rfl
  | cons c s ih =>
    obtain ⟨hc, hs⟩ := List.ne_and_not_mem_of_not_mem_cons hs
    rw [List.cons_append, outsideQuotes, if_neg (Ne.symm hc), ih hs, List.cons_append]

/-! ## Escaped characters -/

/-- A hexadecimal digit is none of the characters that are escaped. -/
theorem notMem_toDigits_hex {c : Char} (hc : c ∈ ['"', '\\', '\n']) (n : Nat) :
    c ∉ Nat.toDigits 16 n := by
  have hdigits : ((List.range 16).all fun d => Nat.digitChar d ∉ ['"', '\\', '\n']) = true := by
    decide
  have hdigit : ∀ d < 16, c ≠ Nat.digitChar d := by
    rintro d hd rfl
    exact of_decide_eq_true (List.all_eq_true.1 hdigits d (List.mem_range.2 hd)) hc
  induction n using Nat.strongRecOn with
  | ind n ih =>
    rw [Nat.toDigits_eq_if (by decide)]
    split
    · rename_i hlt
      simpa using hdigit n hlt
    · rename_i hge
      have hrest := ih (n / 16) (by omega)
      have hlast := hdigit (n % 16) (by omega)
      simp [hrest, hlast]

/-- A character is written as a backslash and a letter, as it is, or by its number. -/
theorem escaped_cases (c : Char) :
    (∃ d, d ≠ '\n' ∧ escaped c = ['\\', d]) ∨
      (c ∉ ['"', '\\', '\n'] ∧ escaped c = [c]) ∨ escaped c = numbered c := by
  unfold escaped
  split
  · exact .inl ⟨'"', by decide, rfl⟩
  rename_i hquote
  split
  · exact .inl ⟨'\\', by decide, rfl⟩
  rename_i hslash
  split
  · exact .inl ⟨'n', by decide, rfl⟩
  rename_i hnewline
  split
  · exact .inl ⟨'r', by decide, rfl⟩
  split
  · exact .inl ⟨'t', by decide, rfl⟩
  split
  · exact .inl ⟨'0', by decide, rfl⟩
  split
  · exact .inr (.inl ⟨by simp [hquote, hslash, hnewline], rfl⟩)
  · exact .inr (.inr rfl)

/-- An escaped character does not end the quotation in which it stands. -/
theorem outsideQuotes_escaped (c : Char) (t : Text) :
    outsideQuotes .inside (escaped c ++ t) = outsideQuotes .inside t := by
  have hplain {s : Text} (hquote : '"' ∉ s) (hslash : '\\' ∉ s) :
      outsideQuotes .inside (s ++ t) = outsideQuotes .inside t := by
    induction s with
    | nil => rfl
    | cons d s ih =>
      obtain ⟨hd, hquote⟩ := List.ne_and_not_mem_of_not_mem_cons hquote
      obtain ⟨hd', hslash⟩ := List.ne_and_not_mem_of_not_mem_cons hslash
      rw [List.cons_append, outsideQuotes, if_neg (Ne.symm hd'), if_neg (Ne.symm hd),
        ih hquote hslash]
  rcases escaped_cases c with ⟨d, -, h⟩ | ⟨hc, h⟩ | h
  · rw [h]
    rfl
  · rw [h]
    simp only [List.mem_cons, not_or] at hc
    exact hplain (by simpa using Ne.symm hc.1) (by simpa using Ne.symm hc.2.1)
  · -- The letter behind the backslash is passed over, then no quote and no backslash follows.
    have hdigits {d : Char} (hd : d ∈ ['"', '\\', '\n']) := notMem_toDigits_hex hd c.toNat
    rw [h]
    change outsideQuotes .inside ((['\x7b'] ++ Nat.toDigits 16 c.toNat ++ ['\x7d']) ++ t) = _
    exact hplain (by simp [hdigits]) (by simp [hdigits])

/-- **A quoted text is one quotation.** -/
theorem outsideQuotes_quoted (s t : Text) :
    outsideQuotes .outside (quoted s ++ t) = outsideQuotes .outside t := by
  have hbody :
      outsideQuotes .inside (s.flatMap escaped ++ '"' :: t) = outsideQuotes .outside t := by
    induction s with
    | nil => rfl
    | cons c s ih =>
      rw [List.flatMap_cons, List.append_assoc, outsideQuotes_escaped, ih]
  rw [quoted, List.append_assoc]
  exact hbody

theorem newline_notMem_escaped (c : Char) : '\n' ∉ escaped c := by
  rcases escaped_cases c with ⟨d, hd, h⟩ | ⟨hc, h⟩ | h
  · simp [h, Ne.symm hd]
  · rw [h, List.mem_singleton]
    rintro rfl
    simp at hc
  · simp [h, numbered, notMem_toDigits_hex]

/-- **A quoted text stays on one row.** -/
theorem newline_notMem_quoted (t : Text) : '\n' ∉ quoted t := by
  simp [quoted, newline_notMem_escaped]

end DotTarget.Text
