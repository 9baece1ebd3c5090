import DotTarget.Lexical.Scan

set_option autoImplicit false

/-! # Where atoms end

An atom ends with a character of a name, a dot or a quote; we call these characters sturdy. Inside
an atom, too, what stands before a stretch without quotes is sturdy, but for the sign of an
exponent, which a digit follows (`Solid`, `solid_of_matches_grammar`). So an atom at the end of a
text never reaches over a character that is not sturdy: behind such a character a dotted name is an
atom by itself (`atomEnd_append`), and a text that ends with one has no atom at its end
(`atomEnd_eq_none`). -/

namespace DotTarget

/-- A covered code point lies in one of the intervals. -/
theorem CharClass.Ranges.exists_of_covers {r : Ranges} {n : Nat} (h : r.covers n = true) :
    ∃ range ∈ r, range.1 ≤ n ∧ n ≤ range.2 := by
  induction r with
  | nil => simp [Ranges.covers] at h
  | cons range r ih =>
    rw [Ranges.covers] at h
    split at h
    · simp at h
    · split at h
      · exact ⟨range, List.mem_cons_self, by omega, by assumption⟩
      · obtain ⟨other, hmem, hother⟩ := ih h
        exact ⟨other, List.mem_cons_of_mem _ hmem, hother⟩

/-- What holds at every code point of the intervals holds of every character that they cover. -/
theorem CharClass.Ranges.forall_of_covers {r : Ranges} {P : Char → Prop}
    (hpoints : ∀ range ∈ r, ∀ n ∈ List.range' range.1 (range.2 + 1 - range.1), P (Char.ofNat n))
    {c : Char} (h : r.covers c.toNat = true) : P c := by
  obtain ⟨range, hmem, hle, hge⟩ := exists_of_covers h
  have hc := hpoints range hmem c.toNat (by rw [List.mem_range'_1]; omega)
  rwa [Char.ofNat_toNat] at hc

/-- No name has blanks in it. -/
theorem CharClass.isNamePart_of_isBlank {c : Char} (h : isBlank c = true) :
    isNamePart c = false :=
  Ranges.forall_of_covers (P := fun c => isNamePart c = false) (by decide +kernel) h

/-- No word has blanks in it. -/
theorem CharClass.isWordChar_of_isBlank {c : Char} (h : isBlank c = true) :
    isWordChar c = false :=
  Ranges.forall_of_covers (P := fun c => isWordChar c = false) (by decide +kernel) h

theorem CharClass.isBlank_of_isWordChar {c : Char} (h : isWordChar c = true) :
    isBlank c = false := by
  cases hblank : isBlank c with
  | false => rfl
  | true =>
    rw [isWordChar_of_isBlank hblank] at h
    exact h.symm

namespace Atom

open Pattern

/-- A character that can be the last of an atom. -/
def isSturdy (c : Char) : Bool :=
  CharClass.isNamePart c || c = '.' || isQuote c

theorem isSturdy_of_isBlank {c : Char} (h : CharClass.isBlank c = true) : isSturdy c = false := by
  have hdot : c ≠ '.' := by
    rintro rfl
    exact absurd h (by decide)
  have hquote : isQuote c = false := by
    cases hquote : isQuote c with
    | false => rfl
    | true =>
      simp only [isQuote, Bool.or_eq_true, decide_eq_true_eq] at hquote
      rcases hquote with rfl | rfl <;> exact absurd h (by decide)
  simp [isSturdy, CharClass.isNamePart_of_isBlank h, hdot, hquote]

def isDigit (c : Char) : Bool :=
  "0123456789".toList.contains c

/-- A text that a longer atom can be made of: it ends with a sturdy character, and each character
before a stretch without quotes is sturdy or followed by a digit. -/
structure Solid (t : Text) : Prop where
  last : ∀ c ∈ t.getLast?, isSturdy c = true
  inside : ∀ front d e back, t = front ++ d :: e :: back →
    (∀ c ∈ e :: back, isQuote c = false) → isSturdy d = true ∨ isDigit e = true

namespace Solid

theorem nil : Solid [] where
  last := by simp
  inside := by simp

theorem singleton {c : Char} (h : isSturdy c = true) : Solid [c] where
  last := by simpa using h
  inside := by
    intro front d e back heq
    have hlength := congrArg List.length heq
    simp only [List.length_append, List.length_cons, List.length_nil] at hlength
    omega

theorem append {s t : Text} (hs : Solid s) (ht : Solid t) : Solid (s ++ t) where
  last := by
    intro c hc
    rw [List.getLast?_append] at hc
    cases hlast : t.getLast? with
    | none =>
      rw [hlast] at hc
      exact hs.last c hc
    | some d =>
      rw [hlast] at hc
      exact ht.last c (by rw [hlast]; exact hc)
  inside := by
    intro front d e back heq hfree
    -- The two characters stand in the first text, in the second, or one in each.
    rcases List.append_eq_append_iff.1 heq with ⟨more, rfl, ht'⟩ | ⟨more, rfl, hback⟩
    · exact ht.inside more d e back ht' hfree
    · match more, hback with
      | [], hback => exact ht.inside [] d e back hback.symm hfree
      | [d'], hback =>
        simp only [List.cons_append, List.nil_append, List.cons.injEq] at hback
        exact .inl (hs.last d (by simp [hback.1]))
      | d' :: e' :: more, hback =>
        simp only [List.cons_append, List.cons.injEq] at hback
        obtain ⟨rfl, rfl, rfl⟩ := hback
        exact hs.inside front d e more rfl fun c hc => hfree c (by
          simp only [List.mem_cons, List.mem_append] at hc ⊢
          exact hc.imp_right .inl)

/-- A text that ends with a quote is solid, whatever it holds. -/
theorem of_quote {t : Text} {q : Char} (h : t.getLast? = some q) (hq : isQuote q = true) :
    Solid t where
  last := by
    intro c hc
    rw [h] at hc
    obtain rfl := Option.some.inj hc
    simp [isSturdy, hq]
  inside := by
    rintro front d e back rfl hfree
    -- What stands behind any of its characters still holds the quote at the end.
    rw [List.getLast?_append, List.getLast?_cons_cons] at h
    have hmem : q ∈ e :: back := List.mem_of_getLast? (by simpa using h)
    rw [hfree q hmem] at hq
    exact absurd hq (by simp)

/-- A digit may follow any character. -/
theorem cons_of_digit {d e : Char} {t : Text} (he : isDigit e = true) (h : Solid (e :: t)) :
    Solid (d :: e :: t) where
  last := by
    intro c hc
    exact h.last c (by simpa using hc)
  inside := by
    intro front d' e' back heq hfree
    cases front with
    | nil =>
      simp only [List.nil_append, List.cons.injEq] at heq
      exact .inr (heq.2.1 ▸ he)
    | cons f front =>
      simp only [List.cons_append, List.cons.injEq] at heq
      exact h.inside front d' e' back heq.2 hfree

end Solid

/-! ## Patterns of solid texts -/

/-- A pattern that stands for solid texts only. -/
def AllSolid (p : Pattern) : Prop :=
  ∀ t, Matches p t → Solid t

/-- A pattern whose texts all end with a quote. -/
def EndsInQuote (p : Pattern) : Prop :=
  ∀ t, Matches p t → ∃ q, t.getLast? = some q ∧ isQuote q = true

namespace AllSolid

variable {p q : Pattern}

theorem empty : AllSolid .empty := by
  intro t ht
  rw [matches_empty_iff.1 ht]
  exact .nil

theorem one {set : CharSet} (h : ∀ c, set.holds c = true → isSturdy c = true) :
    AllSolid (.one set) := by
  intro t ht
  obtain ⟨c, rfl, hc⟩ := matches_one_iff.1 ht
  exact .singleton (h c hc)

theorem seq (hp : AllSolid p) (hq : AllSolid q) : AllSolid (.seq p q) := by
  intro t ht
  obtain ⟨a, b, rfl, ha, hb⟩ := matches_seq_iff.1 ht
  exact (hp a ha).append (hq b hb)

theorem alt (hp : AllSolid p) (hq : AllSolid q) : AllSolid (.alt p q) := by
  intro t ht
  exact (matches_alt_iff.1 ht).elim (hp t) (hq t)

theorem opt (hp : AllSolid p) : AllSolid (.opt p) :=
  hp.alt .empty

theorem star (hp : AllSolid p) : AllSolid (.star p) := by
  intro t ht
  obtain ⟨parts, rfl, hparts⟩ := matches_star_iff.1 ht
  clear ht
  induction parts with
  | nil => exact .nil
  | cons first rest ih =>
    have hrest : ∀ s ∈ rest, Matches p s := fun s hs => hparts s (List.mem_cons_of_mem _ hs)
    rw [List.flatten_cons]
    exact (hp first (hparts first List.mem_cons_self)).append (ih hrest)

/-- One of some characters that are all sturdy. -/
theorem oneOf {members : String} (h : members.toList.all isSturdy = true) :
    AllSolid (Pattern.oneOf members) := by
  refine one fun c hc => List.all_eq_true.1 h c ?_
  simpa [CharSet.holds] using hc

theorem of_endsInQuote (h : EndsInQuote p) : AllSolid p := by
  intro t ht
  obtain ⟨q, hlast, hq⟩ := h t ht
  exact .of_quote hlast hq

end AllSolid

namespace EndsInQuote

variable {p q : Pattern}

theorem seq (hq : EndsInQuote q) : EndsInQuote (.seq p q) := by
  intro t ht
  obtain ⟨a, b, rfl, -, hb⟩ := matches_seq_iff.1 ht
  obtain ⟨c, hlast, hc⟩ := hq b hb
  exact ⟨c, by simp [List.getLast?_append, hlast], hc⟩

theorem alt (hp : EndsInQuote p) (hq : EndsInQuote q) : EndsInQuote (.alt p q) := by
  intro t ht
  exact (matches_alt_iff.1 ht).elim (hp t) (hq t)

theorem oneOf {quote : String} (h : quote.toList.all isQuote = true) :
    EndsInQuote (Pattern.oneOf quote) := by
  intro t ht
  obtain ⟨c, rfl, hc⟩ := matches_one_iff.1 ht
  refine ⟨c, rfl, List.all_eq_true.1 h c ?_⟩
  simpa [CharSet.holds] using hc

end EndsInQuote

/-! ## The grammar of atoms -/

theorem isNamePart_of_isNameStart {c : Char} (h : CharClass.isNameStart c = true) :
    CharClass.isNamePart c = true := by
  simp only [CharClass.isNameStart, Bool.or_eq_true, decide_eq_true_eq, Bool.and_eq_true] at h
  rcases h with rfl | ⟨hletter, hrecent⟩
  · decide
  · simp [CharClass.isNamePart, CharClass.isAlphabetic, hletter, hrecent]

theorem allSolid_name : AllSolid name := by
  have hpart : ∀ c, CharClass.isNamePart c = true → isSturdy c = true := by
    intro c hc
    simp [isSturdy, hc]
  exact .seq (.one fun c hc => hpart c (isNamePart_of_isNameStart hc)) (.star (.one hpart))

theorem allSolid_member : AllSolid member :=
  .seq (.oneOf (by decide)) allSolid_name

theorem endsInQuote_literal : EndsInQuote literal := by
  have hlong (quote : String) (h : quote.toList.all isQuote = true) :
      EndsInQuote (longLiteral quote) :=
    .seq (.seq (.seq (.seq (.oneOf h))))
  have hshort (quote : String) (h : quote.toList.all isQuote = true) :
      EndsInQuote (shortLiteral quote) :=
    .seq (.seq (.oneOf h))
  exact .seq (.alt (hlong _ (by decide)) (.alt (hlong _ (by decide))
    (.alt (hshort _ (by decide)) (hshort _ (by decide)))))

theorem allSolid_literals : AllSolid literals :=
  .seq (.of_endsInQuote endsInQuote_literal) (.star (.of_endsInQuote (.seq endsInQuote_literal)))

theorem allSolid_digits : AllSolid digits :=
  .seq (.oneOf (by decide)) (.star (.oneOf (by decide)))

/-- The sign of an exponent is the one character of an atom that is not sturdy. -/
theorem allSolid_signed : AllSolid (seq (opt (oneOf "+-")) digits) := by
  intro t ht
  obtain ⟨sign, rest, rfl, hsign, hdigits⟩ := matches_seq_iff.1 ht
  have hrest := allSolid_digits rest hdigits
  obtain ⟨first, more, rfl, hfirst, -⟩ := matches_seq_iff.1 hdigits
  obtain ⟨d, rfl, hd⟩ := matches_one_iff.1 hfirst
  rcases matches_alt_iff.1 hsign with hsign | hsign
  · obtain ⟨c, rfl, -⟩ := matches_one_iff.1 hsign
    exact .cons_of_digit hd hrest
  · rw [matches_empty_iff.1 hsign]
    exact hrest

theorem allSolid_number : AllSolid number := by
  have hbased (mark digits : String) (hmark : mark.toList.all isSturdy = true)
      (hdigits : digits.toList.all isSturdy = true) : AllSolid (based mark digits) :=
    .seq (.oneOf (by decide)) (.seq (.oneOf hmark) (.seq (.oneOf hdigits) (.star (.oneOf hdigits))))
  have hdecimal : AllSolid (chain
      [.alt (.seq digits (opt (.seq (oneOf ".") (.star (oneOf "0123456789_")))))
        (.seq (oneOf ".") digits),
       opt (chain [oneOf "eE", opt (oneOf "+-"), digits]), opt (oneOf "jJ")]) := by
    refine .seq (.alt ?_ ?_) (.seq (.opt ?_) (.opt (.oneOf (by decide))))
    · exact .seq allSolid_digits (.opt (.seq (.oneOf (by decide)) (.star (.oneOf (by decide)))))
    · exact .seq (.oneOf (by decide)) allSolid_digits
    · exact .seq (.oneOf (by decide)) allSolid_signed
  exact .alt (hbased _ _ (by decide) (by decide)) (.alt (hbased _ _ (by decide) (by decide))
    (.alt (hbased _ _ (by decide) (by decide)) hdecimal))

/-- Every atom is solid. -/
theorem solid_of_matches_grammar : AllSolid grammar :=
  .seq (.alt allSolid_literals (.alt allSolid_number (.alt allSolid_name allSolid_member)))
    (.star allSolid_member)

theorem not_matches_grammar_nil : ¬ Matches grammar [] := by
  rw [← nullable_iff]
  decide

theorem width_pos_of_matches_grammar {t : Text} (h : Matches grammar t) : 0 < Text.width t := by
  apply Nat.pos_of_ne_zero
  rw [Ne, Text.width_eq_zero_iff]
  rintro rfl
  exact not_matches_grammar_nil h

/-! ## Atoms behind a character that is not sturdy -/

/-- A text whose last character is not sturdy has no atom at its end. -/
theorem longestEnd_eq_none_of_not_sturdy {t : Text} (h : ∀ c ∈ t.getLast?, isSturdy c = false) :
    grammar.longestEnd t = none := by
  cases hfound : grammar.longestEnd t with
  | none => rfl
  | some found =>
    obtain ⟨⟨front, rfl⟩, hmatches, -⟩ := longestEnd_eq_some hfound
    have hsolid := solid_of_matches_grammar found hmatches
    cases hlast : found.getLast? with
    | none =>
      rw [List.getLast?_eq_none_iff.1 hlast] at hmatches
      exact absurd hmatches not_matches_grammar_nil
    | some c =>
      have hsturdy := hsolid.last c (by simp [hlast])
      rw [h c (by simp [List.getLast?_append, hlast])] at hsturdy
      exact absurd hsturdy (by simp)

/-- An atom without quotes that does not start with a digit is the longest one behind a character
that is not sturdy. -/
theorem longestEnd_append {front atom : Text} (hmatches : Matches grammar atom)
    (hdigit : ∀ c ∈ atom.head?, isDigit c = false) (hfree : ∀ c ∈ atom, isQuote c = false)
    (hfront : ∀ c ∈ front.getLast?, isSturdy c = false) :
    grammar.longestEnd (front ++ atom) = some atom := by
  have hsuffix : atom <:+ front ++ atom := List.suffix_append _ _
  cases hfound : grammar.longestEnd (front ++ atom) with
  | none => exact absurd hmatches (longestEnd_eq_none hfound hsuffix)
  | some found =>
    obtain ⟨hfoundSuffix, hfoundMatches, hlongest⟩ := longestEnd_eq_some hfound
    obtain ⟨more, rfl⟩ :=
      List.suffix_of_suffix_length_le hsuffix hfoundSuffix (hlongest atom hsuffix hmatches)
    cases hlast : more.getLast? with
    | none =>
      rw [List.getLast?_eq_none_iff.1 hlast]
      rfl
    | some d =>
      -- A longer atom would reach over the last character of the front.
      obtain ⟨less, rfl⟩ := List.getLast?_eq_some_iff.1 hlast
      obtain ⟨before, hbefore⟩ := hfoundSuffix
      have hlastFront : d ∈ front.getLast? := by
        rw [← List.append_assoc, List.append_cancel_right_eq] at hbefore
        rw [← hbefore]
        simp
      cases atom with
      | nil => exact absurd hmatches not_matches_grammar_nil
      | cons e back =>
        have hinside :=
          (solid_of_matches_grammar _ hfoundMatches).inside less d e back (by simp) hfree
        rw [hfront d hlastFront, hdigit e rfl] at hinside
        exact absurd hinside (by simp)

end Atom

/-! ## Dotted names -/

theorem Scan.isMemberAccess_of_head?_ne {t : Text} (h : t.head? ≠ some '.') :
    isMemberAccess t = false := by
  unfold isMemberAccess
  split
  · simp at h
  · rfl

/-- A name, be it a keyword or not. -/
structure Name where
  first : Char
  rest : Text
  first_isNameStart : CharClass.isNameStart first = true
  rest_isNamePart : ∀ c ∈ rest, CharClass.isNamePart c = true

namespace Name

def text (name : Name) : Text :=
  name.first :: name.rest

/-- Names with a dot before each of them. -/
def dotted (names : List Name) : Text :=
  names.flatMap fun name => '.' :: name.text

theorem isNamePart_of_mem_text (name : Name) : ∀ c ∈ name.text, CharClass.isNamePart c = true := by
  intro c hc
  rcases List.mem_cons.1 hc with rfl | hc
  · exact Atom.isNamePart_of_isNameStart name.first_isNameStart
  · exact name.rest_isNamePart c hc

theorem isNamePart_of_mem_dotted (names : List Name) :
    ∀ c ∈ dotted names, CharClass.isNamePart c = true ∨ c = '.' := by
  intro c hc
  obtain ⟨name, -, hc⟩ := List.mem_flatMap.1 hc
  rcases List.mem_cons.1 hc with rfl | hc
  · exact .inr rfl
  · exact .inl (name.isNamePart_of_mem_text c hc)

theorem isQuote_of_isNamePart {c : Char} (h : CharClass.isNamePart c = true ∨ c = '.') :
    isQuote c = false := by
  cases hquote : isQuote c with
  | false => rfl
  | true =>
    simp only [isQuote, Bool.or_eq_true, decide_eq_true_eq] at hquote
    rcases hquote with rfl | rfl <;> exact absurd h (by decide)

theorem isDigit_first (name : Name) : Atom.isDigit name.first = false := by
  have hall : "0123456789".toList.all fun c => !CharClass.isNameStart c := by decide
  cases hdigit : Atom.isDigit name.first with
  | false => rfl
  | true =>
    rw [Atom.isDigit, List.contains_iff_mem] at hdigit
    have hnot := List.all_eq_true.1 hall _ hdigit
    simp [name.first_isNameStart] at hnot

open Pattern

theorem matches_text (name : Name) : Matches Atom.name name.text := by
  have hrest : Matches (.star (.one .namePart)) name.rest :=
    matches_star_one_iff.2 name.rest_isNamePart
  have hfirst : Matches (.one .nameStart) [name.first] := .one name.first_isNameStart
  exact hfirst.seq hrest

theorem matches_member (name : Name) : Matches Atom.member ('.' :: name.text) :=
  .seq (.one (by decide)) name.matches_text

theorem matches_dotted (names : List Name) : Matches (.star Atom.member) (dotted names) := by
  refine matches_star_iff.2 ⟨names.map fun name => '.' :: name.text, ?_, ?_⟩
  · rw [dotted, List.flatMap_def]
  · intro s hs
    obtain ⟨name, -, rfl⟩ := List.mem_map.1 hs
    exact name.matches_member

/-- A member is seen to be one, whatever follows it. -/
theorem isMemberAccess_member (name : Name) (more : Text) :
    Scan.isMemberAccess ('.' :: (name.text ++ more)) = true := by
  have hfirst := name.first_isNameStart
  simp only [CharClass.isNameStart, Bool.or_eq_true, decide_eq_true_eq, Bool.and_eq_true] at hfirst
  rcases hfirst with hfirst | hfirst <;>
    simp [text, Scan.isMemberAccess, CharClass.isAlphabetic, hfirst]

theorem isMemberAccess_text (name : Name) (more : Text) :
    Scan.isMemberAccess (name.text ++ more) = false := by
  apply Scan.isMemberAccess_of_head?_ne
  intro hdot
  have hfirst := name.first_isNameStart
  rw [Option.some.inj hdot] at hfirst
  exact absurd hfirst (by decide)

end Name

section AtomEnd

variable {front : Text} (hfront : ∀ c ∈ front.getLast?, Atom.isSturdy c = false)

include hfront

/-- Nothing that could be an atom ends with a character that is not sturdy. -/
theorem atomEnd_eq_none : atomEnd front = none := by
  rw [atomEnd, Atom.longestEnd_eq_none_of_not_sturdy hfront]
  rfl

theorem atomEnd_append {atom : Text} (hmatches : Atom.grammar.Matches atom)
    (hdigit : ∀ c ∈ atom.head?, Atom.isDigit c = false)
    (hname : ∀ c ∈ atom, CharClass.isNamePart c = true ∨ c = '.')
    (hword : Atom.isKeyword atom = false) : atomEnd (front ++ atom) = some atom := by
  have hlongest := Atom.longestEnd_append hmatches hdigit
    (fun c hc => Name.isQuote_of_isNamePart (hname c hc)) hfront
  simp [atomEnd, hlongest, hword]

/-- Members behind a character that is not sturdy are an atom by themselves. -/
theorem atomEnd_members {names : List Name} (hnames : names ≠ []) :
    atomEnd (front ++ Name.dotted names) = some (Name.dotted names) := by
  cases names with
  | nil => exact absurd rfl hnames
  | cons name names =>
    have hmatches : Atom.grammar.Matches (('.' :: name.text) ++ Name.dotted names) :=
      .seq (.right (.right (.right name.matches_member))) (Name.matches_dotted names)
    have hword : Atom.isKeyword (Name.dotted (name :: names)) = false := by
      have hdot : Atom.keywords.all fun keyword => keyword.toList.head? ≠ some '.' := by decide
      rw [Atom.isKeyword, List.any_eq_false]
      intro keyword hmem heq
      have hhead := List.all_eq_true.1 hdot keyword hmem
      rw [decide_eq_true_eq] at heq
      simp [heq, Name.dotted] at hhead
    refine atomEnd_append hfront hmatches ?_ (Name.isNamePart_of_mem_dotted _) hword
    intro c hc
    obtain rfl := Option.some.inj hc
    decide

/-- A dotted name behind a character that is not sturdy is an atom by itself, unless it is a bare
keyword. -/
theorem atomEnd_name (name : Name) (names : List Name)
    (hword : Atom.isKeyword (name.text ++ Name.dotted names) = false) :
    atomEnd (front ++ (name.text ++ Name.dotted names)) =
      some (name.text ++ Name.dotted names) := by
  have hmatches : Atom.grammar.Matches (name.text ++ Name.dotted names) :=
    .seq (.right (.right (.left name.matches_text))) (Name.matches_dotted names)
  refine atomEnd_append hfront hmatches ?_ ?_ hword
  · intro c hc
    obtain rfl := Option.some.inj hc
    exact name.isDigit_first
  · intro c hc
    rcases List.mem_append.1 hc with hc | hc
    · exact .inl (name.isNamePart_of_mem_text c hc)
    · exact Name.isNamePart_of_mem_dotted names c hc

end AtomEnd

end DotTarget
