import DotTarget.Proofs.Lexical.AtomGrammar
import DotTarget.Proofs.Lexical.PostfixChain
import DotTarget.Proofs.Lexical.ScanPlaces

set_option autoImplicit false

/-! # Literals behind keywords

A literal behind a keyword, as in `return 'a'`, is a target by itself. But the letters that a
literal may begin with are not told from the last letter of a word: in `x or'a'` the literal found
is `r'a'`, and what is left of the keyword is a name like any other. So the scan stops at the
literal, unless the keyword touches it and ends in such a letter, and then it goes on from before
the keyword (`scan_literal_behind_keyword`). -/

namespace DotTarget

/-! ## Characters of a pattern -/

namespace Pattern

/-- Whether a pattern asks for a character anywhere. -/
def mentions : Pattern → Char → Bool
  | .empty, _ => false
  | .one set, c => set.holds c
  | .seq p q, c => p.mentions c || q.mentions c
  | .alt p q, c => p.mentions c || q.mentions c
  | .star p, c => p.mentions c

theorem Matches.mentions_of_mem {p : Pattern} {t : Text} (h : Matches p t) {c : Char} (hc : c ∈ t) :
    p.mentions c = true := by
  induction h with
  | empty => simp at hc
  | one hset =>
    obtain rfl := List.mem_singleton.1 hc
    exact hset
  | seq _ _ ihp ihq =>
    rw [mentions, Bool.or_eq_true]
    exact (List.mem_append.1 hc).imp ihp ihq
  | left _ ih =>
    rw [mentions, ih hc, Bool.true_or]
  | right _ ih =>
    rw [mentions, ih hc, Bool.or_true]
  | starNil => simp at hc
  | starCons _ _ ihp ihq => exact (List.mem_append.1 hc).elim ihp ihq

/-- The texts of a pattern that asks for no quote have none. -/
theorem Matches.isQuote_of_mem {p : Pattern} {t : Text} (h : Matches p t)
    (hp : p.mentions '\'' = false ∧ p.mentions '"' = false) : ∀ c ∈ t, isQuote c = false := by
  intro c hc
  have hmentions := h.mentions_of_mem hc
  simp only [isQuote, Bool.or_eq_false_iff, decide_eq_false_iff_not]
  constructor
  · rintro rfl
    simp [hp.1] at hmentions
  · rintro rfl
    simp [hp.2] at hmentions

end Pattern

/-! ## Literals at the end of a text -/

/-- Quotes stand at the end of a text only if there are quotes in the part that is not empty. -/
theorem eq_nil_of_getLast?_isQuote {front back : Text} {q : Char} (hq : isQuote q = true)
    (hlast : (front ++ back).getLast? = some q) (hfree : ∀ c ∈ back, isQuote c = false) :
    back = [] := by
  by_contra hne
  rw [List.getLast?_append_of_ne_nil _ hne] at hlast
  rw [hfree q (List.mem_of_getLast? hlast)] at hq
  exact Bool.noConfusion hq

namespace Atom

open Pattern (Matches matches_seq_iff matches_alt_iff)

/-- An atom that ends with a quote consists of quotations. -/
theorem exists_quotations {t : Text} (h : Matches grammar t) {q : Char}
    (hlast : t.getLast? = some q) (hq : isQuote q = true) :
    ∃ (first : Quotation) (rest : List SpacedQuotation),
      t = first.text ++ SpacedQuotation.texts rest := by
  obtain ⟨head, members, rfl, hhead, hmembers⟩ := matches_seq_iff.1 h
  obtain rfl := eq_nil_of_getLast?_isQuote hq hlast (hmembers.isQuote_of_mem (by decide))
  rw [List.append_nil] at hlast ⊢
  rcases matches_alt_iff.1 hhead with hliterals | hother
  · exact matches_literals_iff.1 hliterals
  · have hfree := hother.isQuote_of_mem (by decide)
    obtain rfl := eq_nil_of_getLast?_isQuote hq (List.nil_append head ▸ hlast) hfree
    simp at hlast

end Atom

namespace Quotation

theorem getLast?_text (l : Quotation) : l.text.getLast? = some l.quote := by
  have hdelimiter : l.delimiter.getLast? = some l.quote := by
    cases hlong : l.long <;> simp [delimiter, hlong]
  rw [text, quoted, List.getLast?_append, List.getLast?_append, List.getLast?_append, hdelimiter]
  rfl

theorem isQuote_of_mem_letters (l : Quotation) : ∀ c ∈ l.letters, isQuote c = false := by
  have hletters : literalLetters.all (fun c => !isQuote c) = true := by decide
  intro c hc
  simpa using List.all_eq_true.1 hletters c (l.mem_of_mem_letters c hc)

theorem isKeyword_text (l : Quotation) : Atom.isKeyword l.text = false := by
  have hfree : ∀ keyword ∈ Atom.keywords, keyword.toList.all (fun c => !isQuote c) = true := by
    decide
  rw [Atom.isKeyword, List.any_eq_false]
  intro keyword hmem heq
  have hquote : l.quote ∈ l.text := List.mem_of_getLast? l.getLast?_text
  rw [← of_decide_eq_true heq] at hquote
  have hnot := List.all_eq_true.1 (hfree keyword hmem) _ hquote
  rw [l.quote_isQuote] at hnot
  exact Bool.noConfusion hnot

theorem width_lt_append (l : Quotation) (front : Text) :
    Text.width front < Text.width (front ++ l.text) := by
  have hne : Text.width l.text ≠ 0 := by
    rw [Ne, Text.width_eq_zero_iff]
    intro hnil
    have hlast := l.getLast?_text
    simp [hnil] at hlast
  rw [Text.width_append]
  omega

/-- The same literal with one letter in front. -/
def withLetter (l : Quotation) (c : Char) (hc : c ∈ literalLetters) : Quotation :=
  { l with
    letters := [c]
    letters_length := by simp
    mem_of_mem_letters := by
      intro d hd
      rw [List.mem_singleton.1 hd]
      exact hc }

theorem text_withLetter {l : Quotation} (h : l.letters = []) {c : Char} (hc : c ∈ literalLetters) :
    (l.withLetter c hc).text = c :: l.text := by
  rw [text, text, h]
  rfl

/-- What stands before the first quote of a text. -/
theorem takeWhile_append_text (l : Quotation) {front : Text}
    (hfree : ∀ c ∈ front, isQuote c = false) (back : Text) :
    (front ++ l.text ++ back).takeWhile (fun c => !isQuote c) = front ++ l.letters := by
  obtain ⟨more, hmore⟩ := l.quoted_eq_cons
  have hall : ∀ c ∈ front ++ l.letters, (!isQuote c) = true := by
    intro c hc
    rcases List.mem_append.1 hc with hc | hc
    · simp [hfree c hc]
    · simp [l.isQuote_of_mem_letters c hc]
  have hsplit : front ++ l.text ++ back = (front ++ l.letters) ++ l.quote :: (more ++ back) := by
    simp [text, hmore]
  rw [hsplit, List.takeWhile_append_of_pos hall]
  simp [l.quote_isQuote]

end Quotation

/-- **A literal behind a text without quotes is an atom by itself**, if the text does not end with a
letter that it may begin with. -/
theorem atomEnd_quotation {front : Text} (hfree : ∀ c ∈ front, isQuote c = false)
    (hlast : ∀ c ∈ front.getLast?, c ∉ literalLetters) (l : Quotation) :
    atomEnd (front ++ l.text) = some l.text := by
  have hsuffix : l.text <:+ front ++ l.text := List.suffix_append _ _
  have hmatches : Atom.grammar.Matches l.text :=
    Atom.matches_grammar_iff.2 ⟨l.text, [], by simp [Name.dotted], by
      simpa using Atom.IsHead.quotations l []⟩
  cases hfound : Atom.grammar.longestEnd (front ++ l.text) with
  | none => exact absurd hmatches (Pattern.longestEnd_eq_none hfound hsuffix)
  | some found =>
    obtain ⟨hfoundSuffix, hfoundMatches, hlongest⟩ := Pattern.longestEnd_eq_some hfound
    obtain ⟨more, rfl⟩ :=
      List.suffix_of_suffix_length_le hsuffix hfoundSuffix (hlongest l.text hsuffix hmatches)
    have hmore : more <:+ front := by
      obtain ⟨before, hbefore⟩ := hfoundSuffix
      rw [← List.append_assoc, List.append_cancel_right_eq] at hbefore
      exact ⟨before, hbefore⟩
    -- The atom found begins with a quotation too, so all that it has before a quote are letters.
    have hend : (more ++ l.text).getLast? = some l.quote := by
      rw [List.getLast?_append, l.getLast?_text]
      rfl
    obtain ⟨first, rest, heq⟩ := Atom.exists_quotations hfoundMatches hend l.quote_isQuote
    have hletters : more ++ l.letters = first.letters := by
      have hleft := l.takeWhile_append_text (fun c hc => hfree c (hmore.subset hc)) []
      have hright :=
        first.takeWhile_append_text (List.forall_mem_nil _) (SpacedQuotation.texts rest)
      rw [List.append_nil, heq] at hleft
      simpa using hleft.symm.trans hright
    have hnil : more = [] := by
      rcases List.eq_nil_or_concat' more with hnil | ⟨less, c, rfl⟩
      · exact hnil
      · obtain ⟨before, rfl⟩ := hmore
        refine absurd (first.mem_of_mem_letters c ?_) (hlast c (by simp))
        simp [← hletters]
    simp [atomEnd, hfound, hnil, l.isKeyword_text]

/-! ## Keywords -/

namespace Atom

/-- Keywords are made of letters, and so are their parts. -/
theorem exists_name_of_isKeyword {part more : Text} (h : isKeyword (part ++ more) = true)
    (hne : part ≠ []) : ∃ name : Name, name.text = part := by
  have hstart : ∀ keyword ∈ keywords, keyword.toList.all CharClass.isNameStart = true := by decide
  obtain ⟨keyword, hmem, heq⟩ := isKeyword_iff.1 h
  have hall := List.all_eq_true.1 (hstart keyword hmem)
  rw [heq] at hall
  obtain ⟨first, rest, rfl⟩ := List.exists_cons_of_ne_nil hne
  refine ⟨⟨first, rest, hall first (by simp), ?_⟩, rfl⟩
  intro c hc
  exact isNamePart_of_isNameStart (hall c (by simp [hc]))

theorem ne_nil_of_isKeyword {word : Text} (h : isKeyword word = true) : word ≠ [] := by
  rintro rfl
  exact absurd h (by decide)

/-- A keyword that ends in a letter that a literal may begin with is no keyword without it, and does
not end in another one. -/
theorem exists_stem {k : Text} (h : isKeyword k = true) {c : Char} (hlast : k.getLast? = some c)
    (hc : c ∈ literalLetters) :
    ∃ stem, k = stem ++ [c] ∧ stem ≠ [] ∧ isKeyword stem = false ∧
      ∀ d ∈ stem.getLast?, d ∉ literalLetters := by
  have hstems : ∀ keyword ∈ keywords, keyword.toList.getLast?.any literalLetters.contains = true →
      keyword.toList.dropLast ≠ [] ∧ isKeyword keyword.toList.dropLast = false ∧
        keyword.toList.dropLast.getLast?.any literalLetters.contains = false := by
    decide
  obtain ⟨keyword, hmem, rfl⟩ := isKeyword_iff.1 h
  obtain ⟨stem, hstem⟩ := List.getLast?_eq_some_iff.1 hlast
  have hfacts := hstems keyword hmem (by simp [hlast, hc])
  rw [hstem, List.dropLast_concat] at hfacts
  obtain ⟨hne, hword, hletters⟩ := hfacts
  refine ⟨stem, hstem, hne, hword, ?_⟩
  intro d hd hmem
  rw [Option.mem_def.1 hd] at hletters
  simp [hmem] at hletters

end Atom

/-! ## Steps within a row -/

namespace Scan

variable {lines : List Text} {row : Nat} {front atom rest : Text}

/-- A walk goes on from where its first step leads to. -/
theorem walk_of_step {place next : Position} {n cap : Nat} {w : Walk}
    (h : step lines place = (next, n)) (hlt : next < place) (hw : walk lines cap next = .ok w) :
    walk lines (cap + 1) place =
      .ok ⟨w.start, w.iterations + 1, n + w.mismatches, w.converged⟩ := by
  rw [walk_of_step_lt (by rw [h]; exact hlt) (by rw [h]; exact hw), h]

/-- A step over an atom that is not a member. -/
theorem step_atom (hline : lines[row]? = some (front ++ atom ++ rest))
    (hatom : atomEnd (front ++ atom) = some atom) (hmember : isMemberAccess atom = false)
    (hcloser : ∀ c ∈ (front ++ atom).getLast?, isCloser c = false) :
    step lines ⟨row, Text.width (front ++ atom)⟩ = (⟨row, Text.width front⟩, 0) := by
  cases hlast : (front ++ atom).getLast? with
  | none =>
    have hnil : atom = [] ∧ front = [] := by simpa using hlast
    simp only [step, hline, Text.cut_append_width, hlast]
    simp [hnil]
  | some c =>
    simp only [step, hline, Text.cut_append_width, hlast, hcloser c hlast, hatom, hmember,
      Bool.false_eq_true, if_false]
    simp

/-- A step that stays. -/
theorem step_none (hline : lines[row]? = some (front ++ rest)) (hatom : atomEnd front = none)
    (hcloser : ∀ c ∈ front.getLast?, isCloser c = false) :
    step lines ⟨row, Text.width front⟩ = (⟨row, Text.width front⟩, 0) := by
  cases hlast : front.getLast? with
  | none => simp [step, hline, Text.cut_append_width, hlast]
  | some c => simp [step, hline, Text.cut_append_width, hlast, hcloser c hlast, hatom]

/-- A step over a literal behind a text without quotes. -/
theorem step_quotation (l : Quotation) (hline : lines[row]? = some (front ++ l.text ++ rest))
    (hfree : ∀ c ∈ front, isQuote c = false) (hlast : ∀ c ∈ front.getLast?, c ∉ literalLetters) :
    step lines ⟨row, Text.width (front ++ l.text)⟩ = (⟨row, Text.width front⟩, 0) := by
  refine step_atom hline (atomEnd_quotation hfree hlast l) ?_ ?_
  · apply isMemberAccess_of_head?_ne
    intro hhead
    obtain ⟨more, hmore⟩ := l.quoted_eq_cons
    cases hletters : l.letters with
    | nil =>
      rw [Quotation.text, hletters, hmore] at hhead
      have hquote := l.quote_isQuote
      rw [Option.some.inj hhead] at hquote
      exact absurd hquote (by decide)
    | cons c more =>
      rw [Quotation.text, hletters] at hhead
      have hletter := l.mem_of_mem_letters c (by simp [hletters])
      rw [Option.some.inj hhead] at hletter
      exact absurd hletter (by decide)
  · rw [List.getLast?_append, l.getLast?_text]
    rintro c ⟨rfl⟩
    have hquote := l.quote_isQuote
    simp only [isQuote, Bool.or_eq_true, decide_eq_true_eq] at hquote
    rcases hquote with hq | hq <;> rw [hq] <;> decide

/-- A step over a name that is no keyword. -/
theorem step_name (name : Name) (hline : lines[row]? = some (front ++ name.text ++ rest))
    (hfront : ∀ c ∈ front.getLast?, Atom.isSturdy c = false)
    (hword : Atom.isKeyword name.text = false) :
    step lines ⟨row, Text.width (front ++ name.text)⟩ = (⟨row, Text.width front⟩, 0) := by
  have hatom := atomEnd_name hfront name [] (by simpa [Name.dotted] using hword)
  simp only [Name.dotted, List.flatMap_nil, List.append_nil] at hatom
  refine step_atom hline hatom (List.append_nil name.text ▸ name.isMemberAccess_text []) ?_
  rw [List.getLast?_append_of_ne_nil _ (by simp [Name.text])]
  intro c hc
  have hpart := name.isNamePart_of_mem_text c (List.mem_of_getLast? hc)
  exact isCloser_of_isPlain (Name.isPlain_of_isNamePart (.inl hpart))

end Scan

/-! ## Scans -/

/-- A row up to a literal behind a keyword: what precedes the keyword, the keyword, blanks, and the
literal. -/
structure BehindKeyword (u k w : Text) (l : Quotation) : Prop where
  quoteless : ∀ c ∈ u, isQuote c = false
  boundary : ∀ c ∈ u.getLast?, CharClass.isNamePart c = false ∧ c ≠ '.'
  keyword : Atom.isKeyword k = true
  blanks : ∀ c ∈ w, CharClass.isBlank c = true
  letters : l.letters = []

/-- Whether a keyword touches a literal behind it and ends in a letter that the literal may begin
with. -/
def RunsInto (k w : Text) : Prop :=
  w = [] ∧ ∃ c ∈ k.getLast?, c ∈ literalLetters

instance (k w : Text) : Decidable (RunsInto k w) :=
  decidable_of_iff (w = [] ∧ k.getLast?.any literalLetters.contains = true) (by
    simp [RunsInto, Option.any_eq_true])

namespace BehindKeyword

variable {u k w : Text} {l : Quotation}

theorem not_sturdy (h : BehindKeyword u k w l) : ∀ c ∈ u.getLast?, Atom.isSturdy c = false := by
  intro c hc
  have hquote := h.quoteless c (List.mem_of_getLast? hc)
  simp [Atom.isSturdy, h.boundary c hc, hquote]

theorem exists_name (h : BehindKeyword u k w l) : ∃ name : Name, name.text = k :=
  Atom.exists_name_of_isKeyword (List.append_nil k ▸ h.keyword) (Atom.ne_nil_of_isKeyword h.keyword)

/-- What stands before the literal has no quotes. -/
theorem isQuote_of_mem (h : BehindKeyword u k w l) : ∀ c ∈ u ++ k ++ w, isQuote c = false := by
  obtain ⟨name, rfl⟩ := h.exists_name
  intro c hc
  rw [List.mem_append, List.mem_append] at hc
  rcases hc with (hc | hc) | hc
  · exact h.quoteless c hc
  · exact Name.isQuote_of_isNamePart (.inl (name.isNamePart_of_mem_text c hc))
  · exact isQuote_of_isPlain (isPlain_of (by decide) (h.blanks c hc))

/-- A keyword is no atom. -/
theorem atomEnd_keyword (h : BehindKeyword u k w l) : atomEnd (u ++ k) = none := by
  obtain ⟨name, rfl⟩ := h.exists_name
  have hmatches : Atom.grammar.Matches (name.text ++ []) :=
    .seq (.right (.right (.left name.matches_text))) .starNil
  rw [List.append_nil] at hmatches
  have hlongest : Atom.grammar.longestEnd (u ++ name.text) = some name.text := by
    refine Atom.longestEnd_append hmatches ?_ ?_ h.not_sturdy
    · rintro c ⟨rfl⟩
      exact name.isDigit_first
    · intro c hc
      exact Name.isQuote_of_isNamePart (.inl (name.isNamePart_of_mem_text c hc))
  simp [atomEnd, hlongest, h.keyword]

variable {lines : List Text} {row : Nat} {rest : Text}

/-- Behind a keyword and blanks a step stays. -/
theorem step_keyword (h : BehindKeyword u k w l)
    (hline : lines[row]? = some (u ++ k ++ w ++ rest)) :
    Scan.step lines ⟨row, Text.width (u ++ k ++ w)⟩ = (⟨row, Text.width (u ++ k ++ w)⟩, 0) := by
  have hplain : ∀ c ∈ k ++ w, isPlain c = true := by
    obtain ⟨name, rfl⟩ := h.exists_name
    intro c hc
    rcases List.mem_append.1 hc with hc | hc
    · exact Name.isPlain_of_isNamePart (.inl (name.isNamePart_of_mem_text c hc))
    · exact isPlain_of (by decide) (h.blanks c hc)
  refine Scan.step_none hline ?_ ?_
  · rcases List.eq_nil_or_concat' w with rfl | ⟨blanks, c, rfl⟩
    · rw [List.append_nil]
      exact h.atomEnd_keyword
    · apply atomEnd_eq_none
      intro d hd
      obtain rfl : c = d := by simpa using hd
      exact Atom.isSturdy_of_isBlank (h.blanks c (by simp))
  · intro c hc
    rw [List.append_assoc, List.getLast?_append_of_ne_nil] at hc
    · exact isCloser_of_isPlain (hplain c (List.mem_of_getLast? hc))
    · simp [Atom.ne_nil_of_isKeyword h.keyword]

/-- A literal is stepped over without the keyword, unless that runs into it. -/
theorem step_literal (h : BehindKeyword u k w l)
    (hline : lines[row]? = some (u ++ k ++ w ++ l.text ++ rest)) (hnot : ¬ RunsInto k w) :
    Scan.step lines ⟨row, Text.width (u ++ k ++ w ++ l.text)⟩ =
      (⟨row, Text.width (u ++ k ++ w)⟩, 0) := by
  refine Scan.step_quotation l hline h.isQuote_of_mem ?_
  intro c hc hletter
  rcases List.eq_nil_or_concat' w with rfl | ⟨blanks, d, rfl⟩
  · rw [List.append_nil,
      List.getLast?_append_of_ne_nil _ (Atom.ne_nil_of_isKeyword h.keyword)] at hc
    exact hnot ⟨rfl, c, hc, hletter⟩
  · obtain rfl : d = c := by simpa using hc
    have hletters : literalLetters.all (fun c => !CharClass.isBlank c) = true := by decide
    have hnot := List.all_eq_true.1 hletters d hletter
    rw [h.blanks d (by simp)] at hnot
    exact Bool.noConfusion hnot

/-- A keyword that runs into a literal is taken apart: its last letter goes with the literal, and
what is left of it is a name. -/
theorem steps_runsInto (h : BehindKeyword u k w l)
    (hline : lines[row]? = some (u ++ k ++ w ++ l.text ++ rest)) (hruns : RunsInto k w) :
    ∃ stem, Scan.step lines ⟨row, Text.width (u ++ k ++ w ++ l.text)⟩ =
        (⟨row, Text.width (u ++ stem)⟩, 0) ∧
      Scan.step lines ⟨row, Text.width (u ++ stem)⟩ = (⟨row, Text.width u⟩, 0) ∧
      Text.width u < Text.width (u ++ stem) ∧
      Text.width (u ++ stem) < Text.width (u ++ k ++ w ++ l.text) := by
  obtain ⟨rfl, c, hc, hletter⟩ := hruns
  obtain ⟨stem, rfl, hne, hword, hlast⟩ := Atom.exists_stem h.keyword hc hletter
  obtain ⟨name, rfl⟩ := Atom.exists_name_of_isKeyword h.keyword hne
  have hrow : u ++ (name.text ++ [c]) ++ [] ++ l.text =
      u ++ name.text ++ (l.withLetter c hletter).text := by
    simp [Quotation.text_withLetter h.letters]
  refine ⟨name.text, ?_, ?_, ?_, ?_⟩
  · rw [hrow] at hline ⊢
    refine Scan.step_quotation _ hline ?_ ?_
    · intro d hd
      exact h.isQuote_of_mem d (by simp at hd ⊢; tauto)
    · rwa [List.getLast?_append_of_ne_nil _ hne]
  · rw [hrow, List.append_assoc] at hline
    exact Scan.step_name name hline h.not_sturdy hword
  · have hpos : Text.width name.text ≠ 0 := mt (Text.width_eq_zero_iff _).1 hne
    rw [Text.width_append]
    omega
  · rw [hrow]
    exact Quotation.width_lt_append _ _

end BehindKeyword

/-- **A keyword is no part of a literal's target, unless it runs into the literal.** Let a row have
a keyword that is not the end of a longer word, then blanks, then a literal without letters in
front, and let no quotes precede. The scan for a trigger right behind the literal starts at its
first quote. But if the keyword touches the literal and ends in a letter that it may begin with, the
scan takes the keyword and goes on as a scan for a trigger right before the keyword. -/
theorem scan_literal_behind_keyword {lines : List Text} {row : Nat} {u k w rest : Text}
    {l : Quotation} (h : BehindKeyword u k w l)
    (hline : lines[row]? = some (u ++ k ++ w ++ l.text ++ rest)) :
    (¬ RunsInto k w → ∀ cap, 2 ≤ cap →
      scan lines ⟨row, Text.width (u ++ k ++ w ++ l.text) + 1⟩ cap = .ok
        { span := ⟨⟨row, Text.width (u ++ k ++ w)⟩, ⟨row, Text.width (u ++ k ++ w ++ l.text)⟩⟩
          iterations := 2
          mismatches := 0
          converged := true }) ∧
    (RunsInto k w → ∀ cap, ∃ before, scan lines ⟨row, Text.width u + 1⟩ cap = .ok before ∧
      before.span.start ≤ ⟨row, Text.width u⟩ ∧
      scan lines ⟨row, Text.width (u ++ k ++ w ++ l.text) + 1⟩ (cap + 2) = .ok
        { span := ⟨before.span.start, ⟨row, Text.width (u ++ k ++ w ++ l.text)⟩⟩
          iterations := before.iterations + 2
          mismatches := before.mismatches
          converged := before.converged }) := by
  have hclamp {front back : Text} (hrow : lines[row]? = some (front ++ back)) :
      Scan.clamp lines ((⟨row, Text.width front + 1⟩ : Position).shiftedLeft 1) =
        ⟨row, Text.width front⟩ :=
    Scan.clamp_of_isPlace ⟨_, front, hrow, List.prefix_append _ _, rfl⟩
  have hstop := hclamp hline
  constructor
  · intro hnot cap hcap
    have hkeyword := h.step_keyword (List.append_assoc _ l.text rest ▸ hline)
    have hwalk := WalksTo.move (h.step_literal hline hnot) (.inr ⟨rfl, l.width_lt_append _⟩)
      (.stay hkeyword) cap hcap
    rw [← hstop] at hwalk
    rw [Scan.scan_of_walk hwalk, hstop]
  · intro hruns cap
    obtain ⟨stem, hfirst, hsecond, hlt, hlt'⟩ := h.steps_runsInto hline hruns
    have hbefore : Scan.clamp lines ((⟨row, Text.width u + 1⟩ : Position).shiftedLeft 1) = _ :=
      hclamp (by simpa only [List.append_assoc] using hline)
    obtain ⟨walk, hwalk, hle, -⟩ := Scan.walk_eq_ok lines cap ⟨row, Text.width u⟩
    have hstem := Scan.walk_of_step hsecond (.inr ⟨rfl, hlt⟩) hwalk
    have hwhole := Scan.walk_of_step hfirst (.inr ⟨rfl, hlt'⟩) hstem
    rw [← hbefore] at hwalk
    rw [← hstop] at hwhole
    refine ⟨_, Scan.scan_of_walk hwalk, hle, ?_⟩
    rw [Scan.scan_of_walk hwhole, hstop]
    simp

/-! ## A literal behind a keyword, with a blank between them and without -/

/-- The literal `'a'`. -/
def letterLiteral : Quotation where
  letters := []
  quote := '\''
  long := false
  body := [.char 'a']
  letters_length := by simp
  mem_of_mem_letters := by simp
  quote_isQuote := Atom.isQuote_single
  short_body _ := ⟨⟨by decide, by decide⟩, by decide, by decide⟩
  long_body := by simp

theorem behindKeyword_or {w : Text} (hw : w.all CharClass.isBlank = true) :
    BehindKeyword "x ".toList "or".toList w letterLiteral where
  quoteless := by simp [isQuote]
  boundary := by
    rintro c ⟨rfl⟩
    decide
  keyword := by decide
  blanks := List.all_eq_true.1 hw
  letters := rfl

theorem scan_letterLiteral :
    scan ["x or 'a'.".toList] ⟨0, 9⟩ 2 = .ok ⟨⟨⟨0, 5⟩, ⟨0, 8⟩⟩, 2, 0, true⟩ ∧
      ∃ before, scan ["x or'a'.".toList] ⟨0, 3⟩ 1 = .ok before ∧ before.span.start ≤ ⟨0, 2⟩ ∧
        scan ["x or'a'.".toList] ⟨0, 8⟩ 3 = .ok ⟨⟨before.span.start, ⟨0, 7⟩⟩,
          before.iterations + 2, before.mismatches, before.converged⟩ := by
  have hspaced : (["x or 'a'.".toList] : List Text)[0]? =
      some ("x ".toList ++ "or".toList ++ [' '] ++ letterLiteral.text ++ ['.']) := by decide
  have htouching : (["x or'a'.".toList] : List Text)[0]? =
      some ("x ".toList ++ "or".toList ++ [] ++ letterLiteral.text ++ ['.']) := by decide
  exact ⟨(scan_literal_behind_keyword (behindKeyword_or (by decide)) hspaced).1 (by decide) 2
      (by decide),
    (scan_literal_behind_keyword (behindKeyword_or (by decide)) htouching).2 (by decide) 1⟩

/-- The scan takes the keyword, though the literal alone is what the trigger stands behind. -/
theorem scan_takes_keyword :
    BehindKeyword "x ".toList "or".toList [] letterLiteral ∧
      "x or'a'.".toList = "x ".toList ++ "or".toList ++ [] ++ letterLiteral.text ++ ['.'] ∧
      Text.width ("x ".toList ++ "or".toList ++ []) = 4 ∧
      scan ["x or'a'.".toList] ⟨0, 8⟩ 9 = .ok ⟨⟨⟨0, 2⟩, ⟨0, 7⟩⟩, 3, 0, true⟩ :=
  ⟨behindKeyword_or (by decide), by decide, by decide, by decide⟩

end DotTarget
