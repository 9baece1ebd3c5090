import DotTarget.Proofs.Lexical.AtomEnd
import DotTarget.Proofs.Lexical.Lexeme

set_option autoImplicit false

/-! # The grammar of atoms, spelled out

`Atom.grammar` is a regular pattern. Here the texts that it stands for are said in plain words:
what a string literal, a number and a name look like, and that an atom is one of them, or a member,
with members behind it (`Atom.IsAtom`). The pattern stands for exactly these texts
(`Atom.matches_grammar_iff`).

The literals here are those of atoms, called quotations: they may have letters in front, and a body
between triple quotes may begin with quotes. `Literal` has neither. -/

namespace DotTarget

/-! ## Quotations -/

/-- What the inside of any quotation looks like: backslashes stand only before what they escape, and
never before a newline. -/
structure IsBody (body : List Item) : Prop where
  bare_ne_backslash : .char '\\' ∉ body
  escape_ne_newline : .escape '\n' ∉ body

/-- The inside of a quotation between single quotes stays on its row and has no bare quote. -/
structure IsShortBody (quote : Char) (body : List Item) : Prop extends IsBody body where
  bare_ne_quote : .char quote ∉ body
  bare_ne_newline : .char '\n' ∉ body

/-- The inside of a quotation between triple quotes has no three bare quotes in a row and does not
end with one. It may begin with one or two. -/
structure IsLongBody (quote : Char) (body : List Item) : Prop extends IsBody body where
  last_ne_quote : body.getLast? ≠ some (.char quote)
  no_three : ¬ [.char quote, .char quote, .char quote] <:+: body

namespace IsLongBody

variable {q : Char} {body : List Item}

theorem nil : IsLongBody q [] where
  bare_ne_backslash := by simp
  escape_ne_newline := by simp
  last_ne_quote := by simp
  no_three := by simp

/-- A body that is not empty begins with at most two quotes and something else. -/
theorem exists_cons (h : IsLongBody q body) (hne : body ≠ []) :
    ∃ n ≤ 2, ∃ item rest, body = List.replicate n (.char q) ++ item :: rest ∧ item ≠ .char q := by
  by_contra! hnone
  -- Then it begins with three quotes, or with quotes alone.
  obtain ⟨first, body, rfl⟩ := List.exists_cons_of_ne_nil hne
  obtain rfl : first = .char q := hnone 0 (by omega) first body rfl
  cases body with
  | nil => exact h.last_ne_quote rfl
  | cons second body =>
    obtain rfl : second = .char q := hnone 1 (by omega) second body rfl
    cases body with
    | nil => exact h.last_ne_quote rfl
    | cons third body =>
      obtain rfl : third = .char q := hnone 2 (by omega) third body rfl
      exact h.no_three (List.prefix_append _ body).isInfix

theorem of_append {front : List Item} (h : IsLongBody q (front ++ body)) :
    IsLongBody q body where
  bare_ne_backslash hmem := h.bare_ne_backslash (List.mem_append_right _ hmem)
  escape_ne_newline hmem := h.escape_ne_newline (List.mem_append_right _ hmem)
  last_ne_quote hlast := h.last_ne_quote (by rw [List.getLast?_append, hlast]; rfl)
  no_three hthree := h.no_three (hthree.trans (List.suffix_append _ _).isInfix)

/-- In front of a body, at most two quotes and something else make a body again. -/
theorem cons {n : Nat} (hn : n ≤ 2) {item : Item}
    (hnewline : item ≠ .escape '\n') (hbackslash : item ≠ .char '\\') (hquote : item ≠ .char q)
    (hq : isQuote q = true) (h : IsLongBody q body) :
    IsLongBody q (List.replicate n (.char q) ++ item :: body) := by
  have hne := Comment.ne_backslash_of_isQuote hq
  refine ⟨⟨?_, ?_⟩, ?_, ?_⟩
  · simp [hne.symm, hbackslash.symm, h.bare_ne_backslash]
  · simp [hnewline.symm, h.escape_ne_newline]
  · cases body with
    | nil => simp [hquote]
    | cons first rest => simpa [List.getLast?_append, List.getLast?_cons_cons] using h.last_ne_quote
  · have hthree := h.no_three
    obtain rfl | rfl | rfl : n = 0 ∨ n = 1 ∨ n = 2 := by omega
    all_goals simp [List.replicate, List.infix_cons_iff, hquote.symm, hthree]

end IsLongBody

/-- The letters that a literal may begin with. -/
def literalLetters : Text :=
  "rRbBuUfF".toList

/-- A string literal of an atom: at most two letters, then a body between quotes; a `long` one is
delimited by triple quotes. -/
structure Quotation where
  letters : Text
  quote : Char
  long : Bool
  body : List Item
  letters_length : letters.length ≤ 2
  mem_of_mem_letters : ∀ c ∈ letters, c ∈ literalLetters
  quote_isQuote : isQuote quote = true
  short_body : long = false → IsShortBody quote body
  long_body : long = true → IsLongBody quote body

namespace Quotation

/-- The quotes at either end. -/
def delimiter (l : Quotation) : Text :=
  if l.long then [l.quote, l.quote, l.quote] else [l.quote]

/-- The quotes and what is between them. -/
def quoted (l : Quotation) : Text :=
  l.delimiter ++ (Item.texts l.body ++ l.delimiter)

def text (l : Quotation) : Text :=
  l.letters ++ l.quoted

theorem quoted_eq_cons (l : Quotation) : ∃ more, l.quoted = l.quote :: more := by
  cases hlong : l.long <;> simp [quoted, delimiter, hlong]

end Quotation

/-- A quotation with the blanks before it. -/
structure SpacedQuotation where
  blanks : Text
  quotation : Quotation
  blanks_isBlank : ∀ c ∈ blanks, CharClass.isBlank c = true

namespace SpacedQuotation

def text (s : SpacedQuotation) : Text :=
  s.blanks ++ s.quotation.text

/-- The characters of several quotations. -/
def texts (run : List SpacedQuotation) : Text :=
  run.flatMap text

@[simp] theorem texts_nil : texts [] = [] := rfl

@[simp] theorem texts_cons (s : SpacedQuotation) (run : List SpacedQuotation) :
    texts (s :: run) = s.text ++ texts run := by
  simp [texts]

@[simp] theorem texts_append (front back : List SpacedQuotation) :
    texts (front ++ back) = texts front ++ texts back := by
  simp [texts]

end SpacedQuotation

namespace Atom

open Pattern
open Item (texts)

/-! ### Bodies -/

section Bodies

variable {t : Text} {q : Char}

theorem matches_item_iff {members : String} :
    Matches (alt (noneOf members) escapePair) t ↔
      ∃ item : Item, t = item.text ∧ item ≠ .escape '\n' ∧
        ∀ c ∈ members.toList, item ≠ .char c := by
  rw [matches_alt_iff, noneOf, matches_one_iff, escapePair, matches_seq_iff]
  constructor
  · rintro (⟨c, rfl, hc⟩ | ⟨a, b, rfl, ha, hb⟩)
    · refine ⟨.char c, rfl, by simp, ?_⟩
      rintro d hd heq
      obtain rfl := Item.char.inj heq
      simp [CharSet.holds, hd] at hc
    · obtain ⟨c, rfl, hc⟩ := matches_oneOf_iff.1 ha
      obtain ⟨d, rfl, hd⟩ := matches_one_iff.1 hb
      obtain rfl : c = '\\' := by simpa using hc
      refine ⟨.escape d, rfl, ?_, by simp⟩
      simpa [CharSet.holds] using hd
  · rintro ⟨item, rfl, hnewline, hchar⟩
    cases item with
    | char c =>
      refine .inl ⟨c, rfl, ?_⟩
      simpa [CharSet.holds] using fun hc => hchar c hc rfl
    | escape c =>
      refine .inr ⟨['\\'], [c], rfl, matches_oneOf_iff.2 ⟨_, rfl, by simp⟩,
        matches_one_iff.2 ⟨c, rfl, ?_⟩⟩
      simpa [CharSet.holds] using hnewline

theorem matches_shortBody_iff {members : String} (hmembers : members.toList = [q, '\\', '\n']) :
    Matches (star (alt (noneOf members) escapePair)) t ↔
      ∃ body, t = texts body ∧ IsShortBody q body := by
  rw [matches_star_iff]
  constructor
  · rintro ⟨parts, rfl, hparts⟩
    induction parts with
    | nil => exact ⟨[], rfl, ⟨by simp, by simp⟩, by simp, by simp⟩
    | cons s parts ih =>
      simp only [List.mem_cons, forall_eq_or_imp] at hparts
      obtain ⟨item, rfl, hnewline, hchar⟩ := matches_item_iff.1 hparts.1
      obtain ⟨body, hbody, h⟩ := ih hparts.2
      simp only [hmembers, List.mem_cons, List.not_mem_nil, or_false, forall_eq_or_imp,
        forall_eq] at hchar
      refine ⟨item :: body, by simp [hbody], ⟨?_, ?_⟩, ?_, ?_⟩
      · simpa [hchar.2.1.symm] using h.bare_ne_backslash
      · simpa [hnewline.symm] using h.escape_ne_newline
      · simpa [hchar.1.symm] using h.bare_ne_quote
      · simpa [hchar.2.2.symm] using h.bare_ne_newline
  · rintro ⟨body, rfl, h⟩
    refine ⟨body.map Item.text, by simp [texts, List.flatMap_def], ?_⟩
    intro s hs
    obtain ⟨item, hitem, rfl⟩ := List.mem_map.1 hs
    refine matches_item_iff.2 ⟨item, rfl, ?_, ?_⟩
    · rintro rfl
      exact h.escape_ne_newline hitem
    · intro c hc heq
      rw [heq] at hitem
      simp only [hmembers, List.mem_cons, List.not_mem_nil, or_false] at hc
      rcases hc with rfl | rfl | rfl
      · exact h.bare_ne_quote hitem
      · exact h.bare_ne_backslash hitem
      · exact h.bare_ne_newline hitem

/-- A part of a body between triple quotes: something behind at most two quotes. -/
theorem matches_longPart_iff {members quote : String} (hmembers : members.toList = [q, '\\'])
    (hquote : quote.toList = [q]) :
    Matches (alt (alt (noneOf members) escapePair)
        (chain [oneOf quote, opt (oneOf quote), alt (noneOf members) escapePair])) t ↔
      ∃ n ≤ 2, ∃ item : Item, t = texts (List.replicate n (.char q) ++ [item]) ∧
        item ≠ .escape '\n' ∧ item ≠ .char '\\' ∧ item ≠ .char q := by
  have hone {s : Text} : Matches (oneOf quote) s ↔ s = [q] := by
    simp [matches_oneOf_iff, hquote]
  have hitem {s : Text} : Matches (alt (noneOf members) escapePair) s ↔
      ∃ item : Item, s = item.text ∧ item ≠ .escape '\n' ∧ item ≠ .char '\\' ∧
        item ≠ .char q := by
    simp [matches_item_iff, hmembers, and_comm (a := _ ≠ Item.char q)]
  rw [matches_alt_iff, hitem]
  constructor
  · rintro (⟨item, rfl, h⟩ | h)
    · exact ⟨0, by omega, item, by simp, h⟩
    · obtain ⟨a, b, rfl, ha, hb⟩ := matches_seq_iff.1 h
      obtain ⟨c, d, rfl, hc, hd⟩ := matches_seq_iff.1 hb
      obtain rfl := hone.1 ha
      obtain ⟨item, rfl, hmore⟩ := hitem.1 hd
      rcases matches_opt_iff.1 hc with rfl | hc
      · exact ⟨1, by omega, item, by simp [Item.text], hmore⟩
      · obtain rfl := hone.1 hc
        exact ⟨2, by omega, item, by simp [Item.text, List.replicate], hmore⟩
  · rintro ⟨n, hn, item, rfl, h⟩
    have hq : Matches (oneOf quote) [q] := hone.2 rfl
    have hlast : Matches (alt (noneOf members) escapePair) item.text := hitem.2 ⟨item, rfl, h⟩
    obtain rfl | rfl | rfl : n = 0 ∨ n = 1 ∨ n = 2 := by omega
    · exact .inl ⟨item, by simp, h⟩
    · have hnone : Matches (opt (oneOf quote)) [] := matches_opt_iff.2 (.inl rfl)
      have hpart := hq.seq (hnone.seq hlast)
      exact .inr (by simpa [chain, List.replicate, Item.text] using hpart)
    · have hpart := hq.seq ((matches_opt_iff.2 (.inr hq)).seq hlast)
      exact .inr (by simpa [chain, List.replicate, Item.text] using hpart)

theorem matches_longBody_iff {members quote : String} (hmembers : members.toList = [q, '\\'])
    (hquote : quote.toList = [q]) (hq : isQuote q = true) :
    Matches (star (alt (alt (noneOf members) escapePair)
        (chain [oneOf quote, opt (oneOf quote), alt (noneOf members) escapePair]))) t ↔
      ∃ body, t = texts body ∧ IsLongBody q body := by
  rw [matches_star_iff]
  constructor
  · rintro ⟨parts, rfl, hparts⟩
    induction parts with
    | nil => exact ⟨[], rfl, IsLongBody.nil⟩
    | cons s parts ih =>
      simp only [List.mem_cons, forall_eq_or_imp] at hparts
      obtain ⟨body, hbody, h⟩ := ih hparts.2
      obtain ⟨n, hn, item, rfl, hnewline, hbackslash, hne⟩ :=
        (matches_longPart_iff hmembers hquote).1 hparts.1
      exact ⟨List.replicate n (.char q) ++ item :: body, by simp [hbody],
        h.cons hn hnewline hbackslash hne hq⟩
  · rintro ⟨body, rfl, h⟩
    induction hlength : body.length using Nat.strong_induction_on generalizing body with
    | _ length ih =>
      by_cases hne : body = []
      · exact ⟨[], by simp [hne], by simp⟩
      obtain ⟨n, hn, item, rest, rfl, hquote'⟩ := h.exists_cons hne
      rw [← List.singleton_append (x := item), ← List.append_assoc] at h hlength ⊢
      obtain ⟨parts, hparts, hall⟩ := ih rest.length
        (by rw [← hlength]; simp; omega) rest h.of_append rfl
      refine ⟨_ :: parts, by rw [Item.texts_append, List.flatten_cons, hparts], ?_⟩
      simp only [List.mem_cons, forall_eq_or_imp]
      refine ⟨(matches_longPart_iff hmembers hquote).2 ⟨n, hn, item, rfl, ?_, ?_, hquote'⟩, hall⟩
      · rintro rfl
        exact h.escape_ne_newline (by simp)
      · rintro rfl
        exact h.bare_ne_backslash (by simp)

end Bodies

/-! ### Quotations -/

section Quotations

variable {t : Text} {q : Char}

theorem matches_shortLiteral_iff (quote : String) (hquote : quote.toList = [q]) :
    Matches (shortLiteral quote) t ↔
      ∃ body, t = [q] ++ (texts body ++ [q]) ∧ IsShortBody q body := by
  have hone {s : Text} : Matches (oneOf quote) s ↔ s = [q] := by
    simp [matches_oneOf_iff, hquote]
  have hmembers : (quote ++ "\\\n").toList = [q, '\\', '\n'] := by
    simp [hquote]
  constructor
  · intro h
    obtain ⟨a, b, rfl, ha, hb⟩ := matches_seq_iff.1 h
    obtain ⟨c, d, rfl, hc, hd⟩ := matches_seq_iff.1 hb
    obtain ⟨body, rfl, hbody⟩ := (matches_shortBody_iff hmembers).1 hc
    obtain rfl := hone.1 ha
    obtain rfl := hone.1 hd
    exact ⟨body, rfl, hbody⟩
  · rintro ⟨body, rfl, hbody⟩
    have hq : Matches (oneOf quote) [q] := hone.2 rfl
    exact hq.seq (((matches_shortBody_iff hmembers).2 ⟨body, rfl, hbody⟩).seq hq)

theorem matches_longLiteral_iff (quote : String) (hquote : quote.toList = [q])
    (hq : isQuote q = true) :
    Matches (longLiteral quote) t ↔
      ∃ body, t = [q, q, q] ++ (texts body ++ [q, q, q]) ∧ IsLongBody q body := by
  have hthree {s : Text} :
      Matches (chain [oneOf quote, oneOf quote, oneOf quote]) s ↔ s = [q, q, q] := by
    simp [chain, matches_seq_iff, matches_oneOf_iff, hquote]
  have hmembers : (quote ++ "\\").toList = [q, '\\'] := by
    simp [hquote]
  constructor
  · intro h
    obtain ⟨a, b, rfl, ha, hb⟩ := matches_seq_iff.1 h
    obtain ⟨c, d, rfl, hc, hd⟩ := matches_seq_iff.1 hb
    obtain ⟨body, rfl, hbody⟩ := (matches_longBody_iff hmembers hquote hq).1 hc
    obtain rfl := hthree.1 ha
    obtain rfl := hthree.1 hd
    exact ⟨body, rfl, hbody⟩
  · rintro ⟨body, rfl, hbody⟩
    have hdelimiter := hthree.2 rfl
    exact hdelimiter.seq
      (((matches_longBody_iff hmembers hquote hq).2 ⟨body, rfl, hbody⟩).seq hdelimiter)

theorem matches_letters_iff {members : String} :
    Matches (opt (.seq (oneOf members) (opt (oneOf members)))) t ↔
      t.length ≤ 2 ∧ ∀ c ∈ t, c ∈ members.toList := by
  rw [matches_opt_iff, matches_seq_iff]
  constructor
  · rintro (rfl | ⟨a, b, rfl, ha, hb⟩)
    · simp
    · obtain ⟨c, rfl, hc⟩ := matches_oneOf_iff.1 ha
      rcases matches_opt_iff.1 hb with rfl | hb
      · simpa using hc
      · obtain ⟨d, rfl, hd⟩ := matches_oneOf_iff.1 hb
        simpa using ⟨hc, hd⟩
  · rintro ⟨hlength, hmem⟩
    match t, hlength, hmem with
    | [], _, _ => exact .inl rfl
    | [c], _, hmem =>
      exact .inr ⟨[c], [], rfl, matches_oneOf_iff.2 ⟨c, rfl, hmem c (by simp)⟩,
        matches_opt_iff.2 (.inl rfl)⟩
    | [c, d], _, hmem =>
      exact .inr ⟨[c], [d], rfl, matches_oneOf_iff.2 ⟨c, rfl, hmem c (by simp)⟩,
        matches_opt_iff.2 (.inr (matches_oneOf_iff.2 ⟨d, rfl, hmem d (by simp)⟩))⟩

theorem isQuote_single : isQuote '\'' = true := rfl

theorem isQuote_double : isQuote '"' = true := rfl

/-- The pattern of literals stands for the quotations. -/
theorem matches_literal_iff : Matches literal t ↔ ∃ l : Quotation, t = l.text := by
  simp only [literal, choice, matches_seq_iff, matches_alt_iff, matches_letters_iff,
    matches_shortLiteral_iff "'" (q := '\'') rfl,
    matches_shortLiteral_iff "\"" (q := '"') rfl,
    matches_longLiteral_iff "'" (q := '\'') rfl isQuote_single,
    matches_longLiteral_iff "\"" (q := '"') rfl isQuote_double]
  constructor
  · rintro ⟨letters, _, rfl, ⟨hlength, hmem⟩,
      ⟨body, rfl, h⟩ | ⟨body, rfl, h⟩ | ⟨body, rfl, h⟩ | ⟨body, rfl, h⟩⟩
    · exact ⟨⟨letters, '\'', true, body, hlength, hmem, isQuote_single, by simp, fun _ => h⟩, rfl⟩
    · exact ⟨⟨letters, '"', true, body, hlength, hmem, isQuote_double, by simp, fun _ => h⟩, rfl⟩
    · exact ⟨⟨letters, '\'', false, body, hlength, hmem, isQuote_single, fun _ => h, by simp⟩, rfl⟩
    · exact ⟨⟨letters, '"', false, body, hlength, hmem, isQuote_double, fun _ => h, by simp⟩, rfl⟩
  · rintro ⟨l, rfl⟩
    refine ⟨l.letters, l.quoted, rfl, ⟨l.letters_length, l.mem_of_mem_letters⟩, ?_⟩
    have hquote := l.quote_isQuote
    simp only [isQuote, Bool.or_eq_true, decide_eq_true_eq] at hquote
    cases hlong : l.long with
    | true =>
      have hbody := l.long_body hlong
      rcases hquote with hq | hq <;> rw [hq] at hbody
      · exact .inl ⟨l.body, by simp [Quotation.quoted, Quotation.delimiter, hlong, hq], hbody⟩
      · exact .inr (.inl
          ⟨l.body, by simp [Quotation.quoted, Quotation.delimiter, hlong, hq], hbody⟩)
    | false =>
      have hbody := l.short_body hlong
      rcases hquote with hq | hq <;> rw [hq] at hbody
      · exact .inr (.inr (.inl
          ⟨l.body, by simp [Quotation.quoted, Quotation.delimiter, hlong, hq], hbody⟩))
      · exact .inr (.inr (.inr
          ⟨l.body, by simp [Quotation.quoted, Quotation.delimiter, hlong, hq], hbody⟩))

/-- The pattern of adjacent literals stands for runs of quotations that begin with one. -/
theorem matches_literals_iff :
    Matches literals t ↔
      ∃ (first : Quotation) (rest : List SpacedQuotation),
        t = first.text ++ SpacedQuotation.texts rest := by
  have hspaced {s : Text} : Matches (.seq (star (.one .blank)) literal) s ↔
      ∃ l : SpacedQuotation, s = l.text := by
    rw [matches_seq_iff]
    constructor
    · rintro ⟨blanks, b, rfl, hblanks, hb⟩
      obtain ⟨l, rfl⟩ := matches_literal_iff.1 hb
      exact ⟨⟨blanks, l, matches_star_one_iff.1 hblanks⟩, rfl⟩
    · rintro ⟨l, rfl⟩
      exact ⟨l.blanks, l.quotation.text, rfl, matches_star_one_iff.2 l.blanks_isBlank,
        matches_literal_iff.2 ⟨_, rfl⟩⟩
  rw [literals, matches_seq_iff]
  constructor
  · rintro ⟨a, b, rfl, ha, hb⟩
    obtain ⟨first, rfl⟩ := matches_literal_iff.1 ha
    obtain ⟨parts, rfl, hparts⟩ := matches_star_iff.1 hb
    clear hb
    refine ⟨first, ?_⟩
    induction parts with
    | nil => exact ⟨[], rfl⟩
    | cons s parts ih =>
      simp only [List.mem_cons, forall_eq_or_imp] at hparts
      obtain ⟨l, rfl⟩ := hspaced.1 hparts.1
      obtain ⟨rest, hrest⟩ := ih hparts.2
      rw [List.append_cancel_left_eq] at hrest
      exact ⟨l :: rest, by rw [List.flatten_cons, hrest, SpacedQuotation.texts_cons]⟩
  · rintro ⟨first, rest, rfl⟩
    refine ⟨first.text, _, rfl, matches_literal_iff.2 ⟨first, rfl⟩, matches_star_iff.2
      ⟨rest.map SpacedQuotation.text, by rw [SpacedQuotation.texts, List.flatMap_def], ?_⟩⟩
    intro s hs
    obtain ⟨l, -, rfl⟩ := List.mem_map.1 hs
    exact hspaced.2 ⟨l, rfl⟩

end Quotations

/-! ## Numbers -/

/-- A digit, then digits and underscores. -/
def IsDigits (t : Text) : Prop :=
  ∃ d rest, t = d :: rest ∧ isDigit d = true ∧ ∀ c ∈ rest, isDigit c = true ∨ c = '_'

/-- A zero, one of some marks, and at least one of some digits. -/
def IsBased (marks digits : String) (t : Text) : Prop :=
  ∃ mark rest, t = '0' :: mark :: rest ∧ mark ∈ marks.toList ∧ rest ≠ [] ∧
    ∀ c ∈ rest, c ∈ digits.toList

/-- Digits, and after a point possibly more; or a point and digits. -/
inductive IsMantissa : Text → Prop where
  | whole {ds : Text} (h : IsDigits ds) : IsMantissa ds
  | fraction {ds more : Text} (h : IsDigits ds) (hmore : ∀ c ∈ more, isDigit c = true ∨ c = '_') :
      IsMantissa (ds ++ '.' :: more)
  | point {ds : Text} (h : IsDigits ds) : IsMantissa ('.' :: ds)

/-- The mark of an exponent, possibly a sign, and digits; or nothing at all. -/
inductive IsExponent : Text → Prop where
  | none : IsExponent []
  | plain {mark : Char} {ds : Text} (hmark : mark = 'e' ∨ mark = 'E') (h : IsDigits ds) :
      IsExponent (mark :: ds)
  | signed {mark sign : Char} {ds : Text} (hmark : mark = 'e' ∨ mark = 'E')
      (hsign : sign = '+' ∨ sign = '-') (h : IsDigits ds) : IsExponent (mark :: sign :: ds)

/-- A number, in base 16, 8, 2 or 10. -/
inductive IsNumber : Text → Prop where
  | hexadecimal {t : Text} (h : IsBased "xX" "0123456789abcdefABCDEF_" t) : IsNumber t
  | octal {t : Text} (h : IsBased "oO" "01234567_" t) : IsNumber t
  | binary {t : Text} (h : IsBased "bB" "01_" t) : IsNumber t
  | decimal {mantissa exponent mark : Text} (hm : IsMantissa mantissa) (he : IsExponent exponent)
      (hmark : mark = [] ∨ mark = ['j'] ∨ mark = ['J']) : IsNumber (mantissa ++ (exponent ++ mark))

section Numbers

variable {t : Text}

theorem mem_digits_iff {c : Char} : c ∈ "0123456789".toList ↔ isDigit c = true :=
  List.contains_iff_mem.symm

theorem mem_digits_underscore_iff {c : Char} :
    c ∈ "0123456789_".toList ↔ isDigit c = true ∨ c = '_' := by
  simp [isDigit]
  tauto

theorem matches_digits_iff : Matches digits t ↔ IsDigits t := by
  simp only [digits, matches_seq_iff, matches_oneOf_iff, matches_star_oneOf_iff, mem_digits_iff,
    mem_digits_underscore_iff, IsDigits]
  constructor
  · rintro ⟨_, rest, rfl, ⟨d, rfl, hd⟩, hrest⟩
    exact ⟨d, rest, rfl, hd, hrest⟩
  · rintro ⟨d, rest, rfl, hd, hrest⟩
    exact ⟨[d], rest, rfl, ⟨d, rfl, hd⟩, hrest⟩

theorem matches_based_iff {marks ds : String} :
    Matches (based marks ds) t ↔ IsBased marks ds t := by
  simp only [based, chain, plus, matches_seq_iff, matches_oneOf_iff, matches_star_oneOf_iff,
    IsBased]
  constructor
  · rintro ⟨_, _, rfl, ⟨z, rfl, hz⟩, _, _, rfl, ⟨mark, rfl, hmark⟩, _, rest, rfl, ⟨d, rfl, hd⟩,
      hrest⟩
    obtain rfl : z = '0' := by simpa using hz
    exact ⟨mark, d :: rest, rfl, hmark, by simp, by simpa using ⟨hd, hrest⟩⟩
  · rintro ⟨mark, rest, rfl, hmark, hne, hrest⟩
    obtain ⟨d, rest, rfl⟩ := List.exists_cons_of_ne_nil hne
    simp only [List.mem_cons, forall_eq_or_imp] at hrest
    exact ⟨['0'], _, rfl, ⟨'0', rfl, by simp⟩, [mark], _, rfl, ⟨mark, rfl, hmark⟩, [d], rest, rfl,
      ⟨d, rfl, hrest.1⟩, hrest.2⟩

theorem matches_mantissa_iff :
    Matches (alt (.seq digits (opt (.seq (oneOf ".") (star (oneOf "0123456789_")))))
      (.seq (oneOf ".") digits)) t ↔ IsMantissa t := by
  have hpoint {s : Text} : Matches (oneOf ".") s ↔ s = ['.'] := by
    simp [matches_oneOf_iff]
  simp only [matches_alt_iff, matches_seq_iff, matches_opt_iff, hpoint, matches_digits_iff,
    matches_star_oneOf_iff, mem_digits_underscore_iff]
  constructor
  · rintro (⟨ds, _, rfl, hds, rfl | ⟨_, more, rfl, rfl, hmore⟩⟩ | ⟨_, ds, rfl, rfl, hds⟩)
    · rw [List.append_nil]
      exact .whole hds
    · exact .fraction hds hmore
    · exact .point hds
  · rintro (hds | ⟨hds, hmore⟩ | hds)
    · exact .inl ⟨t, [], by simp, hds, .inl rfl⟩
    · exact .inl ⟨_, _, rfl, hds, .inr ⟨['.'], _, rfl, rfl, hmore⟩⟩
    · exact .inr ⟨['.'], _, rfl, rfl, hds⟩

theorem matches_exponent_iff :
    Matches (opt (chain [oneOf "eE", opt (oneOf "+-"), digits])) t ↔ IsExponent t := by
  simp only [chain, matches_opt_iff, matches_seq_iff, matches_oneOf_iff, matches_digits_iff]
  constructor
  · rintro (rfl | ⟨_, _, rfl, ⟨mark, rfl, hmark⟩, _, ds, rfl, rfl | ⟨sign, rfl, hsign⟩, hds⟩)
    · exact .none
    · exact .plain (by simpa using hmark) hds
    · exact .signed (by simpa using hmark) (by simpa using hsign) hds
  · rintro (_ | ⟨hmark, hds⟩ | ⟨hmark, hsign, hds⟩)
    · exact .inl rfl
    · exact .inr ⟨[_], _, rfl, ⟨_, rfl, by simpa using hmark⟩, [], _, rfl, .inl rfl, hds⟩
    · exact .inr ⟨[_], _, rfl, ⟨_, rfl, by simpa using hmark⟩, [_], _, rfl,
        .inr ⟨_, rfl, by simpa using hsign⟩, hds⟩

theorem matches_number_iff : Matches number t ↔ IsNumber t := by
  have hmark {s : Text} : Matches (opt (oneOf "jJ")) s ↔ s = [] ∨ s = ['j'] ∨ s = ['J'] := by
    simp [matches_opt_iff, matches_oneOf_iff, and_or_left, exists_or]
  have hdecimal {s : Text} : Matches (chain
      [alt (.seq digits (opt (.seq (oneOf ".") (star (oneOf "0123456789_")))))
        (.seq (oneOf ".") digits),
       opt (chain [oneOf "eE", opt (oneOf "+-"), digits]), opt (oneOf "jJ")]) s ↔
      ∃ a b, s = a ++ b ∧ IsMantissa a ∧ ∃ c d, b = c ++ d ∧ IsExponent c ∧
        (d = [] ∨ d = ['j'] ∨ d = ['J']) := by
    show Matches (.seq _ (.seq _ (opt _))) s ↔ _
    simp only [matches_seq_iff, matches_mantissa_iff, matches_exponent_iff, hmark]
  rw [number]
  simp only [choice, matches_alt_iff, matches_based_iff, hdecimal]
  constructor
  · rintro (h | h | h | ⟨_, _, rfl, hm, _, _, rfl, he, hu⟩)
    · exact .hexadecimal h
    · exact .octal h
    · exact .binary h
    · exact .decimal hm he hu
  · rintro (h | h | h | ⟨hm, he, hu⟩)
    · exact .inl h
    · exact .inr (.inl h)
    · exact .inr (.inr (.inl h))
    · exact .inr (.inr (.inr ⟨_, _, rfl, hm, _, _, rfl, he, hu⟩))

end Numbers

/-! ## Atoms -/

/-- What an atom begins with: quotations, a number, a name, or a member. -/
inductive IsHead : Text → Prop where
  | quotations (first : Quotation) (rest : List SpacedQuotation) :
      IsHead (first.text ++ SpacedQuotation.texts rest)
  | number {t : Text} (h : IsNumber t) : IsHead t
  | name (name : Name) : IsHead name.text
  | member (name : Name) : IsHead ('.' :: name.text)

/-- A head with members behind it. -/
def IsAtom (t : Text) : Prop :=
  ∃ head names, t = head ++ Name.dotted names ∧ IsHead head

section Grammar

variable {t : Text}

theorem matches_name_iff : Matches name t ↔ ∃ n : Name, t = n.text := by
  rw [name, matches_seq_iff]
  constructor
  · rintro ⟨_, rest, rfl, ha, hrest⟩
    obtain ⟨first, rfl, hfirst⟩ := matches_one_iff.1 ha
    exact ⟨⟨first, rest, hfirst, matches_star_one_iff.1 hrest⟩, rfl⟩
  · rintro ⟨n, rfl⟩
    exact matches_seq_iff.1 n.matches_text

theorem matches_member_iff : Matches member t ↔ ∃ n : Name, t = '.' :: n.text := by
  rw [member, matches_seq_iff]
  constructor
  · rintro ⟨_, _, rfl, ha, hb⟩
    obtain ⟨dot, rfl, hdot⟩ := matches_oneOf_iff.1 ha
    obtain rfl : dot = '.' := by simpa using hdot
    obtain ⟨n, rfl⟩ := matches_name_iff.1 hb
    exact ⟨n, rfl⟩
  · rintro ⟨n, rfl⟩
    exact matches_seq_iff.1 n.matches_member

theorem matches_members_iff : Matches (star member) t ↔ ∃ names, t = Name.dotted names := by
  rw [matches_star_iff]
  constructor
  · rintro ⟨parts, rfl, hparts⟩
    induction parts with
    | nil => exact ⟨[], rfl⟩
    | cons s parts ih =>
      simp only [List.mem_cons, forall_eq_or_imp] at hparts
      obtain ⟨n, rfl⟩ := matches_member_iff.1 hparts.1
      obtain ⟨names, hnames⟩ := ih hparts.2
      exact ⟨n :: names, by rw [List.flatten_cons, hnames]; simp [Name.dotted]⟩
  · rintro ⟨names, rfl⟩
    exact matches_star_iff.1 (Name.matches_dotted names)

/-- **The pattern of atoms stands for the atoms.** -/
theorem matches_grammar_iff : Matches grammar t ↔ IsAtom t := by
  rw [grammar, matches_seq_iff]
  simp only [choice, matches_alt_iff, matches_literals_iff, matches_number_iff, matches_name_iff,
    matches_member_iff, matches_members_iff, IsAtom]
  constructor
  · rintro ⟨_, _, rfl, ⟨first, rest, rfl⟩ | h | ⟨n, rfl⟩ | ⟨n, rfl⟩, names, rfl⟩
    · exact ⟨_, names, rfl, .quotations first rest⟩
    · exact ⟨_, names, rfl, .number h⟩
    · exact ⟨_, names, rfl, .name n⟩
    · exact ⟨_, names, rfl, .member n⟩
  · rintro ⟨_, names, rfl, ⟨first, rest⟩ | h | n | n⟩
    · exact ⟨_, _, rfl, .inl ⟨first, rest, rfl⟩, names, rfl⟩
    · exact ⟨_, _, rfl, .inr (.inl h), names, rfl⟩
    · exact ⟨_, _, rfl, .inr (.inr (.inl ⟨n, rfl⟩)), names, rfl⟩
    · exact ⟨_, _, rfl, .inr (.inr (.inr ⟨n, rfl⟩)), names, rfl⟩

end Grammar

end Atom

end DotTarget
