import DotTarget.Proofs.Lexical.AtomGrammar
import DotTarget.Proofs.Lexical.BackwardReading

set_option autoImplicit false

/-! # Which literals backward reading passes over

Where a body between triple quotes begins with quotes of its own, backward reading takes the last
three of them all for the triple quote. One or two quotes are left over in front: two are read as an
empty literal, but one opens a literal that is not there. An empty literal right behind a literal
with the same quote makes three quotes in a row, and they are taken for a triple quote.

In all other cases (`SpacedQuotation.Clear`) a run of quotations is read one by one, and nothing in
it is seen (`literals_passedOver_iff_clear`). -/

namespace DotTarget

open Item (texts)
open Matcher (Passes)

theorem head?_append_ne {t left : Text} {c : Char} (ht : c ∉ t) (hleft : left.head? ≠ some c) :
    (t ++ left).head? ≠ some c := by
  cases t with
  | nil => exact hleft
  | cons d t =>
    intro h
    exact ht (Option.some.inj h ▸ List.mem_cons_self)

/-! ## Quotes left over -/

namespace Quotation

/-- How many quotes backward reading leaves over at the front of a quotation. An empty one consists
of nothing else. -/
def spare (l : Quotation) : Nat :=
  if l.long then (l.body.takeWhile (· = .char l.quote)).length
  else if l.body = [] then 2
  else 0

/-- The quotes that a body between triple quotes begins with are those left over. -/
theorem exists_body_of_long (l : Quotation) (hlong : l.long = true) :
    ∃ rest, l.body = List.replicate l.spare (.char l.quote) ++ rest ∧ l.spare ≤ 2 ∧
      rest.head? ≠ some (.char l.quote) := by
  by_cases hbody : l.body = []
  · exact ⟨[], by simp [spare, hlong, hbody]⟩
  · obtain ⟨n, hn, item, rest, hsplit, hitem⟩ := (l.long_body hlong).exists_cons hbody
    have hspare : l.spare = n := by
      simp [spare, hlong, hsplit, List.takeWhile_append_of_pos, hitem]
    rw [hspare]
    exact ⟨item :: rest, hsplit, hn, by simpa using hitem⟩

theorem spare_le_two (l : Quotation) : l.spare ≤ 2 := by
  cases hlong : l.long with
  | false =>
    by_cases hbody : l.body = [] <;> simp [spare, hlong, hbody]
  | true =>
    obtain ⟨_, -, hle, -⟩ := l.exists_body_of_long hlong
    exact hle

/-- Behind the quotes left over, a quotation is passed over. -/
theorem exists_core (l : Quotation) :
    ∃ core, l.quoted = List.replicate l.spare l.quote ++ core ∧
      ∀ {left : Text}, left.head? ≠ some '\\' → Passes .initial core.reverse left .initial := by
  cases hlong : l.long with
  | false =>
    by_cases hbody : l.body = []
    · refine ⟨[], by simp [quoted, delimiter, spare, hlong, hbody], ?_⟩
      intro left _
      exact Matcher.passes_nil_iff.2 rfl
    · refine ⟨l.quoted, by simp [spare, hlong, hbody], ?_⟩
      intro left hleft
      have h := l.short_body hlong
      have hreverse : l.quoted.reverse = l.quote :: ((texts l.body).reverse ++ [l.quote]) := by
        simp [quoted, delimiter, hlong]
      rw [hreverse]
      exact Matcher.passes_shortQuoted l.quote_isQuote h.bare_ne_backslash hleft h.bare_ne_quote
        fun hnil => absurd hnil hbody
  | true =>
    obtain ⟨rest, hsplit, -, hfirst⟩ := l.exists_body_of_long hlong
    have h : IsLongBody l.quote rest := (hsplit ▸ l.long_body hlong).of_append
    refine ⟨[l.quote, l.quote, l.quote] ++ (texts rest ++ [l.quote, l.quote, l.quote]), ?_, ?_⟩
    · have hquotes (n : Nat) :
          texts (List.replicate n (.char l.quote)) = List.replicate n l.quote := by
        induction n with
        | zero => rfl
        | succ n ih => simp [List.replicate_succ, Item.text, ih]
      -- The quotes left over may as well stand before the triple quote as behind it.
      have hswap : [l.quote, l.quote, l.quote] ++ List.replicate l.spare l.quote =
          List.replicate l.spare l.quote ++ [l.quote, l.quote, l.quote] := by
        have hthree : [l.quote, l.quote, l.quote] = List.replicate 3 l.quote := rfl
        rw [hthree, List.replicate_append_replicate, List.replicate_append_replicate, Nat.add_comm]
      rw [quoted, hsplit, Item.texts_append, hquotes]
      simp only [delimiter, hlong, if_true, ← List.append_assoc, hswap]
    · intro left hleft
      rw [List.reverse_append, List.reverse_append, List.append_assoc]
      exact Matcher.passes_longQuoted l.quote_isQuote h.bare_ne_backslash hleft hfirst h.no_three

/-- A quotation ends with its quote, and no escape stands before it. -/
theorem exists_reverse_text (l : Quotation) (left : Text) :
    ∃ rest, l.text.reverse ++ left = l.quote :: rest ∧ escapeRun rest % 2 = 0 := by
  cases hlong : l.long with
  | false =>
    refine ⟨(texts l.body).reverse ++ l.quote :: (l.letters.reverse ++ left),
      by simp [text, quoted, delimiter, hlong], ?_⟩
    exact escapeRun_texts_even l.quote_isQuote (l.short_body hlong).bare_ne_backslash _
  | true =>
    refine ⟨l.quote :: l.quote :: ((texts l.body).reverse ++
      l.quote :: l.quote :: l.quote :: (l.letters.reverse ++ left)),
      by simp [text, quoted, delimiter, hlong], ?_⟩
    rw [escapeRun_cons_of_ne (Comment.ne_backslash_of_isQuote l.quote_isQuote)]

end Quotation

/-! ## One quotation -/

/-- Outside literals and inside one in single quotes, plain characters are passed over. -/
theorem Matcher.passes_plain {mode : Mode}
    (hmode : mode = .code ∨ ∃ q, isQuote q = true ∧ mode = .string q) {t : Text}
    (ht : ∀ c ∈ t, isPlain c = true) (left : Text) :
    Passes ⟨mode, [], 0, 0⟩ t left ⟨mode, [], 0, 0⟩ := by
  induction t with
  | nil => exact passes_nil_iff.2 rfl
  | cons c t ih =>
    simp only [List.mem_cons, forall_eq_or_imp] at ht
    have hc := ht.1
    simp only [isPlain, Bool.and_eq_true, Bool.not_eq_true'] at hc
    refine .cons ?_ (ih ht.2)
    rcases hmode with rfl | ⟨q, hq, rfl⟩
    · simp [feed, advance, feedCode, hc]
    · apply feed_string_of_ne
      rintro rfl
      simp [hq] at hc

namespace SpacedQuotation

/-- What stands before the quotes of a quotation. -/
def gap (s : SpacedQuotation) : Text :=
  s.blanks ++ s.quotation.letters

theorem text_eq (s : SpacedQuotation) : s.text = s.gap ++ s.quotation.quoted := by
  simp [text, gap, Quotation.text]

theorem isPlain_of_mem_gap (s : SpacedQuotation) {c : Char} (hc : c ∈ s.gap) :
    isPlain c = true := by
  rcases List.mem_append.1 hc with hc | hc
  · exact isPlain_of (by decide) (s.blanks_isBlank c hc)
  · have hletters : literalLetters.all isPlain = true := by decide
    exact List.all_eq_true.1 hletters c (s.quotation.mem_of_mem_letters c hc)

theorem backslash_notMem_gap (s : SpacedQuotation) : '\\' ∉ s.gap := by
  intro hmem
  rcases List.mem_append.1 hmem with hmem | hmem
  · exact absurd (s.blanks_isBlank _ hmem) (by decide)
  · exact absurd (s.quotation.mem_of_mem_letters _ hmem) (by decide)

theorem quote_notMem_gap (s : SpacedQuotation) {q : Char} (hq : isQuote q = true) : q ∉ s.gap := by
  intro hmem
  rw [isQuote_of_isPlain (s.isPlain_of_mem_gap hmem)] at hq
  exact Bool.noConfusion hq

/-- Whether backward reading sees a quotation for what it is, behind a literal with the quote
`last`: a single quote left over opens a literal that is not there, and two of them must not touch
another quote of their kind. -/
def ClearBehind (last : Option Char) (s : SpacedQuotation) : Prop :=
  s.quotation.spare ≠ 1 ∧
    (s.quotation.spare = 2 → s.gap = [] → last ≠ some s.quotation.quote)

section Spare

variable (s : SpacedQuotation) {left : Text} {q : Char}

theorem passes_gap {mode : Matcher.Mode}
    (hmode : mode = .code ∨ ∃ q, isQuote q = true ∧ mode = .string q) :
    Passes ⟨mode, [], 0, 0⟩ s.gap.reverse left ⟨mode, [], 0, 0⟩ :=
  Matcher.passes_plain hmode (fun _ hc => s.isPlain_of_mem_gap (List.mem_reverse.1 hc)) left

/-- One quote left over leads into a literal, in triple quotes if it touches two more. -/
theorem exists_passes_one (hq : isQuote q = true) (left : Text) :
    ∃ m, Passes .initial (q :: s.gap.reverse) left m ∧ m.mode ≠ .code := by
  have hopen : Matcher.initial.feed (s.gap.reverse ++ left) q = _ := Matcher.feed_quote hq _
  cases htriple : endsTriple q (s.gap.reverse ++ left) with
  | false =>
    rw [htriple] at hopen
    exact ⟨_, .cons hopen (s.passes_gap (.inr ⟨q, hq, rfl⟩)), by simp⟩
  | true =>
    have hnil : s.gap.reverse = [] := by
      cases hreverse : s.gap.reverse with
      | nil => rfl
      | cons c t =>
        have hc : c ≠ q := by
          rintro rfl
          exact s.quote_notMem_gap hq (List.mem_reverse.1 (hreverse ▸ List.mem_cons_self))
        rw [hreverse, List.cons_append, endsTriple_cons_of_ne hc] at htriple
        exact Bool.noConfusion htriple
    rw [htriple, hnil] at hopen
    rw [hnil]
    exact ⟨_, .single hopen, by simp⟩

/-- Two quotes left over are an empty literal, if they do not touch another quote of their kind. -/
theorem passes_two (hq : isQuote q = true) (hbackslash : left.head? ≠ some '\\')
    (hquote : s.gap = [] → left.head? ≠ some q) :
    Passes .initial (q :: q :: s.gap.reverse) left .initial := by
  have hbackslash' : (s.gap.reverse ++ left).head? ≠ some '\\' :=
    head?_append_ne (by simpa using s.backslash_notMem_gap) hbackslash
  have hquote' : (s.gap.reverse ++ left).head? ≠ some q := by
    by_cases hnil : s.gap = []
    · rw [hnil]
      exact hquote hnil
    · rw [List.head?_append_of_ne_nil _ (by simpa using hnil)]
      intro hhead
      exact s.quote_notMem_gap hq (List.mem_reverse.1 (List.mem_of_mem_head? hhead))
  have hpair : Passes .initial [q, q] (s.gap.reverse ++ left) .initial :=
    Matcher.passes_shortQuoted hq List.not_mem_nil hbackslash' List.not_mem_nil fun _ => hquote'
  exact hpair.append (s.passes_gap (.inl rfl))

/-- Two quotes that touch another one of their kind are taken for a triple quote. -/
theorem passes_two_touching (hq : isQuote q = true) {rest : Text} (heven : escapeRun rest % 2 = 0) :
    Passes .initial [q, q] (q :: rest) ⟨.triple q, [], 0, 1⟩ := by
  have hopen : Matcher.initial.feed (q :: q :: rest) q = _ := Matcher.feed_quote hq _
  have htriple : endsTriple q (q :: q :: rest) = true := by simp [endsTriple, heven]
  rw [htriple] at hopen
  refine .cons hopen (.single ?_)
  simp [Matcher.feed, Matcher.advance]

end Spare

/-- **A quotation behind other ones is passed over if it is clear**, and otherwise leads into a
literal. -/
theorem exists_passes (s : SpacedQuotation) {left : Text}
    (hleft : ∀ q rest, left = q :: rest → isQuote q = true ∧ escapeRun rest % 2 = 0) :
    ∃ m, Passes .initial s.text.reverse left m ∧
      (s.ClearBehind left.head? ∧ m = .initial ∨ ¬ s.ClearBehind left.head? ∧ m.mode ≠ .code) := by
  obtain ⟨core, hquoted, hcore⟩ := s.quotation.exists_core
  have hq := s.quotation.quote_isQuote
  have hle := s.quotation.spare_le_two
  have hbackslash : left.head? ≠ some '\\' := by
    intro hhead
    obtain ⟨rest, rfl⟩ := List.head?_eq_some_iff.1 hhead
    exact absurd (hleft _ rest rfl).1 (by decide)
  rw [s.text_eq, hquoted, ClearBehind, List.reverse_append, List.reverse_append,
    List.reverse_replicate, List.append_assoc]
  generalize s.quotation.quote = q at hq ⊢
  generalize s.quotation.spare = n at hle ⊢
  -- The core leads back to code, so what matters are the quotes before it.
  suffices ∃ m, Passes .initial (List.replicate n q ++ s.gap.reverse) left m ∧
      ((n ≠ 1 ∧ (n = 2 → s.gap = [] → left.head? ≠ some q)) ∧ m = .initial ∨
        ¬ (n ≠ 1 ∧ (n = 2 → s.gap = [] → left.head? ≠ some q)) ∧ m.mode ≠ .code) by
    obtain ⟨m, hspare, hm⟩ := this
    refine ⟨m, (hcore ?_).append hspare, hm⟩
    refine head?_append_ne ?_ hbackslash
    intro hmem
    rcases List.mem_append.1 hmem with hmem | hmem
    · exact Comment.ne_backslash_of_isQuote hq (List.eq_of_mem_replicate hmem).symm
    · exact s.backslash_notMem_gap (List.mem_reverse.1 hmem)
  obtain rfl | rfl | rfl : n = 0 ∨ n = 1 ∨ n = 2 := by omega
  · exact ⟨.initial, s.passes_gap (.inl rfl), .inl ⟨⟨by omega, by omega⟩, rfl⟩⟩
  · obtain ⟨m, hm, hmode⟩ := s.exists_passes_one hq left
    exact ⟨m, hm, .inr ⟨fun h => h.1 rfl, hmode⟩⟩
  · by_cases htouch : s.gap = [] ∧ left.head? = some q
    · obtain ⟨hnil, hhead⟩ := htouch
      obtain ⟨rest, rfl⟩ := List.head?_eq_some_iff.1 hhead
      rw [hnil]
      refine ⟨_, passes_two_touching hq (hleft q rest rfl).2, .inr ⟨?_, by simp⟩⟩
      intro hclear
      exact hclear.2 rfl rfl hhead
    · have hquote : s.gap = [] → left.head? ≠ some q := fun hnil hhead => htouch ⟨hnil, hhead⟩
      exact ⟨.initial, s.passes_two hq hbackslash hquote, .inl ⟨⟨by omega, fun _ => hquote⟩, rfl⟩⟩

/-! ## Runs of quotations -/

/-- A run of quotations is read one by one: wherever one ends, reading is outside literals. -/
def ReadsOneByOne (run : List SpacedQuotation) : Prop :=
  ∀ front back, run = front ++ back →
    Passes .initial (texts back).reverse (texts front).reverse .initial

/-- No quotation of a run leaves a single quote over, and none that leaves two touches a quotation
with the same quote. -/
structure Clear (run : List SpacedQuotation) : Prop where
  spare_ne_one : ∀ s ∈ run, s.quotation.spare ≠ 1
  apart : run.IsChain fun a b =>
    b.quotation.spare = 2 → b.gap = [] → a.quotation.quote ≠ b.quotation.quote

/-- A run ends with the quote of its last quotation, and no escape stands before it. -/
theorem exists_reverse_texts_concat (front : List SpacedQuotation) (a : SpacedQuotation) :
    ∃ rest, (texts (front ++ [a])).reverse = a.quotation.quote :: rest ∧
      escapeRun rest % 2 = 0 := by
  obtain ⟨rest, hrest, heven⟩ :=
    a.quotation.exists_reverse_text (a.blanks.reverse ++ (texts front).reverse)
  refine ⟨rest, ?_, heven⟩
  rw [← hrest]
  simp [text]

theorem head?_reverse_texts_concat (front : List SpacedQuotation) (a : SpacedQuotation) :
    (texts (front ++ [a])).reverse.head? = some a.quotation.quote := by
  obtain ⟨rest, hrest, -⟩ := exists_reverse_texts_concat front a
  rw [hrest]
  rfl

theorem exists_passes_behind (front : List SpacedQuotation) (s : SpacedQuotation) :
    ∃ m, Passes .initial s.text.reverse (texts front).reverse m ∧
      (s.ClearBehind (texts front).reverse.head? ∧ m = .initial ∨
        ¬ s.ClearBehind (texts front).reverse.head? ∧ m.mode ≠ .code) := by
  apply s.exists_passes
  intro q rest h
  rcases List.eq_nil_or_concat' front with rfl | ⟨front, a, rfl⟩
  · simp at h
  · obtain ⟨rest', hrest, heven⟩ := exists_reverse_texts_concat front a
    obtain ⟨rfl, rfl⟩ := List.cons.inj (h.symm.trans hrest)
    exact ⟨a.quotation.quote_isQuote, heven⟩

theorem clearBehind_iff_passes (front : List SpacedQuotation) (s : SpacedQuotation) :
    s.ClearBehind (texts front).reverse.head? ↔
      Passes .initial s.text.reverse (texts front).reverse .initial := by
  obtain ⟨m, hm, h⟩ := exists_passes_behind front s
  constructor
  · intro hclear
    rcases h with ⟨-, rfl⟩ | ⟨hnot, -⟩
    · exact hm
    · exact absurd hclear hnot
  · intro hpasses
    obtain rfl := hm.unique hpasses
    rcases h with ⟨hclear, -⟩ | ⟨-, hmode⟩
    · exact hclear
    · exact absurd rfl hmode

/-- A run is read one by one if each of its quotations is passed over. -/
theorem readsOneByOne_iff {run : List SpacedQuotation} :
    ReadsOneByOne run ↔ ∀ front s back, run = front ++ s :: back →
      Passes .initial s.text.reverse (texts front).reverse .initial := by
  constructor
  · intro h front s back hrun
    have hall := h front (s :: back) hrun
    have hback := h (front ++ [s]) back (by simp [hrun])
    rw [texts_cons, List.reverse_append, Matcher.passes_append_iff] at hall
    obtain ⟨between, hbetween, hs⟩ := hall
    simp only [texts_append, texts_cons, texts_nil, List.append_nil, List.reverse_append] at hback
    rwa [hbetween.unique hback] at hs
  · intro h front back hrun
    induction back generalizing front with
    | nil => exact Matcher.passes_nil_iff.2 rfl
    | cons s back ih =>
      have hback := ih (front ++ [s]) (by simp [hrun])
      simp only [texts_append, texts_cons, texts_nil, List.append_nil, List.reverse_append] at hback
      rw [texts_cons, List.reverse_append]
      exact hback.append (h front s back hrun)

/-- **Exactly the clear runs are read one by one.** -/
theorem readsOneByOne_iff_clear (run : List SpacedQuotation) : ReadsOneByOne run ↔ Clear run := by
  simp only [readsOneByOne_iff, ← clearBehind_iff_passes]
  constructor
  · intro h
    refine ⟨?_, ?_⟩
    · intro s hs
      obtain ⟨front, back, hrun⟩ := List.append_of_mem hs
      exact (h front s back hrun).1
    · rw [List.isChain_iff_forall_rel_of_append_cons_cons]
      intro a b front back hrun hspare hgap hquote
      refine (h (front ++ [a]) b back (by simp [hrun])).2 hspare hgap ?_
      rw [head?_reverse_texts_concat, hquote]
  · rintro ⟨hone, hapart⟩ front s back hrun
    refine ⟨hone s (by simp [hrun]), ?_⟩
    intro hspare hgap
    rcases List.eq_nil_or_concat' front with rfl | ⟨front, a, rfl⟩
    · simp
    · rw [List.isChain_iff_forall_rel_of_append_cons_cons] at hapart
      rw [head?_reverse_texts_concat]
      intro hquote
      exact hapart (by rw [hrun, List.append_assoc]; rfl) hspare hgap (Option.some.inj hquote)

end SpacedQuotation

/-- Fed a text from right to left, a fresh matcher is outside literals in the end, waits for
nothing, and has neither paired nor missed a bracket. -/
def PassedOver (t : Text) : Prop :=
  let (m, steps) := Matcher.initial.feedAll t.reverse []
  m.mode = .code ∧ m.depth = 0 ∧ m.mismatches = 0 ∧ ∀ step ∈ steps, step = .more

instance (t : Text) : Decidable (PassedOver t) :=
  inferInstanceAs (Decidable (_ ∧ _ ∧ _ ∧ _))

theorem passedOver_of_passes {t : Text} {m : Matcher} (h : Passes .initial t.reverse [] m) :
    PassedOver t ↔ m.mode = .code ∧ m.depth = 0 ∧ m.mismatches = 0 := by
  unfold PassedOver
  rw [h]
  simp

/-- **Clear literals are passed over.** The texts of adjacent literals are those of runs of
quotations. A run is read one by one exactly if it is clear, and then it is passed over. A quotation
by itself is passed over exactly if it is clear. -/
theorem literals_passedOver_iff_clear (t : Text) :
    (Atom.literals.Matches t ↔ ∃ (first : Quotation) (rest : List SpacedQuotation),
      t = first.text ++ SpacedQuotation.texts rest) ∧
    ∀ run, t = SpacedQuotation.texts run →
      (SpacedQuotation.ReadsOneByOne run ↔ SpacedQuotation.Clear run) ∧
      (SpacedQuotation.Clear run → PassedOver t) ∧
      ∀ s, run = [s] → (PassedOver t ↔ SpacedQuotation.Clear run) := by
  refine ⟨Atom.matches_literals_iff, ?_⟩
  rintro run rfl
  have hpassed : SpacedQuotation.Clear run → PassedOver (SpacedQuotation.texts run) := by
    intro hclear
    have hone := (SpacedQuotation.readsOneByOne_iff_clear run).2 hclear
    rw [passedOver_of_passes (hone [] run rfl)]
    exact ⟨rfl, rfl, rfl⟩
  refine ⟨SpacedQuotation.readsOneByOne_iff_clear run, hpassed, ?_⟩
  rintro s rfl
  refine ⟨?_, hpassed⟩
  intro h
  obtain ⟨m, hm, hcases⟩ := SpacedQuotation.exists_passes_behind [] s
  rw [passedOver_of_passes (by simpa using hm)] at h
  rcases hcases with ⟨hclear, -⟩ | ⟨-, hmode⟩
  · exact ⟨by simpa using hclear.1, by simp⟩
  · exact absurd h.1 hmode

/-- Neither escaped quotes nor brackets nor the quotes of another kind are seen. -/
example : PassedOver "r'\\'(' \"]'\" f'''('x'''".toList := by decide

/-- A body that begins with one quote, and an empty literal behind another literal. Left of such a
quotation even the inside of a literal is code to a backward reader. -/
theorem literals_not_passedOver :
    ('\n' ∉ "''''a'''".toList ∧ Atom.literals.Matches "''''a'''".toList ∧
      ¬ PassedOver "''''a'''".toList) ∧
    ('\n' ∉ "'a'''".toList ∧ Atom.literals.Matches "'a'''".toList ∧
      ¬ PassedOver "'a'''".toList) ∧
    ('\n' ∉ "'(' ''''a'''".toList ∧ Atom.literals.Matches "'(' ''''a'''".toList ∧
      ¬ PassedOver "'(' ''''a'''".toList) := by
  have hmatches {t : Text} (h : Atom.literals.longestEnd t = some t) : Atom.literals.Matches t :=
    (Pattern.longestEnd_eq_some h).2.1
  refine ⟨⟨by decide, hmatches ?_, by decide⟩, ⟨by decide, hmatches ?_, by decide⟩,
    ⟨by decide, hmatches ?_, by decide⟩⟩
  all_goals decide

end DotTarget
