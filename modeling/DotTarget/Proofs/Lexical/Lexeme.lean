import DotTarget.Lexical.Matcher
import DotTarget.Lexical.Upward
import Mathlib.Data.List.Chain
import Mathlib.Data.List.Induction

set_option autoImplicit false

/-! # Well-lexed documents

A document read from left to right is a stream of lexemes: plain characters, brackets, string
literals that are closed on their row, and row ends, each with the comment before it. The types
hold only well-formed lexemes, and `WellLexed` says which of them may stand side by side.
`layout` sets a stream out in rows and notes where its brackets stand; `IsLexing` ties that to a
document cut at a place.

The main result here is about comments: what a backward search sees of a well-lexed document is
its rows without their comments (`IsLexing.upward_eq`). -/

namespace DotTarget

/-! ## Lexemes -/

/-- A piece of the inside of a string literal. -/
inductive Item where
  /-- A character that stands for itself. -/
  | char (c : Char)
  /-- A backslash and the character it escapes. -/
  | escape (c : Char)
  deriving DecidableEq, Repr

namespace Item

def text : Item → Text
  | char c => [c]
  | escape c => ['\\', c]

/-- The characters of several items. -/
def texts (items : List Item) : Text :=
  items.flatMap text

@[simp] theorem texts_nil : texts [] = [] := rfl

@[simp] theorem texts_cons (item : Item) (items : List Item) :
    texts (item :: items) = item.text ++ texts items := by
  simp [texts]

@[simp] theorem texts_append (front back : List Item) :
    texts (front ++ back) = texts front ++ texts back := by
  simp [texts]

end Item

/-- A string literal that is closed on its row; a `long` one is delimited by triple quotes. -/
structure Literal where
  quote : Char
  long : Bool
  body : List Item
  quote_isQuote : isQuote quote = true
  bare_ne_backslash : .char '\\' ∉ body
  short_body : long = false → .char quote ∉ body
  long_body : long = true → body.head? ≠ some (.char quote) ∧ body.getLast? ≠ some (.char quote) ∧
    ¬ [.char quote, .char quote, .char quote] <:+: body

namespace Literal

/-- The quotes at either end. -/
def delimiter (l : Literal) : Text :=
  if l.long then [l.quote, l.quote, l.quote] else [l.quote]

def text (l : Literal) : Text :=
  l.delimiter ++ (Item.texts l.body ++ l.delimiter)

end Literal

/-- A character that is a lexeme of its own and no bracket. -/
def isPlain (c : Char) : Bool :=
  !isQuote c && !isOpener c && !isCloser c && c ≠ '#'

def isBracket (c : Char) : Bool :=
  isOpener c || isCloser c

/-- What holds of no delimiter holds of plain characters only. -/
theorem isPlain_of {p : Char → Bool}
    (hp : ['\'', '"', '(', '[', '{', ')', ']', '}', '#'].all (fun d => !p d) = true) {c : Char}
    (h : p c = true) : isPlain c = true := by
  by_contra hplain
  have hmem : c ∈ ['\'', '"', '(', '[', '{', ')', ']', '}', '#'] := by
    simp only [isPlain, isQuote, isOpener, isCloser, Bool.and_eq_true, Bool.not_eq_true',
      Bool.or_eq_false_iff, decide_eq_false_iff_not, decide_eq_true_eq] at hplain
    simp only [List.mem_cons, List.not_mem_nil]
    tauto
  have hnot := List.all_eq_true.1 hp c hmem
  rw [h] at hnot
  exact Bool.noConfusion hnot

theorem isQuote_of_isPlain {c : Char} (h : isPlain c = true) : isQuote c = false := by
  simp only [isPlain, Bool.and_eq_true, Bool.not_eq_true'] at h
  exact h.1.1.1

theorem isCloser_of_isPlain {c : Char} (h : isPlain c = true) : isCloser c = false := by
  simp only [isPlain, Bool.and_eq_true, Bool.not_eq_true'] at h
  exact h.1.2

theorem isCloser_of_isOpener {c : Char} (h : isOpener c = true) : isCloser c = false := by
  simp only [isOpener, Bool.or_eq_true, decide_eq_true_eq] at h
  rcases h with (rfl | rfl) | rfl <;> decide

theorem isOpener_of_isCloser {c : Char} (h : isCloser c = true) : isOpener c = false := by
  simp only [isCloser, Bool.or_eq_true, decide_eq_true_eq] at h
  rcases h with (rfl | rfl) | rfl <;> decide

inductive Lexeme where
  | plain (c : Char) (h : isPlain c = true)
  | bracket (c : Char) (h : isBracket c = true)
  | literal (l : Literal)
  /-- The end of a row, with what follows the `#` of its comment. -/
  | rowEnd (comment : Option Text)

namespace Lexeme

/-- The characters of a lexeme; the break between two rows has none. -/
def text : Lexeme → Text
  | plain c _ => [c]
  | bracket c _ => [c]
  | literal l => l.text
  | rowEnd none => []
  | rowEnd (some comment) => '#' :: comment

/-- Whether a lexeme may stand right before another one. A backslash never stands before a
literal, and two literals in the same quotes would be read as one. -/
def MayTouch : Lexeme → Lexeme → Prop
  | plain c _, literal _ => c ≠ '\\'
  | literal l, literal l' => l.quote ≠ l'.quote
  | _, _ => True

end Lexeme

/-- A stream whose lexemes may stand side by side as they do. -/
def WellLexed (stream : List Lexeme) : Prop :=
  stream.IsChain Lexeme.MayTouch

/-! ## Layout -/

/-- A stream set out in rows. Rows and brackets are listed nearest first, from the end of the
stream upward. -/
structure Layout where
  /-- The rows above the last one, with their comments. -/
  above : List Text := []
  /-- The rows above the last one, without their comments. -/
  code : List Text := []
  /-- The last row. -/
  row : Text := []
  /-- The brackets outside literals and comments, with their places. -/
  brackets : List (Position × Char) := []

namespace Layout

/-- The place behind the last lexeme. -/
def place (page : Layout) : Position :=
  ⟨page.above.length, Text.width page.row⟩

/-- Appends a lexeme. -/
def push (page : Layout) : Lexeme → Layout
  | .plain c _ => { page with row := page.row ++ [c] }
  | .bracket c _ =>
    { page with row := page.row ++ [c], brackets := (page.place, c) :: page.brackets }
  | .literal l => { page with row := page.row ++ l.text }
  | .rowEnd comment =>
    { page with
      above := (page.row ++ (Lexeme.rowEnd comment).text) :: page.above
      code := page.row :: page.code
      row := [] }

end Layout

def layout (stream : List Lexeme) : Layout :=
  stream.foldl Layout.push {}

@[simp] theorem layout_concat (s : List Lexeme) (l : Lexeme) :
    layout (s ++ [l]) = (layout s).push l := by
  simp [layout]

/-- The document cut at a place is the given stream: the rows above the place in full, then the
part of its row left of it. -/
structure IsLexing (lines : List Text) (place : Position) (s : List Lexeme) : Prop where
  wellLexed : WellLexed s
  above_eq : lines.take place.row = (layout s).above.reverse
  row_eq : ∃ line, lines[place.row]? = some line ∧ Text.cut line place.column = (layout s).row

namespace IsLexing

theorem row_eq_length {lines : List Text} {place : Position} {s : List Lexeme}
    (h : IsLexing lines place s) : place.row = (layout s).above.length := by
  obtain ⟨line, hline, -⟩ := h.row_eq
  have hlt : place.row < lines.length := (List.getElem?_eq_some_iff.1 hline).1
  have hlength := congrArg List.length h.above_eq
  rw [List.length_take, List.length_reverse] at hlength
  omega

/-- A document that starts with a stream starts with one that is shorter on its last row. -/
theorem of_row_prefix {lines : List Text} {place : Position} {s t : List Lexeme}
    (h : IsLexing lines place t) (hs : WellLexed s) (habove : (layout t).above = (layout s).above)
    (hfront : (layout s).row <+: (layout t).row) : IsLexing lines (layout s).place s := by
  have hrow := h.row_eq_length
  rw [habove] at hrow
  obtain ⟨line, hline, hcut⟩ := h.row_eq
  rw [← hcut] at hfront
  obtain ⟨rest, rfl⟩ := hfront.trans (Text.cut_prefix line place.column)
  refine ⟨hs, ?_, (layout s).row ++ rest, ?_, ?_⟩
  · rw [Layout.place, ← hrow, h.above_eq, habove]
  · rw [Layout.place, ← hrow, hline]
  · exact Text.cut_append_width _ _

/-- The place behind the stream cuts the document as the given place does. -/
theorem self {lines : List Text} {place : Position} {s : List Lexeme}
    (h : IsLexing lines place s) : IsLexing lines (layout s).place s :=
  h.of_row_prefix h.wellLexed rfl (List.prefix_refl _)

/-- A document starts with its stream less one lexeme. -/
theorem of_concat {lines : List Text} {place : Position} {s : List Lexeme} {l : Lexeme}
    (h : IsLexing lines place (s ++ [l])) : IsLexing lines (layout s).place s := by
  have hs : WellLexed s := (List.isChain_append.1 h.wellLexed).1
  cases l with
  | plain c hc => exact h.of_row_prefix hs (by simp [Layout.push]) (by simp [Layout.push])
  | bracket c hc => exact h.of_row_prefix hs (by simp [Layout.push]) (by simp [Layout.push])
  | literal l => exact h.of_row_prefix hs (by simp [Layout.push]) (by simp [Layout.push])
  | rowEnd comment =>
    -- The row that ends here is the last of the rows above, and is cut before its comment.
    have hrow := h.row_eq_length
    have habove := h.above_eq
    simp only [layout_concat, Layout.push, List.length_cons] at hrow
    simp only [layout_concat, Layout.push, List.reverse_cons, hrow] at habove
    have hlines := (List.take_append_drop ((layout s).above.length + 1) lines).symm
    rw [habove] at hlines
    refine ⟨hs, ?_, (layout s).row ++ (Lexeme.rowEnd comment).text, ?_, ?_⟩
    · rw [hlines]
      simp [Layout.place]
    · rw [hlines]
      simp [Layout.place]
    · exact Text.cut_append_width _ _

/-- A document starts with every front part of its stream. -/
theorem of_append {lines : List Text} {place : Position} {s t : List Lexeme}
    (h : IsLexing lines place (s ++ t)) : IsLexing lines (layout s).place s := by
  induction t using List.reverseRecOn generalizing place with
  | nil =>
    rw [List.append_nil] at h
    exact h.self
  | append_singleton t l ih =>
    rw [← List.append_assoc] at h
    exact ih h.of_concat

end IsLexing

/-! ## Comments

Reading forward, a literal is passed over as a whole, so the first `#` outside literals is the
one that starts the comment. -/

namespace Comment

open Item (texts)

theorem ne_backslash_of_isQuote {q : Char} (h : isQuote q = true) : q ≠ '\\' := by
  rintro rfl
  exact absurd h (by decide)

theorem stripFrom_of_ne_code {state : State} (h : state ≠ .code) (c : Char) (ahead : Text) :
    stripFrom state (c :: ahead) = c :: stripFrom (state.next c ahead) ahead := by
  rw [stripFrom, if_neg (fun hand => h hand.1)]

theorem stripFrom_escape (q : Char) (long : Bool) (c : Char) (ahead : Text) :
    stripFrom (.quoted q long) ('\\' :: c :: ahead) =
      '\\' :: c :: stripFrom (.quoted q long) ahead := by
  rw [stripFrom_of_ne_code (by simp)]
  simp only [State.next, if_true]
  rw [stripFrom_of_ne_code (by simp)]
  simp only [State.next]

theorem stripFrom_bare {q c : Char} (hbackslash : c ≠ '\\') (hquote : c ≠ q) (long : Bool)
    (ahead : Text) :
    stripFrom (.quoted q long) (c :: ahead) = c :: stripFrom (.quoted q long) ahead := by
  rw [stripFrom_of_ne_code (by simp)]
  simp [State.next, hbackslash, hquote]

/-- A literal in single quotes is left at the first quote that is not escaped. -/
theorem stripFrom_short {q : Char} (hq : isQuote q = true) {items : List Item}
    (hbackslash : .char '\\' ∉ items) (hquote : .char q ∉ items) (rest : Text) :
    stripFrom (.quoted q false) (texts items ++ q :: rest) =
      texts items ++ q :: stripFrom .code rest := by
  induction items with
  | nil =>
    rw [Item.texts_nil, List.nil_append, stripFrom_of_ne_code (by simp)]
    simp [State.next, ne_backslash_of_isQuote hq]
  | cons item items ih =>
    simp only [List.mem_cons, not_or] at hbackslash hquote
    simp only [Item.texts_cons, List.append_assoc, ← ih hbackslash.2 hquote.2]
    cases item with
    | char c =>
      have hc : c ≠ '\\' := fun h => hbackslash.1 (by rw [h])
      have hcq : c ≠ q := fun h => hquote.1 (by rw [h])
      exact stripFrom_bare hc hcq false _
    | escape c => exact stripFrom_escape q false c _

/-- Only an unescaped quote starts with the quote. -/
theorem head?_texts_append {q : Char} (hq : isQuote q = true) (item : Item) (items : List Item)
    (rest : Text) :
    (texts (item :: items) ++ rest).head? = some q ↔ item = .char q := by
  cases item with
  | char c => simp [Item.text]
  | escape c => simp [Item.text, (ne_backslash_of_isQuote hq).symm]

/-- An unescaped quote inside a literal in triple quotes is not the first of three. -/
theorem completesTriple_inside {q : Char} (hq : isQuote q = true) {items : List Item} (rest : Text)
    (hlast : (.char q :: items).getLast? ≠ some (.char q))
    (hthree : ¬ [.char q, .char q, .char q] <:+: .char q :: items) :
    completesTriple q (texts items ++ rest) = false := by
  by_contra htrue
  simp only [completesTriple, decide_eq_true_eq, Bool.not_eq_false] at htrue
  have hahead : texts items ++ rest = q :: q :: (texts items ++ rest).drop 2 := by
    rw [← List.take_append_drop 2 (texts items ++ rest), htrue]
    simp
  cases items with
  | nil => simp at hlast
  | cons first items =>
    have hfirst : first = .char q := by
      rw [← head?_texts_append hq first items rest, hahead]
      rfl
    subst hfirst
    cases items with
    | nil => simp at hlast
    | cons second items =>
      have hsecond : second = .char q := by
        rw [← head?_texts_append hq second items rest]
        exact congrArg List.head? (List.cons.inj hahead).2
      exact hthree ⟨[], items, by rw [hsecond]; rfl⟩

/-- A literal in triple quotes is left at its last three quotes. -/
theorem stripFrom_long {q : Char} (hq : isQuote q = true) {items : List Item}
    (hbackslash : .char '\\' ∉ items) (hlast : items.getLast? ≠ some (.char q))
    (hthree : ¬ [.char q, .char q, .char q] <:+: items) (rest : Text) :
    stripFrom (.quoted q true) (texts items ++ q :: q :: q :: rest) =
      texts items ++ q :: q :: q :: stripFrom .code rest := by
  induction items with
  | nil =>
    rw [Item.texts_nil, List.nil_append, stripFrom_of_ne_code (by simp)]
    simp only [State.next, ne_backslash_of_isQuote hq, if_false, if_true, Bool.not_true,
      Bool.false_eq_true, completesTriple, List.take_succ_cons, List.take_zero, decide_true]
    rw [stripFrom_of_ne_code (by simp)]
    simp only [State.next]
    rw [stripFrom_of_ne_code (by simp)]
    simp [State.next]
  | cons item items ih =>
    simp only [List.mem_cons, not_or] at hbackslash
    have hlast' : items.getLast? ≠ some (.char q) := by
      intro h
      apply hlast
      rw [List.getLast?_cons, h]
      rfl
    have hthree' : ¬ [.char q, .char q, .char q] <:+: items :=
      fun h => hthree (h.trans (List.suffix_cons _ _).isInfix)
    simp only [Item.texts_cons, List.append_assoc, ← ih hbackslash.2 hlast' hthree']
    cases item with
    | char c =>
      have hc : c ≠ '\\' := fun h => hbackslash.1 (by rw [h])
      by_cases hcq : c = q
      · subst hcq
        have hnot := completesTriple_inside hq (c :: c :: c :: rest) hlast hthree
        simp only [Item.text, List.cons_append, List.nil_append]
        rw [stripFrom_of_ne_code (by simp)]
        simp [State.next, hc, hnot]
      · exact stripFrom_bare hc hcq true _
    | escape c => exact stripFrom_escape q true c _

/-- A literal is passed over, unless its quote follows and makes it another one. -/
theorem stripFrom_literal (l : Literal) {rest : Text} (hrest : rest.head? ≠ some l.quote) :
    stripFrom .code (l.text ++ rest) = l.text ++ stripFrom .code rest := by
  have hq := l.quote_isQuote
  have hhash : l.quote ≠ '#' := by
    intro h
    rw [h] at hq
    exact absurd hq (by decide)
  cases hlong : l.long with
  | true =>
    obtain ⟨-, hlast, hthree⟩ := l.long_body hlong
    have hbody := stripFrom_long hq l.bare_ne_backslash hlast hthree rest
    simp only [Literal.text, Literal.delimiter, hlong, if_true, List.cons_append, List.nil_append,
      List.append_assoc]
    rw [stripFrom, if_neg (fun h => hhash h.2)]
    simp only [State.next, hq, if_true, completesTriple, List.take_succ_cons, List.take_zero,
      decide_true]
    rw [stripFrom_of_ne_code (by simp)]
    simp only [State.next]
    rw [stripFrom_of_ne_code (by simp)]
    simpa [State.next] using hbody
  | false =>
    have hquote := l.short_body hlong
    have hbody := stripFrom_short hq l.bare_ne_backslash hquote rest
    -- The first quote is not taken for a triple quote, also when the literal is empty.
    have htriple : completesTriple l.quote (texts l.body ++ l.quote :: rest) = false := by
      cases hitems : l.body with
      | nil => cases rest <;> simp_all [completesTriple]
      | cons item items =>
        have hne : (texts (item :: items) ++ l.quote :: rest).head? ≠ some l.quote := by
          rw [Ne, head?_texts_append hq]
          rintro rfl
          rw [hitems] at hquote
          exact hquote List.mem_cons_self
        cases htext : texts (item :: items) ++ l.quote :: rest with
        | nil => rfl
        | cons c ahead =>
          rw [htext] at hne
          simp only [List.head?_cons, ne_eq, Option.some.injEq] at hne
          cases ahead <;> simp [completesTriple, hne]
    simp only [Literal.text, Literal.delimiter, hlong, Bool.false_eq_true, if_false,
      List.cons_append, List.nil_append, List.append_assoc]
    rw [stripFrom, if_neg (fun h => hhash h.2)]
    simpa [State.next, hq, htriple] using hbody

end Comment

namespace Lexeme

/-- Whether a text may follow a lexeme without changing how it is read. -/
def Allows (rest : Text) : Lexeme → Prop
  | literal l => rest.head? ≠ some l.quote
  | _ => True

theorem allows_rowEnd (l : Lexeme) (comment : Option Text) : l.Allows (rowEnd comment).text := by
  cases l with
  | plain c hc => trivial
  | bracket c hc => trivial
  | rowEnd _ => trivial
  | literal l =>
    have hq := l.quote_isQuote
    cases comment with
    | none => simp [Allows, text]
    | some comment =>
      simp only [Allows, text, List.head?_cons, ne_eq, Option.some.injEq]
      intro h
      rw [← h] at hq
      exact absurd hq (by decide)

/-- What may stand behind a lexeme does not change how it is read. -/
theorem allows_of_mayTouch {a b : Lexeme} (h : a.MayTouch b) (hb : b.text ≠ []) (rest : Text) :
    a.Allows (b.text ++ rest) := by
  cases a with
  | plain c hc => trivial
  | bracket c hc => trivial
  | rowEnd comment => trivial
  | literal l =>
    have hq := l.quote_isQuote
    cases b with
    | plain c hc =>
      simp only [Allows, text, List.cons_append, List.head?_cons, ne_eq, Option.some.injEq]
      rintro rfl
      simp [isPlain, hq] at hc
    | bracket c hc =>
      simp only [Allows, text, List.cons_append, List.head?_cons, ne_eq, Option.some.injEq]
      rintro rfl
      simp [isBracket, isOpener, isCloser, isQuote] at hc hq
      rcases hq with hq | hq <;> simp [hq] at hc
    | literal l' =>
      have hne : l.quote ≠ l'.quote := h
      cases hlong : l'.long <;>
        simp [Allows, text, Literal.text, Literal.delimiter, hlong, hne.symm]
    | rowEnd comment =>
      cases comment with
      | none => exact absurd rfl hb
      | some comment => exact (literal l).allows_rowEnd (some (comment ++ rest))

/-- A plain character or a bracket is passed over outside literals. -/
theorem stripFrom_cons {c : Char} (hquote : isQuote c = false) (hhash : c ≠ '#') (rest : Text) :
    Comment.stripFrom .code (c :: rest) = c :: Comment.stripFrom .code rest := by
  rw [Comment.stripFrom, if_neg (fun h => hhash h.2)]
  simp [Comment.State.next, hquote]

theorem isQuote_of_isBracket {c : Char} (h : isBracket c = true) : isQuote c = false ∧ c ≠ '#' := by
  simp only [isBracket, isOpener, isCloser, Bool.or_eq_true, decide_eq_true_eq] at h
  rcases h with ((rfl | rfl) | rfl) | ((rfl | rfl) | rfl) <;> decide

end Lexeme

namespace WellLexed

/-- The last row of a stream is read to its end as program text. -/
theorem stripFrom_row {s : List Lexeme} (h : WellLexed s) (rest : Text)
    (hrest : ∀ l ∈ s.getLast?, l.Allows rest) :
    Comment.stripFrom .code ((layout s).row ++ rest) =
      (layout s).row ++ Comment.stripFrom .code rest := by
  induction s using List.reverseRecOn generalizing rest with
  | nil => rfl
  | append_singleton s l ih =>
    obtain ⟨hs, -, htouch⟩ := List.isChain_append.1 h
    have hl : l.Allows rest := hrest l (by simp)
    -- A token is read after the row before it, which allows it.
    have token (hrow : (layout (s ++ [l])).row = (layout s).row ++ l.text) (htext : l.text ≠ [])
        (hread : Comment.stripFrom .code (l.text ++ rest) =
          l.text ++ Comment.stripFrom .code rest) :
        Comment.stripFrom .code ((layout (s ++ [l])).row ++ rest) =
          (layout (s ++ [l])).row ++ Comment.stripFrom .code rest := by
      rw [hrow, List.append_assoc, ih hs (l.text ++ rest), hread, List.append_assoc]
      intro a ha
      exact Lexeme.allows_of_mayTouch (htouch a ha l (by simp)) htext rest
    cases l with
    | plain c hc =>
      have hplain : isQuote c = false ∧ c ≠ '#' := by
        simp only [isPlain, Bool.and_eq_true, Bool.not_eq_true', decide_eq_true_eq] at hc
        exact ⟨hc.1.1.1, hc.2⟩
      exact token (by simp [Layout.push, Lexeme.text]) (by simp [Lexeme.text])
        (Lexeme.stripFrom_cons hplain.1 hplain.2 rest)
    | bracket c hc =>
      have hbracket := Lexeme.isQuote_of_isBracket hc
      exact token (by simp [Layout.push, Lexeme.text]) (by simp [Lexeme.text])
        (Lexeme.stripFrom_cons hbracket.1 hbracket.2 rest)
    | literal l =>
      refine token (by simp [Layout.push, Lexeme.text]) ?_ (Comment.stripFrom_literal l hl)
      cases hlong : l.long <;> simp [Lexeme.text, Literal.text, Literal.delimiter, hlong]
    | rowEnd comment => simp [Layout.push]

/-- The last row of a stream holds no comment. -/
theorem strip_row {s : List Lexeme} (h : WellLexed s) :
    Comment.strip (layout s).row = (layout s).row := by
  have hrow := h.stripFrom_row [] fun l _ => l.allows_rowEnd none
  simpa [Comment.strip, Comment.stripFrom] using hrow

/-- Stripping the comments of the rows above leaves their program text. -/
theorem map_strip_above {s : List Lexeme} (h : WellLexed s) :
    (layout s).above.map Comment.strip = (layout s).code := by
  induction s using List.reverseRecOn with
  | nil => rfl
  | append_singleton s l ih =>
    have hs : WellLexed s := (List.isChain_append.1 h).1
    cases l with
    | plain c hc => simpa [Layout.push] using ih hs
    | bracket c hc => simpa [Layout.push] using ih hs
    | literal l => simpa [Layout.push] using ih hs
    | rowEnd comment =>
      have hcomment : Comment.stripFrom .code (Lexeme.rowEnd comment).text = [] := by
        cases comment <;> simp [Lexeme.text, Comment.stripFrom]
      have hrow := hs.stripFrom_row _ fun l _ => l.allows_rowEnd comment
      simp [Layout.push, ih hs, Comment.strip, hrow, hcomment]

theorem length_code {s : List Lexeme} (h : WellLexed s) :
    (layout s).code.length = (layout s).above.length := by
  rw [← h.map_strip_above, List.length_map]

end WellLexed

/-! ## What a backward search sees -/

/-- Rows given from the last to the first, with their numbers. -/
def numbered : List Text → List (Nat × Text)
  | [] => []
  | row :: above => (above.length, row) :: numbered above

theorem numbered_map (f : Text → Text) (rows : List Text) :
    numbered (rows.map f) = (numbered rows).map fun (number, text) => (number, f text) := by
  induction rows with
  | nil => rfl
  | cons row above ih => simp [numbered, ih]

theorem rowsAbove_eq_numbered {lines : List Text} {row : Nat} {above : List Text}
    (h : lines.take row = above.reverse) : rowsAbove lines row = numbered above := by
  rw [rowsAbove, h]
  clear h
  induction above with
  | nil => rfl
  | cons first above ih =>
    simp only [List.reverse_cons, List.zipIdx_append, List.map_append, List.reverse_append, ih]
    simp [numbered]

/-- **A backward search sees the program text of a well-lexed document**, row by row, and nothing
of its comments. -/
theorem IsLexing.upward_eq {lines : List Text} {place : Position} {s : List Lexeme}
    (h : IsLexing lines place s) :
    upward lines place = numbered ((layout s).row :: (layout s).code) := by
  obtain ⟨line, hline, hcut⟩ := h.row_eq
  rw [upward, hline]
  simp only [hcut, h.wellLexed.strip_row, numbered, h.wellLexed.length_code, ← h.row_eq_length]
  rw [rowsAbove_eq_numbered h.above_eq, ← numbered_map, h.wellLexed.map_strip_above]

end DotTarget
