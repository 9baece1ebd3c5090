import DotTarget.Lexical.Search
import DotTarget.Proofs.Lexical.Lexeme

set_option autoImplicit false

/-! # Backward reading agrees with forward lexing

Read from right to left, a quote tells what it is only by what stands to its left: how many
backslashes, and whether two more quotes. On well-lexed rows that look-behind always decides as
reading forward did. A literal is entered at its last quote and left at its first
(`passes_literal`), so a search through a well-lexed document meets exactly the brackets of its
stream, in reverse order (`seek_eq_pair`). -/

namespace DotTarget

open Item (texts)

/-! ## Looking behind -/

theorem escapeRun_cons_of_ne {c : Char} (h : c ≠ '\\') (left : Text) :
    escapeRun (c :: left) = 0 := by
  simp [escapeRun, h]

theorem escapeRun_backslash (left : Text) : escapeRun ('\\' :: left) = escapeRun left + 1 := by
  simp [escapeRun]

theorem escapeRun_eq_zero {left : Text} (h : left.head? ≠ some '\\') : escapeRun left = 0 := by
  cases left with
  | nil => rfl
  | cons c left => exact escapeRun_cons_of_ne (fun hc => h (by rw [hc]; rfl)) left

theorem reverse_texts_char (items : List Item) (c : Char) (left : Text) :
    (texts (items ++ [.char c])).reverse ++ left = c :: ((texts items).reverse ++ left) := by
  simp [Item.text]

theorem reverse_texts_escape (items : List Item) (c : Char) (left : Text) :
    (texts (items ++ [.escape c])).reverse ++ left =
      c :: '\\' :: ((texts items).reverse ++ left) := by
  simp [Item.text]

/-- The backslashes at the end of a literal's inside escape each other in pairs. -/
theorem escapeRun_texts_even {q : Char} (hq : isQuote q = true) {items : List Item}
    (hbackslash : .char '\\' ∉ items) (left : Text) :
    escapeRun ((texts items).reverse ++ q :: left) % 2 = 0 := by
  induction items using List.reverseRecOn with
  | nil => rw [texts, List.flatMap_nil, List.reverse_nil, List.nil_append,
      escapeRun_cons_of_ne (Comment.ne_backslash_of_isQuote hq)]
  | append_singleton items item ih =>
    simp only [List.mem_append, List.mem_singleton, not_or] at hbackslash
    have ih' := ih hbackslash.1
    cases item with
    | char c =>
      have hc : c ≠ '\\' := fun h => hbackslash.2 (by rw [h])
      rw [reverse_texts_char, escapeRun_cons_of_ne hc]
    | escape c =>
      rw [reverse_texts_escape]
      by_cases hc : c = '\\'
      · rw [hc, escapeRun_backslash, escapeRun_backslash]
        omega
      · rw [escapeRun_cons_of_ne hc]

theorem endsTriple_cons_of_ne {q a : Char} (h : a ≠ q) (left : Text) :
    endsTriple q (a :: left) = false := by
  cases left <;> simp [endsTriple, h]

theorem endsTriple_cons_cons_of_ne {q a b : Char} (h : b ≠ q) (left : Text) :
    endsTriple q (a :: b :: left) = false := by
  simp [endsTriple, h]

/-- A quote inside a literal in triple quotes is not the last of an unescaped triple quote. -/
theorem endsTriple_inside {q : Char} (hq : isQuote q = true) {items : List Item}
    (hbackslash : .char '\\' ∉ items) (hfirst : (items ++ [Item.char q]).head? ≠ some (.char q))
    (hthree : ¬ [Item.char q, .char q, .char q] <:+: items ++ [.char q]) (left : Text) :
    endsTriple q ((texts items).reverse ++ q :: left) = false := by
  have hne := Comment.ne_backslash_of_isQuote hq
  -- The two characters before the quote are quotes only if the nearer one is bare and the other one
  -- is bare or escaped. Bare, it makes three in a row; escaped, it has an odd run before it.
  rcases List.eq_nil_or_concat' items with rfl | ⟨items, item, rfl⟩
  · simp at hfirst
  cases item with
  | escape c => rw [reverse_texts_escape, endsTriple_cons_cons_of_ne hne.symm]
  | char c =>
    rw [reverse_texts_char]
    by_cases hc : c = q
    · subst hc
      rcases List.eq_nil_or_concat' items with rfl | ⟨items, item, rfl⟩
      · simp at hfirst
      cases item with
      | char d =>
        rw [reverse_texts_char]
        by_cases hd : d = c
        · subst hd
          exact absurd ⟨items, [], by simp⟩ hthree
        · rw [endsTriple_cons_cons_of_ne hd]
      | escape d =>
        rw [reverse_texts_escape]
        by_cases hd : d = c
        · subst hd
          have hbackslash' : .char '\\' ∉ items := fun h => hbackslash (by simp [h])
          have heven := escapeRun_texts_even hq hbackslash' left
          have hodd : escapeRun ('\\' :: ((texts items).reverse ++ d :: left)) % 2 = 1 := by
            rw [escapeRun_backslash]
            omega
          simp [endsTriple, hodd]
        · rw [endsTriple_cons_cons_of_ne hd]
    · rw [endsTriple_cons_of_ne hc]

/-- The last quote of a literal in single quotes is not the last of a triple quote, unless the
literal is empty and another quote of its kind stands before it. -/
theorem endsTriple_short {q : Char} (hq : isQuote q = true) {items : List Item}
    (hbody : .char q ∉ items) {left : Text} (htouch : items = [] → left.head? ≠ some q) :
    endsTriple q ((texts items).reverse ++ q :: left) = false := by
  have hne := Comment.ne_backslash_of_isQuote hq
  rcases List.eq_nil_or_concat' items with rfl | ⟨items, item, rfl⟩
  · cases left with
    | nil => simp [endsTriple]
    | cons c left => exact endsTriple_cons_cons_of_ne (fun h => htouch rfl (by rw [h]; rfl)) left
  · cases item with
    | char c =>
      have hc : c ≠ q := fun h => hbody (by simp [h])
      rw [reverse_texts_char, endsTriple_cons_of_ne hc]
    | escape c => rw [reverse_texts_escape, endsTriple_cons_cons_of_ne hne.symm]

namespace Matcher

/-! ## Stretches of a row -/

/-- Feeds the characters of a stretch of a row from its last to its first, given in that order, with
the characters `left` before the stretch, nearest first. Gives the matcher reached and what each
character did. -/
def feedAll : Matcher → Text → Text → Matcher × List Step
  | m, [], _ => (m, [])
  | m, c :: stretch, left =>
    let (m', step) := m.feed (stretch ++ left) c
    let (m'', steps) := feedAll m' stretch left
    (m'', step :: steps)

/-- Feeding a stretch leads from one matcher to another, and none of its characters pairs or misses
a bracket. -/
def Passes (m : Matcher) (stretch left : Text) (m' : Matcher) : Prop :=
  m.feedAll stretch left = (m', List.replicate stretch.length .more)

section Stretches

variable {m m' m'' : Matcher} {c : Char} {stretch left : Text}

theorem passes_nil_iff : Passes m [] left m' ↔ m = m' := by
  simp [Passes, feedAll]

theorem passes_cons_iff :
    Passes m (c :: stretch) left m' ↔
      (m.feed (stretch ++ left) c).2 = .more ∧
        Passes (m.feed (stretch ++ left) c).1 stretch left m' := by
  simp only [Passes, feedAll, List.length_cons, List.replicate_succ, Prod.mk.injEq,
    List.cons.injEq]
  rw [Prod.ext_iff]
  exact and_left_comm

theorem Passes.cons (h : m.feed (stretch ++ left) c = (m', .more))
    (hrest : Passes m' stretch left m'') : Passes m (c :: stretch) left m'' := by
  rw [passes_cons_iff, h]
  exact ⟨rfl, hrest⟩

theorem Passes.single (h : m.feed left c = (m', .more)) : Passes m [c] left m' :=
  .cons h (passes_nil_iff.2 rfl)

/-- A stretch is fed part by part. -/
theorem passes_append_iff {more : Text} :
    Passes m (stretch ++ more) left m' ↔
      ∃ between, Passes m stretch (more ++ left) between ∧ Passes between more left m' := by
  induction stretch generalizing m with
  | nil => simp [passes_nil_iff]
  | cons c stretch ih =>
    simp only [List.cons_append, passes_cons_iff, ih, List.append_assoc, and_assoc,
      exists_and_left]

theorem Passes.append {more : Text} (h : Passes m stretch (more ++ left) m')
    (hmore : Passes m' more left m'') : Passes m (stretch ++ more) left m'' :=
  passes_append_iff.2 ⟨m', h, hmore⟩

theorem Passes.unique (h : Passes m stretch left m') (h' : Passes m stretch left m'') :
    m' = m'' :=
  congrArg Prod.fst (h.symm.trans h')

/-- A search goes on behind a stretch in which it finds nothing. -/
theorem Passes.seekRow_eq {goal : Step} (hgoal : goal ≠ .more) (h : Passes m stretch left m') :
    seekRow goal m (stretch ++ left) = seekRow goal m' left := by
  induction stretch generalizing m with
  | nil =>
    rw [passes_nil_iff.1 h]
    rfl
  | cons c stretch ih =>
    obtain ⟨hstep, hrest⟩ := passes_cons_iff.1 h
    rw [List.cons_append, seekRow_cons, hstep, if_neg (fun h => hgoal h.symm), ih hrest]

end Stretches

/-! ## Literals -/

section Literals

variable {pending : List Char} {n : Nat} {q : Char}

/-- The other two characters of a triple quote are passed over. -/
theorem passes_skip_two (mode : Mode) (c d : Char) (left : Text) :
    Passes ⟨mode, pending, n, 2⟩ [c, d] left ⟨mode, pending, n, 0⟩ := by
  have hfirst : feed ⟨mode, pending, n, 2⟩ (d :: left) c = (⟨mode, pending, n, 1⟩, .more) := by
    simp [feed, advance]
  refine .cons hfirst (.single ?_)
  simp [feed, advance]

/-- Inside a literal in single quotes, a character other than its quote changes nothing. -/
theorem feed_string_of_ne {c : Char} (hc : c ≠ q) (left : Text) :
    feed ⟨.string q, pending, n, 0⟩ left c = (⟨.string q, pending, n, 0⟩, .more) := by
  simp [feed, advance, hc]

/-- Backslashes that escape a quote are passed over like any other character of the literal. -/
theorem passes_escape_iff (hq : isQuote q = true) {k : Nat} {stretch left : Text} {m' : Matcher}
    (hpos : 0 < k) (hk : k ≤ escapeRun stretch) :
    Passes ⟨.escape q k, pending, n, 0⟩ stretch left m' ↔
      Passes ⟨.string q, pending, n, 0⟩ stretch left m' := by
  have hne := Comment.ne_backslash_of_isQuote hq
  induction stretch generalizing k with
  | nil =>
    simp [escapeRun] at hk
    omega
  | cons c stretch ih =>
    by_cases hc : c = '\\'
    · subst hc
      rw [escapeRun_backslash] at hk
      rw [passes_cons_iff, passes_cons_iff, feed_string_of_ne hne.symm]
      by_cases hone : k ≤ 1
      · simp [feed, advance, hone]
      · simpa [feed, advance, hone] using ih (k := k - 1) (by omega) (by omega)
    · rw [escapeRun_cons_of_ne hc] at hk
      omega

/-- An escape run ends at the latest where a literal begins. -/
theorem escapeRun_append_quote (hq : isQuote q = true) (stretch left : Text) :
    escapeRun (stretch ++ q :: left) = escapeRun stretch := by
  induction stretch with
  | nil => exact escapeRun_cons_of_ne (Comment.ne_backslash_of_isQuote hq) left
  | cons c stretch ih =>
    by_cases hc : c = '\\'
    · subst hc
      rw [List.cons_append, escapeRun_backslash, escapeRun_backslash, ih]
    · rw [List.cons_append, escapeRun_cons_of_ne hc, escapeRun_cons_of_ne hc]

/-- The inside of a literal in single quotes is passed over. -/
theorem passes_short (hq : isQuote q = true) {items : List Item} (hbackslash : .char '\\' ∉ items)
    (hquote : .char q ∉ items) (left : Text) :
    Passes ⟨.string q, pending, n, 0⟩ (texts items).reverse (q :: left)
      ⟨.string q, pending, n, 0⟩ := by
  have hne := Comment.ne_backslash_of_isQuote hq
  induction items using List.reverseRecOn with
  | nil => exact passes_nil_iff.2 rfl
  | append_singleton items item ih =>
    simp only [List.mem_append, List.mem_singleton, not_or] at hbackslash hquote
    have hrest := ih hbackslash.1 hquote.1
    rw [Item.texts_append, List.reverse_append]
    cases item with
    | char c =>
      have hc : c ≠ q := fun h => hquote.2 (by rw [h])
      exact .cons (feed_string_of_ne hc _) hrest
    | escape c =>
      have hbehind : Passes ⟨.string q, pending, n, 0⟩ ('\\' :: (texts items).reverse) (q :: left)
          ⟨.string q, pending, n, 0⟩ := .cons (feed_string_of_ne hne.symm _) hrest
      by_cases hc : c = q
      · subst hc
        have heven := escapeRun_texts_even hq hbackslash.1 left
        have hrun : escapeRun ('\\' :: ((texts items).reverse ++ c :: left)) =
            escapeRun ('\\' :: (texts items).reverse) :=
          escapeRun_append_quote hq ('\\' :: (texts items).reverse) left
        have hodd : escapeRun ('\\' :: (texts items).reverse) % 2 = 1 := by
          rw [escapeRun_append_quote hq] at heven
          rw [escapeRun_backslash]
          omega
        have hpos : 0 < escapeRun ('\\' :: (texts items).reverse) := by
          omega
        refine .cons ?_ ((passes_escape_iff hq hpos (Nat.le_refl _)).2 hbehind)
        simp [feed, advance, hrun, hodd]
      · exact .cons (feed_string_of_ne hc _) hbehind

/-- Inside a literal in triple quotes, only the last of a triple quote changes anything. -/
theorem feed_triple_of_ne {c : Char} {left : Text} (hc : c ≠ q ∨ endsTriple c left = false) :
    feed ⟨.triple q, pending, n, 0⟩ left c = (⟨.triple q, pending, n, 0⟩, .more) := by
  rcases hc with hc | hc <;> simp [feed, advance, hc]

/-- The inside of a literal in triple quotes is passed over. -/
theorem passes_long (hq : isQuote q = true) {items : List Item} (hbackslash : .char '\\' ∉ items)
    (hfirst : items.head? ≠ some (.char q)) (hthree : ¬ [.char q, .char q, .char q] <:+: items)
    (left : Text) :
    Passes ⟨.triple q, pending, n, 0⟩ (texts items).reverse (q :: left)
      ⟨.triple q, pending, n, 0⟩ := by
  have hne := Comment.ne_backslash_of_isQuote hq
  induction items using List.reverseRecOn with
  | nil => exact passes_nil_iff.2 rfl
  | append_singleton items item ih =>
    have hfirst' : items.head? ≠ some (.char q) := by
      intro h
      apply hfirst
      rw [List.head?_append, h]
      rfl
    have hthree' : ¬ [.char q, .char q, .char q] <:+: items :=
      fun h => hthree (h.trans (List.prefix_append _ _).isInfix)
    simp only [List.mem_append, List.mem_singleton, not_or] at hbackslash
    have hrest := ih hbackslash.1 hfirst' hthree'
    rw [Item.texts_append, List.reverse_append]
    cases item with
    | char c =>
      refine .cons (feed_triple_of_ne ?_) hrest
      by_cases hc : c = q
      · subst hc
        exact .inr (endsTriple_inside hq hbackslash.1 hfirst hthree left)
      · exact .inl hc
    | escape c =>
      refine .cons (feed_triple_of_ne ?_) (.cons (feed_triple_of_ne (.inl hne.symm)) hrest)
      by_cases hc : c = q
      · subst hc
        exact .inr (endsTriple_cons_of_ne hne.symm _)
      · exact .inl hc

/-- Outside literals a quote opens one: in triple quotes if it is the last of three. -/
theorem feed_quote (hq : isQuote q = true) (left : Text) :
    feed ⟨.code, pending, n, 0⟩ left q =
      (if endsTriple q left then ⟨.triple q, pending, n, 2⟩ else ⟨.string q, pending, n, 0⟩,
        .more) := by
  have hbracket : isCloser q = false ∧ isOpener q = false := by
    simp only [isQuote, Bool.or_eq_true, decide_eq_true_eq] at hq
    rcases hq with rfl | rfl <;> decide
  cases htriple : endsTriple q left <;> simp [feed, advance, feedCode, hbracket, hq, htriple]

section Quoted

variable (hq : isQuote q = true) {items : List Item} (hbackslash : .char '\\' ∉ items) {left : Text}
  (hleft : left.head? ≠ some '\\')

include hq hbackslash hleft

/-- What stands between single quotes is passed over together with the quotes. -/
theorem passes_shortQuoted (hbody : .char q ∉ items) (htouch : items = [] → left.head? ≠ some q) :
    Passes ⟨.code, pending, n, 0⟩ (q :: ((texts items).reverse ++ [q])) left
      ⟨.code, pending, n, 0⟩ := by
  have hlast : feed ⟨.code, pending, n, 0⟩ ((texts items).reverse ++ q :: left) q =
      (⟨.string q, pending, n, 0⟩, .more) := by
    simp [feed_quote hq, endsTriple_short hq hbody htouch]
  have hfirst : feed ⟨.string q, pending, n, 0⟩ left q = (⟨.code, pending, n, 0⟩, .more) := by
    simp [feed, advance, escapeRun_eq_zero hleft]
  refine .cons ?_ ((passes_short hq hbackslash hbody left).append (.single hfirst))
  rw [List.append_assoc]
  exact hlast

/-- What stands between triple quotes is passed over together with the quotes, unless it begins with
a quote. Both triple quotes are seen at their last quote: nothing escapes them, as the backslashes
of the inside come in pairs and none stands before the literal. -/
theorem passes_longQuoted (hfirst : items.head? ≠ some (.char q))
    (hthree : ¬ [.char q, .char q, .char q] <:+: items) :
    Passes ⟨.code, pending, n, 0⟩ (q :: q :: q :: ((texts items).reverse ++ [q, q, q])) left
      ⟨.code, pending, n, 0⟩ := by
  have heven := escapeRun_texts_even hq hbackslash (q :: q :: left)
  have hclose : feed ⟨.code, pending, n, 0⟩
      (q :: q :: ((texts items).reverse ++ q :: q :: q :: left)) q =
        (⟨.triple q, pending, n, 2⟩, .more) := by
    simp [feed_quote hq, endsTriple, heven]
  have hopen : feed ⟨.triple q, pending, n, 0⟩ (q :: q :: left) q =
      (⟨.code, pending, n, 2⟩, .more) := by
    simp [feed, advance, endsTriple, escapeRun_eq_zero hleft]
  have hbody := (passes_long hq hbackslash hfirst hthree (q :: q :: left)).append
    (.cons hopen (passes_skip_two _ _ _ left))
  refine .cons ?_ ((passes_skip_two (.triple q) q q _).append hbody)
  simpa using hclose

end Quoted

/-- **A literal is passed over as a whole**, unless a backslash or another quote of its kind stands
before it. -/
theorem passes_literal (l : Literal) {left : Text} (hbackslash : left.head? ≠ some '\\')
    (hquote : left.head? ≠ some l.quote) :
    Passes ⟨.code, pending, n, 0⟩ l.text.reverse left ⟨.code, pending, n, 0⟩ := by
  cases hlong : l.long with
  | false =>
    have htext : l.text.reverse = l.quote :: ((texts l.body).reverse ++ [l.quote]) := by
      simp [Literal.text, Literal.delimiter, hlong]
    rw [htext]
    exact passes_shortQuoted l.quote_isQuote l.bare_ne_backslash hbackslash (l.short_body hlong)
      fun _ => hquote
  | true =>
    obtain ⟨hfirst, -, hthree⟩ := l.long_body hlong
    have htext : l.text.reverse = l.quote :: l.quote :: l.quote ::
        ((texts l.body).reverse ++ [l.quote, l.quote, l.quote]) := by
      simp [Literal.text, Literal.delimiter, hlong]
    rw [htext]
    exact passes_longQuoted l.quote_isQuote l.bare_ne_backslash hbackslash hfirst hthree

end Literals

/-! ## Streams -/

/-- Feeds brackets, given from the last to the first with their places, until one of them does what
`goal` says. -/
def pair (goal : Step) : Matcher → List (Position × Char) → Matcher × Option Position
  | m, [] => (m, none)
  | m, (place, c) :: above =>
    if (m.feedCode c false).2 = goal then ((m.feedCode c false).1, some place)
    else pair goal (m.feedCode c false).1 above

theorem feedCode_closer {c : Char} (h : isCloser c = true) (pending : List Char) (n : Nat) :
    feedCode ⟨.code, pending, n, 0⟩ c false = (⟨.code, c :: pending, n, 0⟩, .more) := by
  simp [feedCode, h]

theorem feedCode_opener {c : Char} (h : isOpener c = true) (closer : Char) (rest : List Char)
    (n : Nat) :
    feedCode ⟨.code, closer :: rest, n, 0⟩ c false =
      (⟨.code, rest, n + (if openerOf? closer = some c then 0 else 1), 0⟩,
        if rest.isEmpty then .balanced else .more) := by
  simp [feedCode, isCloser_of_isOpener h, h, feedOpener]

/-- A bracket outside literals leaves the matcher outside literals, whatever quotes stand before
it. -/
theorem feedCode_bracket {c : Char} (h : isBracket c = true) (pending : List Char) (n : Nat) :
    ∃ pending' n' step, ∀ triple, feedCode ⟨.code, pending, n, 0⟩ c triple =
      (⟨.code, pending', n', 0⟩, step) := by
  simp only [isBracket, Bool.or_eq_true] at h
  unfold feedCode
  by_cases hcloser : isCloser c = true
  · exact ⟨_, _, _, fun triple => by rw [if_pos hcloser]⟩
  · simp only [if_neg hcloser, if_pos (h.resolve_right hcloser)]
    cases pending with
    | nil => exact ⟨_, _, _, fun _ => rfl⟩
    | cons closer rest => exact ⟨_, _, _, fun _ => rfl⟩

/-- The last character of a row neither escapes nor extends a literal that may follow it. -/
theorem head?_reverse_row {s : List Lexeme} {l : Literal}
    (h : ∀ a ∈ s.getLast?, a.MayTouch (.literal l)) :
    (layout s).row.reverse.head? ≠ some '\\' ∧ (layout s).row.reverse.head? ≠ some l.quote := by
  have hq := l.quote_isQuote
  have hne := Comment.ne_backslash_of_isQuote hq
  rcases List.eq_nil_or_concat s with rfl | ⟨s, a, rfl⟩
  · exact ⟨by simp [layout], by simp [layout]⟩
  have ha : a.MayTouch (.literal l) := h a (by simp)
  cases a with
  | plain c hc =>
    have hc' : c ≠ '\\' := ha
    have hcq : c ≠ l.quote := by
      rintro rfl
      simp [isPlain, hq] at hc
    simp [Layout.push, hc', hcq]
  | bracket c hc =>
    have hc' : c ≠ '\\' := by
      rintro rfl
      exact absurd hc (by decide)
    have hcq : c ≠ l.quote := by
      rintro rfl
      simp [Lexeme.isQuote_of_isBracket hc] at hq
    simp [Layout.push, hc', hcq]
  | literal l' =>
    have hne' := Comment.ne_backslash_of_isQuote l'.quote_isQuote
    have hqq : l'.quote ≠ l.quote := ha
    cases hlong : l'.long <;>
      simp [Layout.push, Literal.text, Literal.delimiter, hlong, hne', hqq]
  | rowEnd comment => simp [Layout.push]

theorem seek_of_seekRow_eq {goal : Step} {m m' : Matcher} {text text' : Text}
    (h : seekRow goal m text.reverse = seekRow goal m' text'.reverse) (row : Nat)
    (above : List (Nat × Text)) :
    seek goal m ((row, text) :: above) = seek goal m' ((row, text') :: above) := by
  rw [seek, seek, h]

/-- **A backward search through a well-lexed document meets the brackets of its stream**, from the
last to the first, and nothing else that matters to it. -/
theorem seek_eq_pair {goal : Step} (hgoal : goal ≠ .more) {s : List Lexeme} (h : WellLexed s)
    (pending : List Char) (n : Nat) :
    seek goal ⟨.code, pending, n, 0⟩ (numbered ((layout s).row :: (layout s).code)) =
      pair goal ⟨.code, pending, n, 0⟩ (layout s).brackets := by
  induction s using List.reverseRecOn generalizing pending n with
  | nil => rfl
  | append_singleton s l ih =>
    obtain ⟨hs, -, htouch⟩ := List.isChain_append.1 h
    rw [layout_concat]
    cases l with
    | plain c hc =>
      refine Eq.trans (seek_of_seekRow_eq ?_ _ _) (ih hs pending n)
      simp only [isPlain, Bool.and_eq_true, Bool.not_eq_true'] at hc
      simp only [Layout.push, List.reverse_append, List.reverse_cons, List.reverse_nil,
        List.nil_append, List.cons_append]
      exact (Passes.single (by simp [feed, advance, feedCode, hc])).seekRow_eq hgoal
    | literal l =>
      refine Eq.trans (seek_of_seekRow_eq ?_ _ _) (ih hs pending n)
      obtain ⟨hbackslash, hquote⟩ := head?_reverse_row fun a ha => htouch a ha _ rfl
      simp only [Layout.push, List.reverse_append]
      exact (passes_literal l hbackslash hquote).seekRow_eq hgoal
    | bracket c hc =>
      -- The one lexeme that changes the matcher, and the only one that can reach the goal.
      obtain ⟨pending', n', step, hfeed⟩ := feedCode_bracket hc pending n
      have hrow : seekRow goal ⟨.code, pending, n, 0⟩ ((layout s).row ++ [c]).reverse =
          if step = goal then (⟨.code, pending', n', 0⟩, some (Text.width (layout s).row))
          else seekRow goal ⟨.code, pending', n', 0⟩ (layout s).row.reverse := by
        rw [List.reverse_append, List.reverse_singleton, List.singleton_append, seekRow_cons]
        simp [feed, advance, hfeed, Text.width_reverse]
      simp only [Layout.push, pair, hfeed]
      by_cases hstep : step = goal
      · rw [if_pos hstep] at hrow ⊢
        rw [numbered, seek, hrow, Layout.place, WellLexed.length_code hs]
      · rw [if_neg hstep] at hrow ⊢
        exact (seek_of_seekRow_eq hrow _ _).trans (ih hs pending' n')
    | rowEnd comment =>
      -- Outside literals the end of a row changes nothing.
      exact ih hs pending n

end Matcher

end DotTarget
