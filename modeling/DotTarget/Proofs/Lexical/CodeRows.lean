import DotTarget.Proofs.Lexical.ScanPlaces
import Mathlib.Data.List.DropRight

set_option autoImplicit false

/-! # What a search sees of the rows above

A backward search reads the rows above its starting row without their comments. Two more things
make no difference to it: the blanks at the end of such a row, and rows that hold nothing else.
What is left is `codeAbove`, the rows above that hold code, each up to its last character of code.

The bracket searches give the same on `codeAbove` as on the rows themselves (`seek_upward`), because
between two rows a matcher stands outside literals or inside a literal in triple quotes
(`Matcher.BetweenRows`), where a blank changes nothing. The search for a receiver skips blank rows
and trims the one it stops at (`joinedReceiver_codeRows`). -/

namespace DotTarget

open CharClass (isBlank)

/-! ## Rows of code -/

/-- The code of a row: what precedes its comment, without the blanks at the end. -/
def codeOf (row : Text) : Text :=
  Text.trimEnd (Comment.strip row)

theorem codeOf_prefix_row (row : Text) : codeOf row <+: row :=
  (Text.trimEnd_prefix _).trans (Comment.strip_prefix row)

/-- Of rows without comments those that hold code, up to their last character of code. -/
def codeRows (rows : List (Nat × Text)) : List (Nat × Text) :=
  (rows.map (Prod.map id Text.trimEnd)).filter fun numbered => !numbered.2.isEmpty

theorem codeRows_cons_of_blank {text : Text} (h : Text.isBlankText text = true) (number : Nat)
    (rows : List (Nat × Text)) : codeRows ((number, text) :: rows) = codeRows rows := by
  have htrim : Text.trimEnd text = [] := (Text.trimEnd_eq_nil_iff text).2 h
  simp [codeRows, htrim]

theorem codeRows_cons_of_code {text : Text} (h : Text.isBlankText text = false) (number : Nat)
    (rows : List (Nat × Text)) :
    codeRows ((number, text) :: rows) = (number, Text.trimEnd text) :: codeRows rows := by
  have htrim : Text.trimEnd text ≠ [] := by
    rw [Ne, Text.trimEnd_eq_nil_iff, h]
    exact Bool.false_ne_true
  simp [codeRows, htrim]

/-- The rows above row `row` that hold code, nearest first, with their numbers. -/
def codeAbove (lines : List Text) (row : Nat) : List (Nat × Text) :=
  codeRows ((rowsAbove lines row).map (Prod.map id Comment.strip))

theorem codeAbove_eq (lines : List Text) (row : Nat) :
    codeAbove lines row =
      ((((lines.take row).map codeOf).zipIdx.map Prod.swap).filter
        fun numbered => !numbered.2.isEmpty).reverse := by
  simp only [codeAbove, codeRows, rowsAbove, List.map_map, List.map_reverse, List.filter_reverse,
    List.zipIdx_map]
  rfl

theorem mem_codeAbove {lines : List Text} {row number : Nat} {code : Text} :
    (number, code) ∈ codeAbove lines row ↔
      number < row ∧ code ≠ [] ∧ ∃ line, lines[number]? = some line ∧ codeOf line = code := by
  simp only [codeAbove_eq, List.mem_reverse, List.mem_filter, List.mem_map, Prod.exists,
    List.mem_zipIdx_iff_getElem?, List.getElem?_map, List.getElem?_take]
  constructor
  · rintro ⟨⟨code', number', hmem, heq⟩, hne⟩
    obtain ⟨rfl, rfl⟩ := Prod.mk.inj heq
    split at hmem
    · rename_i hlt
      exact ⟨hlt, by simpa using hne, Option.map_eq_some_iff.1 hmem⟩
    · simp at hmem
  · rintro ⟨hlt, hne, line, hline, rfl⟩
    refine ⟨⟨codeOf line, number, ?_, rfl⟩, by simpa using hne⟩
    rw [if_pos hlt, hline]
    rfl

/-- Rows of code in a document put together from two: those of the lower one are numbered on. -/
theorem codeAbove_append (above below : List Text) (row : Nat) :
    codeAbove (above ++ below) (above.length + row) =
      (codeAbove below row).map (Prod.map (above.length + ·) id) ++
        codeAbove above above.length := by
  have htake : (above ++ below).take (above.length + row) = above ++ below.take row :=
    List.take_length_add_append row
  have hshift : ((below.take row).map codeOf).zipIdx above.length =
      ((below.take row).map codeOf).zipIdx.map (Prod.map id (above.length + ·)) :=
    List.zipIdx_eq_map_add
  simp only [codeAbove_eq, htake, List.take_length, List.map_append, List.zipIdx_append,
    List.length_map, Nat.zero_add, hshift, List.filter_append, List.reverse_append,
    List.map_reverse, List.map_map, List.filter_map]
  rfl

/-! ## A matcher between two rows -/

theorem not_delimiter_of_isBlank {c : Char} (h : isBlank c = true) :
    isQuote c = false ∧ isCloser c = false ∧ isOpener c = false := by
  have hne : ∀ d, isBlank d = false → c ≠ d := by
    rintro d hd rfl
    rw [h] at hd
    exact Bool.noConfusion hd
  simp only [isQuote, isCloser, isOpener, Bool.or_eq_false_iff, decide_eq_false_iff_not]
  exact ⟨⟨hne _ (by decide), hne _ (by decide)⟩,
    ⟨⟨hne _ (by decide), hne _ (by decide)⟩, hne _ (by decide)⟩,
    ⟨⟨hne _ (by decide), hne _ (by decide)⟩, hne _ (by decide)⟩⟩

namespace Matcher

/-- A matcher inside a row: a literal in triple quotes is delimited by quotes. -/
def InRow (m : Matcher) : Prop :=
  ∀ quote, m.mode = .triple quote → isQuote quote = true

/-- A matcher between two rows: outside literals or inside one in triple quotes. -/
structure BetweenRows (m : Matcher) : Prop where
  inRow : m.InRow
  skip_eq : m.skip = 0
  mode_eq : m.mode = .code ∨ ∃ quote, m.mode = .triple quote

theorem inRow_initial : initial.InRow := by
  intro quote h
  simp [initial] at h

theorem InRow.feedCode {m : Matcher} (h : m.InRow) (c : Char) (triple : Bool) :
    (m.feedCode c triple).1.InRow := by
  unfold Matcher.feedCode
  split
  · exact h
  · split
    · unfold feedOpener
      split
      · exact h
      · exact h
    · split
      · rename_i hquote
        split
        · intro quote hmode
          obtain rfl := Mode.triple.inj hmode
          exact hquote
        · intro quote hmode
          simp at hmode
      · exact h

theorem InRow.feed {m : Matcher} (h : m.InRow) (left : Text) (c : Char) :
    (m.feed left c).1.InRow := by
  unfold Matcher.feed advance
  split
  · exact h
  · split
    · exact h.feedCode c _
    · split
      · intro quote hmode
        simp at hmode
      · exact h
    · split
      · intro quote hmode
        dsimp only at hmode
        split at hmode <;> simp at hmode
      · exact h
    · intro quote hmode
      dsimp only at hmode
      split at hmode <;> simp at hmode

theorem InRow.seekRow {m : Matcher} (h : m.InRow) (goal : Step) (reversed : Text) :
    (m.seekRow goal reversed).1.InRow := by
  induction reversed generalizing m with
  | nil => exact h
  | cons c left ih =>
    rw [seekRow_cons]
    split
    · exact h.feed left c
    · exact ih (h.feed left c)

/-- At the end of a row nothing is left of a literal in single quotes. -/
theorem InRow.endLine {m : Matcher} (h : m.InRow) : m.endLine.BetweenRows := by
  unfold Matcher.endLine
  cases hmode : m.mode with
  | triple quote => exact ⟨fun q hq => h q (hmode.trans hq), rfl, .inr ⟨quote, rfl⟩⟩
  | code => exact ⟨fun q hq => absurd hq (by simp), rfl, .inl rfl⟩
  | string quote => exact ⟨fun q hq => absurd hq (by simp), rfl, .inl rfl⟩
  | escape quote remaining => exact ⟨fun q hq => absurd hq (by simp), rfl, .inl rfl⟩

namespace BetweenRows

variable {m : Matcher}

theorem endLine_eq (h : m.BetweenRows) : m.endLine = m := by
  obtain ⟨mode, pending, mismatches, skip⟩ := m
  obtain ⟨-, hskip, hmode⟩ := h
  dsimp only at hskip hmode
  rcases hmode with rfl | ⟨quote, rfl⟩
  · rw [hskip]
    rfl
  · rw [hskip]
    rfl

/-- A blank at the end of a row changes nothing. -/
theorem feed_blank (h : m.BetweenRows) (left : Text) {c : Char} (hc : isBlank c = true) :
    m.feed left c = (m, .more) := by
  obtain ⟨hquote, hcloser, hopener⟩ := not_delimiter_of_isBlank hc
  unfold feed advance
  rw [if_neg (by rw [h.skip_eq]; omega)]
  rcases h.mode_eq with hmode | ⟨quote, hmode⟩
  · simp [hmode, feedCode, hquote, hcloser, hopener]
  · have hne : c ≠ quote := by
      rintro rfl
      rw [h.inRow _ hmode] at hquote
      exact Bool.noConfusion hquote
    simp [hmode, hne]

variable {goal : Step}

theorem seekRow_blanks (h : m.BetweenRows) (hgoal : goal ≠ .more) {blanks : Text}
    (hblanks : ∀ c ∈ blanks, isBlank c = true) (left : Text) :
    m.seekRow goal (blanks ++ left) = m.seekRow goal left := by
  induction blanks with
  | nil => rfl
  | cons c blanks ih =>
    simp only [List.mem_cons, forall_eq_or_imp] at hblanks
    rw [List.cons_append, seekRow_cons, h.feed_blank _ hblanks.1, if_neg (Ne.symm hgoal)]
    exact ih hblanks.2

theorem seekRow_trimEnd (h : m.BetweenRows) (hgoal : goal ≠ .more) (text : Text) :
    m.seekRow goal (Text.trimEnd text).reverse = m.seekRow goal text.reverse := by
  obtain ⟨blanks, htext, hblanks⟩ := Text.exists_eq_trimEnd_append text
  have hreverse : text.reverse = blanks.reverse ++ (Text.trimEnd text).reverse := by
    rw [← List.reverse_append, ← htext]
  rw [hreverse, h.seekRow_blanks hgoal]
  intro c hc
  exact hblanks c (List.mem_reverse.1 hc)

/-- **Between two rows a search may skip to the next character of code.** -/
theorem seek_codeRows (h : m.BetweenRows) (hgoal : goal ≠ .more) (rows : List (Nat × Text)) :
    m.seek goal (codeRows rows) = m.seek goal rows := by
  induction rows generalizing m with
  | nil => rfl
  | cons first rows ih =>
    obtain ⟨number, text⟩ := first
    cases hblank : Text.isBlankText text with
    | true =>
      have hrow : m.seekRow goal text.reverse = (m, none) := by
        rw [← h.seekRow_trimEnd hgoal, (Text.trimEnd_eq_nil_iff text).2 hblank]
        rfl
      rw [codeRows_cons_of_blank hblank, ih h, seek, hrow]
      simp only [h.endLine_eq]
    | false =>
      rw [codeRows_cons_of_code hblank, seek, seek, h.seekRow_trimEnd hgoal]
      have hnext := (h.inRow.seekRow goal text.reverse).endLine
      split
      · rfl
      · rename_i m' hrow
        rw [hrow] at hnext
        exact ih hnext

end BetweenRows

end Matcher

/-- **A bracket search sees only the code of the rows above.** -/
theorem seek_upward {goal : Matcher.Step} (hgoal : goal ≠ .more) {lines : List Text}
    {place : Position} {line : Text} (hline : lines[place.row]? = some line) :
    Matcher.initial.seek goal (upward lines place) =
      Matcher.initial.seek goal
        ((place.row, Comment.strip (Text.cut line place.column)) :: codeAbove lines place.row) := by
  have hup : upward lines place = (place.row, Comment.strip (Text.cut line place.column)) ::
      (rowsAbove lines place.row).map (Prod.map id Comment.strip) := by
    unfold upward
    rw [hline]
    rfl
  rw [hup, Matcher.seek, Matcher.seek]
  have hnext := (Matcher.inRow_initial.seekRow goal
    (Comment.strip (Text.cut line place.column)).reverse).endLine
  split
  · rfl
  · rename_i m hrow
    rw [hrow] at hnext
    exact (hnext.seek_codeRows hgoal _).symm

/-- A receiver on a row above is looked for in its code. -/
theorem Scan.joinedReceiver_codeRows (bracketed : Bool) (rows : List (Nat × Text)) :
    joinedReceiver bracketed (codeRows rows) = joinedReceiver bracketed rows := by
  unfold joinedReceiver
  induction rows with
  | nil => rfl
  | cons first rows ih =>
    obtain ⟨number, text⟩ := first
    cases hblank : Text.isBlankText text with
    | true =>
      rw [codeRows_cons_of_blank hblank, ih]
      simp [hblank]
    | false =>
      rw [codeRows_cons_of_code hblank]
      simp [Text.isBlankText_trimEnd, hblank, Text.trimEnd_trimEnd]

end DotTarget
