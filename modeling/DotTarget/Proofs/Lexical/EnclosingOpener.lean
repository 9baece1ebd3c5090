import DotTarget.Lexical.Search
import DotTarget.Proofs.Lexical.CommentReading

set_option autoImplicit false

/-! # The enclosing opener is the opener of a closer put at the place

`enclosingOpener` looks for an opener that nothing on the way closes, and passes over balanced
groups. `findOpener` starts behind a closer and stops when that closer is balanced. If a closer is
put at the place, of whatever kind, the second search finds what the first one finds without it
(`enclosingOpener_eq_findOpener`).

The two searches run in step (`Matcher.InStep`). The pending closers of the second are always those
of the first with the new closer below them (`Matcher.above`), so the first meets an opener without
a pending closer exactly when the second meets the opener of its last one (`Matcher.feed_above`).
This holds for any two matchers that differ by a closer at the bottom, inside literals and out, and
so from row to row (`Matcher.seek_above`). The new closer does not change how its row is read for
comments, unless it stands in one (`Comment.strip_concat`). -/

namespace DotTarget

/-! ## A closer below the pending ones -/

namespace Matcher

/-- The matcher that has one more closer to wait for, below all others. -/
def above (m : Matcher) (closer : Char) : Matcher :=
  { m with pending := m.pending ++ [closer] }

/-- What a character does when one more closer is pending below all others: an opener that no
closer waited for balances that one, and an opener of the last of the others balances nothing. -/
def Step.above : Step → Step
  | .unbalanced => .balanced
  | .balanced => .more
  | .more => .more

theorem Step.above_eq_balanced_iff (step : Step) : step.above = .balanced ↔ step = .unbalanced := by
  cases step <;> simp [Step.above]

/-- What one character does to two matchers in step, of which the second has one more closer to wait
for. They stay in step until the first meets an opener that no closer waits for. -/
structure InStep (closer : Char) (fed fed' : Matcher × Step) : Prop where
  step_eq : fed'.2 = fed.2.above
  matcher_eq : fed.2 ≠ .unbalanced → fed'.1 = fed.1.above closer

theorem InStep.of_more (closer : Char) (m : Matcher) :
    InStep closer (m, .more) (m.above closer, .more) :=
  ⟨rfl, fun _ => rfl⟩

theorem endLine_above (m : Matcher) (closer : Char) :
    (m.above closer).endLine = m.endLine.above closer :=
  rfl

section Searches

variable (closer : Char) (m : Matcher)

theorem feedOpener_above (opener : Char) :
    InStep closer (m.feedOpener opener) ((m.above closer).feedOpener opener) := by
  obtain ⟨mode, pending, mismatches, skip⟩ := m
  cases pending with
  | nil => exact ⟨rfl, fun h => absurd rfl h⟩
  | cons first rest =>
    -- Something is still pending below `rest`, so the opener of `first` balances nothing.
    refine ⟨?_, fun _ => rfl⟩
    cases rest with
    | nil => rfl
    | cons second rest => rfl

theorem feedCode_above (c : Char) (triple : Bool) :
    InStep closer (m.feedCode c triple) ((m.above closer).feedCode c triple) := by
  unfold feedCode
  split
  · exact .of_more closer _
  · split
    · exact feedOpener_above closer m c
    · split
      · split
        · exact .of_more closer _
        · exact .of_more closer _
      · exact .of_more closer _

/-- **Two matchers that differ by a closer at the bottom run in step.** -/
theorem feed_above (left : Text) (c : Char) :
    InStep closer (m.feed left c) ((m.above closer).feed left c) := by
  obtain ⟨mode, pending, mismatches, skip⟩ := m
  unfold feed advance above
  dsimp only
  split
  · exact .of_more closer _
  · -- Only outside literals do the pending closers play a part.
    split
    · exact feedCode_above closer ⟨.code, pending, mismatches, skip⟩ c _
    · split
      · exact .of_more closer _
      · exact .of_more closer _
    · split
      · exact .of_more closer _
      · exact .of_more closer _
    · exact .of_more closer _

/-- On a row the two searches stop at the same character, or neither stops and the matchers still
differ by the closer at the bottom. -/
theorem seekRow_above (reversed : Text) :
    ((m.above closer).seekRow .balanced reversed).2 = (m.seekRow .unbalanced reversed).2 ∧
      ((m.seekRow .unbalanced reversed).2 = none →
        ((m.above closer).seekRow .balanced reversed).1 =
          (m.seekRow .unbalanced reversed).1.above closer) := by
  induction reversed generalizing m with
  | nil => exact ⟨rfl, fun _ => rfl⟩
  | cons c left ih =>
    obtain ⟨hstep, hmatcher⟩ := feed_above closer m left c
    rw [seekRow_cons, seekRow_cons, hstep]
    by_cases hfound : (m.feed left c).2 = .unbalanced
    · rw [if_pos ((Step.above_eq_balanced_iff _).2 hfound), if_pos hfound]
      exact ⟨rfl, fun h => absurd h (by simp)⟩
    · rw [if_neg (mt (Step.above_eq_balanced_iff _).1 hfound), if_neg hfound, hmatcher hfound]
      exact ih (m.feed left c).1

/-- **The two searches stop at the same place.** -/
theorem seek_above (rows : List (Nat × Text)) :
    ((m.above closer).seek .balanced rows).2 = (m.seek .unbalanced rows).2 := by
  induction rows generalizing m with
  | nil => rfl
  | cons first rows ih =>
    obtain ⟨number, text⟩ := first
    obtain ⟨hcolumn, hmatcher⟩ := seekRow_above closer m text.reverse
    rw [seek, seek]
    cases hrow : m.seekRow .unbalanced text.reverse with
    | mk reached column =>
      cases hrow' : (m.above closer).seekRow .balanced text.reverse with
      | mk reached' column' =>
        rw [hrow, hrow'] at hcolumn hmatcher
        obtain rfl : column' = column := hcolumn
        cases column' with
        | some column => rfl
        | none =>
          obtain rfl : reached' = reached.above closer := hmatcher rfl
          dsimp only
          rw [endLine_above]
          exact ih reached.endLine

end Searches

variable {closer : Char}

/-- Behind the closer the second search is where the first one starts, with the closer pending. -/
theorem feed_closer (h : isCloser closer = true) (left : Text) :
    initial.feed left closer = (initial.above closer, .more) := by
  show initial.feedCode closer _ = _
  rw [feedCode, if_pos h]
  rfl

theorem seek_closer (h : isCloser closer = true) (number : Nat) (front : Text)
    (rows : List (Nat × Text)) :
    (initial.seek .balanced ((number, front ++ [closer]) :: rows)).2 =
      (initial.seek .unbalanced ((number, front) :: rows)).2 := by
  have hrow : initial.seekRow .balanced (front ++ [closer]).reverse =
      (initial.above closer).seekRow .balanced front.reverse := by
    rw [List.reverse_append, List.reverse_singleton, List.singleton_append, seekRow_cons,
      feed_closer h]
    rfl
  rw [← seek_above closer initial, seek, hrow, seek]

end Matcher

/-! ## A closer at the end of a row -/

/-- A closer starts neither a literal nor a comment. -/
theorem plain_of_isCloser {c : Char} (h : isCloser c = true) :
    isQuote c = false ∧ c ≠ '#' ∧ c.utf8Size = 1 := by
  simp only [isCloser, Bool.or_eq_true, decide_eq_true_eq] at h
  rcases h with (rfl | rfl) | rfl <;> decide

/-- The rows above a row do not depend on that row. -/
theorem rowsAbove_set (lines : List Text) (row : Nat) (text : Text) :
    rowsAbove (lines.set row text) row = rowsAbove lines row := by
  rw [rowsAbove, List.take_set_of_le (Nat.le_refl row), rowsAbove]

/-- **The enclosing opener of a place is the opener of any closer put there.** Take a document and a
place on one of its rows, with no comment before the place in that row. Cut the row at the place and
put a closing bracket behind the cut, of whatever kind. Then the opener of that bracket is the
enclosing opener of the place, or neither exists; no matter what else the document holds. -/
theorem enclosingOpener_eq_findOpener {lines : List Text} {place : Position} {line : Text}
    (hline : lines[place.row]? = some line)
    (hcode : Comment.strip (Text.cut line place.column) = Text.cut line place.column)
    {closer : Char} (hcloser : isCloser closer = true) :
    enclosingOpener lines place =
      (findOpener (lines.set place.row (Text.cut line place.column ++ [closer]))
        ⟨place.row, Text.width (Text.cut line place.column) + 1⟩).opener := by
  obtain ⟨hquote, hhash, hsize⟩ := plain_of_isCloser hcloser
  have hlt : place.row < lines.length := (List.getElem?_eq_some_iff.1 hline).1
  have hcut : Text.cut (Text.cut line place.column ++ [closer])
      (Text.width (Text.cut line place.column) + 1) = Text.cut line place.column ++ [closer] := by
    apply Text.cut_of_width_le
    simp [hsize]
  unfold enclosingOpener findOpener upward
  dsimp only
  rw [hline, List.getElem?_set_self hlt, rowsAbove_set]
  dsimp only
  rw [hcode, hcut, Comment.strip_concat hquote hhash hcode, Matcher.seek_closer hcloser]

/-- A call left open. On the way up to it stand two brackets of other kinds than their closers, a
literal over two rows with brackets in it, and a bracket in a short literal. -/
def openCallRows : List Text :=
  ["call('(', [", "  k: '''] )", "  [''', (1]),", "  v.w"].map String.toList

/-- The place behind the dot in the last row. -/
def openCallPlace : Position := ⟨3, 4⟩

theorem enclosingOpener_openCallRows :
    openCallRows[openCallPlace.row]? = some "  v.w".toList ∧
      Comment.strip (Text.cut "  v.w".toList 4) = Text.cut "  v.w".toList 4 ∧
      enclosingOpener openCallRows openCallPlace = some ⟨0, 4⟩ ∧
      (findOpener (openCallRows.set 3 "  v.]".toList) ⟨3, 5⟩).opener = some ⟨0, 4⟩ := by
  have hline : openCallRows[openCallPlace.row]? = some "  v.w".toList := by decide
  have hcode : Comment.strip (Text.cut "  v.w".toList 4) = Text.cut "  v.w".toList 4 := by decide
  have hopener : enclosingOpener openCallRows openCallPlace = some ⟨0, 4⟩ := by decide
  have hagree := enclosingOpener_eq_findOpener hline hcode (show isCloser ']' = true by decide)
  exact ⟨hline, hcode, hopener, hagree.symm.trans hopener⟩

end DotTarget
