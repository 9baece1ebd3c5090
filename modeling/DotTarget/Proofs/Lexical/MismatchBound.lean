import DotTarget.Proofs.Lexical.ScanPlaces
import Mathlib.Order.Monotone.Basic

set_option autoImplicit false

/-! # How many mismatches a scan can count

A mismatch is counted at an opening bracket. A bracket search passes every bracket at most once, and
the next search of a scan starts where the last one ended, so no bracket is counted twice:
the mismatches of a scan are at most the opening brackets before its end (`scan_mismatches_le`).

The argument weighs a place by the opening brackets before it (`openersBefore`). What a search
counts, and the weight of the place that it finds, are together at most the weight of the place
where it started (`findOpener_mismatches_le`). -/

namespace DotTarget

theorem Position.ne_of_lt {p q : Position} (h : p < q) : p ≠ q := by
  rintro rfl
  exact lt_iff_not_le.1 h (le_refl p)

/-! ## Counting opening brackets -/

/-- The number of opening brackets in a text, wherever they stand. -/
def openerCount (t : Text) : Nat :=
  t.countP isOpener

@[simp] theorem openerCount_nil : openerCount [] = 0 := rfl

@[simp] theorem openerCount_cons (c : Char) (t : Text) :
    openerCount (c :: t) = openerCount t + if isOpener c then 1 else 0 :=
  List.countP_cons

@[simp] theorem openerCount_reverse (t : Text) : openerCount t.reverse = openerCount t :=
  List.countP_reverse

theorem openerCount_le_of_front {s t : Text} (h : s <+: t) : openerCount s ≤ openerCount t :=
  h.sublist.countP_le

/-- The number of opening brackets in a document. -/
def openersIn : List Text → Nat
  | [] => 0
  | line :: lines => openerCount line + openersIn lines

theorem openersIn_append (lines lines' : List Text) :
    openersIn (lines ++ lines') = openersIn lines + openersIn lines' := by
  induction lines with
  | nil => simp [openersIn]
  | cons line lines ih => simp only [List.cons_append, openersIn, ih, Nat.add_assoc]

/-- The number of opening brackets in the rows above a row. -/
def openersAbove (lines : List Text) (row : Nat) : Nat :=
  openersIn (lines.take row)

/-- The number of opening brackets before a place. -/
def openersBefore (lines : List Text) (p : Position) : Nat :=
  openersAbove lines p.row + openerCount (Text.cut (lines[p.row]?.getD []) p.column)

theorem openersAbove_succ (lines : List Text) (row : Nat) :
    openersAbove lines (row + 1) =
      openersAbove lines row + openerCount (lines[row]?.getD []) := by
  unfold openersAbove
  rw [List.take_add_one, openersIn_append]
  cases lines[row]? <;> simp [openersIn]

theorem openersAbove_mono (lines : List Text) : Monotone (openersAbove lines) := by
  apply monotone_nat_of_le_succ
  intro row
  rw [openersAbove_succ]
  exact Nat.le_add_right _ _

theorem openersAbove_le_openersIn (lines : List Text) (row : Nat) :
    openersAbove lines row ≤ openersIn lines := by
  have hle := openersAbove_mono lines (Nat.le_max_left row lines.length)
  have hall : openersAbove lines (max row lines.length) = openersIn lines := by
    rw [openersAbove, List.take_of_length_le (Nat.le_max_right _ _)]
  exact hle.trans hall.le

theorem openersBefore_le_openersAbove (lines : List Text) (p : Position) :
    openersBefore lines p ≤ openersAbove lines (p.row + 1) := by
  rw [openersBefore, openersAbove_succ]
  exact Nat.add_le_add_left (openerCount_le_of_front (Text.cut_prefix _ _)) _

theorem openersBefore_le_openersIn (lines : List Text) (p : Position) :
    openersBefore lines p ≤ openersIn lines :=
  (openersBefore_le_openersAbove lines p).trans (openersAbove_le_openersIn lines _)

theorem openersBefore_mono {lines : List Text} {p q : Position} (h : p ≤ q) :
    openersBefore lines p ≤ openersBefore lines q := by
  rcases h with hrow | ⟨hrow, hcolumn⟩
  · calc openersBefore lines p
        ≤ openersAbove lines (p.row + 1) := openersBefore_le_openersAbove lines p
      _ ≤ openersAbove lines q.row := openersAbove_mono lines hrow
      _ ≤ openersBefore lines q := Nat.le_add_right _ _
  · unfold openersBefore
    rw [hrow, ← Text.cut_cut hcolumn]
    exact Nat.add_le_add_left (openerCount_le_of_front (Text.cut_prefix _ _)) _

/-! ## Rows above -/

theorem rowsAbove_succ_of_none {lines : List Text} {row : Nat} (h : lines[row]? = none) :
    rowsAbove lines (row + 1) = rowsAbove lines row := by
  simp [rowsAbove, List.take_add_one, h]

theorem rowsAbove_succ_of_some {lines : List Text} {row : Nat} {line : Text}
    (h : lines[row]? = some line) :
    rowsAbove lines (row + 1) = (row, line) :: rowsAbove lines row := by
  obtain ⟨hlt, -⟩ := List.getElem?_eq_some_iff.1 h
  have hlen : (lines.take row).length = row := by
    rw [List.length_take]
    omega
  simp [rowsAbove, List.take_add_one, h, List.zipIdx_append, hlen]

/-! ## Bracket searches -/

namespace Matcher

theorem feedOpener_mismatches_le (m : Matcher) (opener : Char) :
    (m.feedOpener opener).1.mismatches ≤ m.mismatches + 1 := by
  unfold feedOpener
  split
  · exact Nat.le_add_right _ _
  · dsimp only
    split
    · exact Nat.le_add_right _ _
    · exact Nat.le_refl _

theorem feedCode_mismatches_le (m : Matcher) (c : Char) (triple : Bool) :
    (m.feedCode c triple).1.mismatches ≤ m.mismatches + openerCount [c] := by
  have hsame : m.mismatches ≤ m.mismatches + openerCount [c] := Nat.le_add_right _ _
  unfold feedCode
  split
  · exact hsame
  · split
    · rename_i hopener
      have hone : openerCount [c] = 1 := by simp [hopener]
      rw [hone]
      exact m.feedOpener_mismatches_le c
    · split
      · split
        · exact hsame
        · exact hsame
      · exact hsame

/-- A character counts as a mismatch only if it is an opening bracket. -/
theorem feed_mismatches_le (m : Matcher) (left : Text) (c : Char) :
    (m.feed left c).1.mismatches ≤ m.mismatches + openerCount [c] := by
  have hsame : m.mismatches ≤ m.mismatches + openerCount [c] := Nat.le_add_right _ _
  unfold feed advance
  split
  · exact hsame
  · split
    · exact m.feedCode_mismatches_le c _
    · split
      · exact hsame
      · exact hsame
    · split
      · exact hsame
      · exact hsame
    · exact hsame

/-- In a row, what is counted and what stands left of the place found are together no more than
what there was. -/
theorem seekRow_mismatches_le (goal : Step) (m : Matcher) {line : Text} {reversed : Text}
    (h : reversed.reverse <+: line) :
    (seekRow goal m reversed).1.mismatches +
        (seekRow goal m reversed).2.elim 0 (fun column => openerCount (Text.cut line column)) ≤
      m.mismatches + openerCount reversed := by
  induction reversed generalizing m with
  | nil => exact Nat.le_refl _
  | cons c left ih =>
    have hleft : left.reverse <+: line := by
      rw [List.reverse_cons] at h
      exact (List.prefix_append _ _).trans h
    have hfeed := m.feed_mismatches_le left c
    have hsplit : openerCount (c :: left) = openerCount left + openerCount [c] := by simp
    rw [seekRow_cons, hsplit]
    split
    · -- The row is cut right before the opener that was found.
      obtain ⟨rest, rfl⟩ := hleft
      have hcut : Text.cut (left.reverse ++ rest) (Text.width left) = left.reverse := by
        rw [← Text.width_reverse, Text.cut_append_width]
      simp only [Option.elim_some, hcut, openerCount_reverse]
      omega
    · have := ih (m.feed left c).1 hleft
      omega

/-- A search that starts in a row and goes on above it. -/
theorem seek_cons_mismatches_le {goal : Step} {lines : List Text} {row : Nat} {line text : Text}
    {above : List (Nat × Text)} (hline : lines[row]? = some line) (htext : text <+: line)
    (habove : ∀ m : Matcher, (m.seek goal above).1.mismatches +
        (m.seek goal above).2.elim 0 (openersBefore lines) ≤
      m.mismatches + openersAbove lines row) (m : Matcher) :
    (m.seek goal ((row, text) :: above)).1.mismatches +
        (m.seek goal ((row, text) :: above)).2.elim 0 (openersBefore lines) ≤
      m.mismatches + (openersAbove lines row + openerCount text) := by
  have hfront : text.reverse.reverse <+: line := by rwa [List.reverse_reverse]
  have hrow := seekRow_mismatches_le goal m hfront
  rw [openerCount_reverse] at hrow
  rw [seek]
  split
  · rename_i m' column hfound
    simp only [hfound, Option.elim_some] at hrow
    simp only [Option.elim_some, openersBefore, hline, Option.getD_some]
    omega
  · rename_i m' hnone
    simp only [hnone, Option.elim_none] at hrow
    have := habove m'.endLine
    have hend : m'.endLine.mismatches = m'.mismatches := rfl
    omega

theorem seek_rowsAbove_mismatches_le (goal : Step) (lines : List Text) (row : Nat) (m : Matcher) :
    (m.seek goal ((rowsAbove lines row).map fun (number, text) =>
        (number, Comment.strip text))).1.mismatches +
        (m.seek goal ((rowsAbove lines row).map fun (number, text) =>
          (number, Comment.strip text))).2.elim 0 (openersBefore lines) ≤
      m.mismatches + openersAbove lines row := by
  induction row generalizing m with
  | zero => exact Nat.le_refl _
  | succ row ih =>
    cases hline : lines[row]? with
    | none =>
      rw [rowsAbove_succ_of_none hline, openersAbove_succ, hline]
      exact ih m
    | some line =>
      rw [rowsAbove_succ_of_some hline, openersAbove_succ, hline, Option.getD_some]
      refine (seek_cons_mismatches_le hline (Comment.strip_prefix line) ih m).trans ?_
      have := openerCount_le_of_front (Comment.strip_prefix line)
      omega

/-- **No bracket is counted twice.** What a search counts, and the opening brackets before the place
that it finds, are together no more than the opening brackets before the place where it starts. -/
theorem seek_upward_mismatches_le (goal : Step) (lines : List Text) (place : Position)
    (m : Matcher) :
    (m.seek goal (upward lines place)).1.mismatches +
        (m.seek goal (upward lines place)).2.elim 0 (openersBefore lines) ≤
      m.mismatches + openersBefore lines place := by
  unfold upward
  split
  · exact Nat.le_add_right _ _
  · rename_i line hline
    have hcut := Comment.strip_prefix (Text.cut line place.column)
    refine (seek_cons_mismatches_le hline (hcut.trans (Text.cut_prefix _ _))
      (seek_rowsAbove_mismatches_le goal lines place.row) m).trans ?_
    have := openerCount_le_of_front hcut
    rw [openersBefore, hline, Option.getD_some]
    omega

end Matcher

theorem findOpener_mismatches_le (lines : List Text) (place : Position) :
    (findOpener lines place).mismatches +
        (findOpener lines place).opener.elim 0 (openersBefore lines) ≤
      openersBefore lines place := by
  have hseek := Matcher.seek_upward_mismatches_le .balanced lines place Matcher.initial
  have hzero : Matcher.initial.mismatches = 0 := rfl
  rwa [hzero, Nat.zero_add] at hseek

/-! ## Steps and runs -/

namespace Scan

/-- Only a step over a bracketed group counts anything. -/
theorem step_eq_findOpener_or (lines : List Text) (place : Position) :
    step lines place =
        ((findOpener lines place).opener.getD place, (findOpener lines place).mismatches) ∨
      (step lines place).2 = 0 := by
  unfold step
  split
  · exact .inr rfl
  · dsimp only
    split
    · exact .inr rfl
    · split
      · exact .inl rfl
      · right
        split
        · rfl
        · split <;> rfl

/-- A step that moves leaves behind at least as many opening brackets as it counts mismatches. -/
theorem step_mismatches_le (lines : List Text) (place : Position) :
    (step lines place).2 ≤ openersBefore lines place ∧
      ((step lines place).1 ≠ place →
        (step lines place).2 + openersBefore lines (step lines place).1 ≤
          openersBefore lines place) := by
  rcases step_eq_findOpener_or lines place with hstep | hzero
  · have hfound := findOpener_mismatches_le lines place
    rw [hstep]
    cases hopener : (findOpener lines place).opener with
    | none =>
      rw [hopener, Option.elim_none, Nat.add_zero] at hfound
      exact ⟨hfound, fun hmoved => absurd rfl hmoved⟩
    | some opener =>
      rw [hopener, Option.elim_some] at hfound
      exact ⟨Nat.le_trans (Nat.le_add_right _ _) hfound, fun _ => hfound⟩
  · rw [hzero, Nat.zero_add]
    exact ⟨Nat.zero_le _, fun _ => openersBefore_mono (step_le_and_isPlace lines place).1⟩

/-- The mismatches of a walk are at most the opening brackets before its start. -/
theorem walk_mismatches_le {lines : List Text} {cap : Nat} {place : Position} {w : Walk}
    (h : walk lines cap place = .ok w) : w.mismatches ≤ openersBefore lines place := by
  induction cap generalizing place w with
  | zero =>
    obtain rfl := Except.ok.inj h
    exact Nat.zero_le _
  | succ cap ih =>
    obtain ⟨hcount, hmove⟩ := step_mismatches_le lines place
    rcases Position.le_iff_lt_or_eq.1 (step_le_and_isPlace lines place).1 with hlt | hstay
    · obtain ⟨rest, hrest, -⟩ := walk_eq_ok lines cap (step lines place).1
      obtain rfl := Except.ok.inj ((walk_of_step_lt hlt hrest).symm.trans h)
      have hleft := hmove (Position.ne_of_lt hlt)
      have hmet := ih hrest
      show (step lines place).2 + rest.mismatches ≤ openersBefore lines place
      omega
    · obtain rfl := Except.ok.inj ((walk_of_step_eq cap hstay).symm.trans h)
      exact hcount

end Scan

/-- **The mismatches of a scan are at most the opening brackets before its end.** -/
theorem scan_mismatches_le {lines : List Text} {place : Position} {cap : Nat}
    {outcome : Scan.Outcome} (h : scan lines place cap = .ok outcome) :
    outcome.mismatches ≤ openersBefore lines outcome.span.stop := by
  obtain ⟨w, hw, -⟩ := Scan.walk_eq_ok lines cap (Scan.clamp lines (place.shiftedLeft 1))
  obtain rfl := Except.ok.inj ((Scan.scan_of_walk hw).symm.trans h)
  exact Scan.walk_mismatches_le hw

end DotTarget
