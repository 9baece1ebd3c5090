import DotTarget.Proofs.Lexical.MismatchBound

set_option autoImplicit false

/-! # The scan with every access checked

`scan` takes rows apart as lists of characters and counts in natural numbers. `checkedScan` is the
same scan over bytes and machine words: rows are cut, sliced and read at byte offsets, rows are
indexed by number, counters have 32 bits, and every access, sum or difference that does not exist
is a `Fault`.

None of these faults happens: a scan reads rows only at the ends of their front parts, and the
mismatches it counts are opening brackets that it leaves behind. So `checkedScan` gives what `scan`
gives, as long as the opening brackets of the document can be counted (`checkedScan_eq_scan`). -/

namespace DotTarget

/-! ## Counters -/

/-- One more than the largest value of a counter: two to the power of 32. -/
def counterLimit : Nat := 4294967296

/-- A count, which must fit in its counter. -/
def checkedCount (n : Nat) : Except Fault Nat :=
  if n < counterLimit then .ok n else .error .addOverflow

theorem checkedCount_of_lt {n : Nat} (h : n < counterLimit) : checkedCount n = .ok n :=
  if_pos h

/-! ## Slices -/

namespace Text

/-- The front part of a text up to a byte, which must lie between two characters. -/
def checkedTake (t : Text) (byte : Nat) : Except Fault Text :=
  match splitAt? t byte with
  | some (front, _) => .ok front
  | none => .error (.outOfBounds byte (width t))

/-- The rest of a text from a byte on, which must lie between two characters. -/
def checkedDrop (t : Text) (byte : Nat) : Except Fault Text :=
  match splitAt? t byte with
  | some (_, rest) => .ok rest
  | none => .error (.outOfBounds byte (width t))

theorem splitAt?_append_width (front rest : Text) :
    splitAt? (front ++ rest) (width front) = some (front, rest) :=
  splitAt?_eq_some_iff.2 ⟨rfl, rfl⟩

theorem checkedTake_append_width (front rest : Text) :
    checkedTake (front ++ rest) (width front) = .ok front := by
  rw [checkedTake, splitAt?_append_width]

theorem checkedDrop_append_width (front rest : Text) :
    checkedDrop (front ++ rest) (width front) = .ok rest := by
  rw [checkedDrop, splitAt?_append_width]

/-- The last byte up to `n` that lies between two characters, looked for from `n` down. -/
def checkedBoundary (t : Text) : Nat → Except Fault Nat
  | 0 => if (splitAt? t 0).isSome then .ok 0 else .error .subtractOverflow
  | n + 1 => if (splitAt? t (n + 1)).isSome then .ok (n + 1) else checkedBoundary t n

theorem checkedBoundary_eq_ok (t : Text) (n : Nat) :
    checkedBoundary t n = .ok (width (cut t n)) := by
  induction n with
  | zero =>
    have hzero : width (cut t 0) = 0 := Nat.le_zero.1 (width_cut_le t 0)
    rw [hzero]
    cases t <;> rfl
  | succ n ih =>
    rw [checkedBoundary]
    cases hsplit : splitAt? t (n + 1) with
    | some parts =>
      obtain ⟨rfl, hwidth⟩ := splitAt?_eq_some_iff.1 hsplit
      rw [← hwidth, cut_append_width]
      rfl
    | none =>
      -- What is kept of `n + 1` bytes has a byte less, so it is what is kept of `n`.
      have hne : width (cut t (n + 1)) ≠ n + 1 := by
        intro heq
        obtain ⟨rest, hrest⟩ := cut_prefix t (n + 1)
        have hsome := splitAt?_append_width (cut t (n + 1)) rest
        rw [hrest, heq, hsplit] at hsome
        exact absurd hsome (by simp)
      have hle : width (cut t (n + 1)) ≤ n := by
        have := width_cut_le t (n + 1)
        omega
      rw [← cut_of_width_le hle, cut_cut (Nat.le_succ n)]
      exact ih

/-- The longest front part of at most `n` bytes, sliced off where the search for its end ends. -/
def checkedCut (t : Text) (n : Nat) : Except Fault Text := do
  let stop ← checkedBoundary t (min n (width t))
  checkedTake t stop

theorem cut_min_width (t : Text) (n : Nat) : cut t (min n (width t)) = cut t n := by
  rcases Nat.le_total n (width t) with h | h
  · rw [Nat.min_eq_left h]
  · rw [Nat.min_eq_right h, cut_of_width_le (Nat.le_refl _), cut_of_width_le h]

@[simp] theorem checkedCut_eq_ok (t : Text) (n : Nat) : checkedCut t n = .ok (cut t n) := by
  obtain ⟨rest, hrest⟩ := cut_prefix t n
  have htake := checkedTake_append_width (cut t n) rest
  rw [hrest] at htake
  simp only [checkedCut, checkedBoundary_eq_ok, cut_min_width, bind, Except.bind, htake]

end Text

/-! ## Rows without comments -/

namespace Comment

/-- Reads a row from a byte on, where the given characters are still to come. What is ahead of a
character is sliced off the row at every character. -/
def checkedStripFrom (row : Text) : State → Nat → Text → Except Fault Text
  | _, _, [] => .ok row
  | state, byte, c :: ahead =>
    if state = .code ∧ c = '#' then Text.checkedTake row byte
    else do
      let rest ← Text.checkedDrop row byte
      checkedStripFrom row (state.next c rest.tail) (byte + c.utf8Size) ahead

theorem checkedStripFrom_eq_ok (front ahead : Text) (state : State) :
    checkedStripFrom (front ++ ahead) state (Text.width front) ahead =
      .ok (front ++ stripFrom state ahead) := by
  induction ahead generalizing front state with
  | nil => rfl
  | cons c ahead ih =>
    rw [checkedStripFrom, stripFrom]
    split
    · rw [Text.checkedTake_append_width, List.append_nil]
    · have hnext : Text.width front + c.utf8Size = Text.width (front ++ [c]) := by simp
      have := ih (front ++ [c]) (state.next c ahead)
      rw [List.append_assoc, List.append_assoc] at this
      simp only [Text.checkedDrop_append_width, bind, Except.bind, List.tail_cons, hnext]
      exact this

/-- The part of a row before its comment. -/
def checkedStrip (row : Text) : Except Fault Text :=
  checkedStripFrom row .code 0 row

@[simp] theorem checkedStrip_eq_ok (row : Text) : checkedStrip row = .ok (strip row) :=
  checkedStripFrom_eq_ok [] row .code

end Comment

/-- The rows above a row without their comments, nearest first. All of them are read, also those
that no search gets to. -/
def checkedRowsAbove (lines : List Text) : Nat → Except Fault (List (Nat × Text))
  | 0 => .ok []
  | row + 1 =>
    match lines[row]? with
    | none => .error (.outOfBounds row lines.length)
    | some line => do
      let text ← Comment.checkedStrip line
      let above ← checkedRowsAbove lines row
      return (row, text) :: above

theorem checkedRowsAbove_eq_ok {lines : List Text} {row : Nat} (h : row ≤ lines.length) :
    checkedRowsAbove lines row =
      .ok ((rowsAbove lines row).map fun (number, text) => (number, Comment.strip text)) := by
  induction row with
  | zero => rfl
  | succ row ih =>
    have hline : lines[row]? = some lines[row] := List.getElem?_eq_getElem h
    rw [checkedRowsAbove, rowsAbove_succ_of_some hline, hline]
    simp only [Comment.checkedStrip_eq_ok, ih (Nat.le_of_succ_le h), bind, Except.bind, pure,
      Except.pure, List.map_cons]

/-- The rows from a place upward, without comments; the first is cut at the place's column. -/
def checkedUpward (lines : List Text) (place : Position) : Except Fault (List (Nat × Text)) :=
  match lines[place.row]? with
  | none => .ok []
  | some line => do
    let before ← Text.checkedCut line place.column
    let text ← Comment.checkedStrip before
    let above ← checkedRowsAbove lines place.row
    return (place.row, text) :: above

@[simp] theorem checkedUpward_eq_ok (lines : List Text) (place : Position) :
    checkedUpward lines place = .ok (upward lines place) := by
  unfold checkedUpward upward
  cases hline : lines[place.row]? with
  | none => rfl
  | some line =>
    have hlt := (List.getElem?_eq_some_iff.1 hline).1
    simp only [Text.checkedCut_eq_ok, Comment.checkedStrip_eq_ok,
      checkedRowsAbove_eq_ok (Nat.le_of_lt hlt), bind, Except.bind, pure, Except.pure]

/-! ## Bracket searches -/

namespace Matcher

theorem startingBefore_append_width (front rest : Text) :
    startingBefore (front ++ rest) (Text.width front) = front := by
  induction front with
  | nil => cases rest <;> rfl
  | cons c front ih =>
    have hpos := c.utf8Size_pos
    obtain ⟨n, hn⟩ : ∃ n, Text.width (c :: front) = n + 1 :=
      Nat.exists_eq_succ_of_ne_zero (by rw [Text.width_cons]; omega)
    have hrest : n + 1 - c.utf8Size = Text.width front := by
      rw [← hn, Text.width_cons]
      omega
    rw [hn, List.cons_append, startingBefore, hrest, ih]

/-- The characters that start before a character of a row are those left of it. -/
theorem reverse_startingBefore (left rest : Text) :
    (startingBefore (left.reverse ++ rest) (Text.width left)).reverse = left := by
  rw [← Text.width_reverse, startingBefore_append_width, List.reverse_reverse]

theorem width_le_row (left rest : Text) : Text.width left ≤ Text.width (left.reverse ++ rest) := by
  rw [Text.width_append, Text.width_reverse]
  exact Nat.le_add_right _ _

theorem escapeRunAt_eq_ok (left rest : Text) :
    escapeRunAt (left.reverse ++ rest) (Text.width left) = .ok (escapeRun left) := by
  rw [escapeRunAt, if_pos (width_le_row left rest), reverse_startingBefore]

theorem endsTripleAt_eq_ok (left rest : Text) (quote : Char) :
    endsTripleAt (left.reverse ++ rest) (Text.width left) quote = .ok (endsTriple quote left) := by
  simp only [endsTripleAt, if_pos (width_le_row left rest), reverse_startingBefore]

/-- Reading the row at the byte where a character stands finds what is left of it. -/
theorem feedAt_eq_ok (m : Matcher) (left right : Text) (c : Char) :
    m.feedAt (left.reverse ++ c :: right) (Text.width left) c = .ok (m.feed left c) := by
  unfold feedAt feed advance
  simp only [endsTripleAt_eq_ok, escapeRunAt_eq_ok, bind, Except.bind, pure, Except.pure]
  by_cases hskip : 0 < m.skip
  · simp only [if_pos hskip]
  · -- Where the row is not read, what is left of the character makes no difference.
    simp only [if_neg hskip]
    cases hmode : m.mode with
    | code =>
      dsimp only
      split
      · rfl
      · rename_i hquote
        simp [feedCode, hquote]
    | string quote => by_cases hc : c = quote <;> simp [hc]
    | escape quote remaining => rfl
    | triple quote => by_cases hc : c = quote <;> simp [hc]

/-- Feeds a character as standing at a byte of a row, and counts mismatches in a counter. -/
def checkedFeed (m : Matcher) (line : Text) (byte : Nat) (c : Char) :
    Except Fault (Matcher × Step) := do
  let (m', step) ← m.feedAt line byte c
  let mismatches ← checkedCount m'.mismatches
  return ({ m' with mismatches }, step)

theorem checkedFeed_eq_ok {m : Matcher} {left : Text} {c : Char} (right : Text)
    (h : m.mismatches + openerCount [c] < counterLimit) :
    m.checkedFeed (left.reverse ++ c :: right) (Text.width left) c = .ok (m.feed left c) := by
  have hcount : (m.feed left c).1.mismatches < counterLimit :=
    Nat.lt_of_le_of_lt (m.feed_mismatches_le left c) h
  simp only [checkedFeed, feedAt_eq_ok, checkedCount_of_lt hcount, bind, Except.bind, pure,
    Except.pure]

/-- Feeds the characters of a row from its last to its first, given in that order. -/
def checkedSeekRow (goal : Step) (line : Text) :
    Matcher → Text → Except Fault (Matcher × Option Nat)
  | m, [] => .ok (m, none)
  | m, c :: left => do
    let (m', step) ← m.checkedFeed line (Text.width left) c
    if step = goal then return (m', some (Text.width left)) else checkedSeekRow goal line m' left

theorem checkedSeekRow_eq_ok (goal : Step) {m : Matcher} {left : Text} (right : Text)
    (h : m.mismatches + openerCount left < counterLimit) :
    checkedSeekRow goal (left.reverse ++ right) m left = .ok (seekRow goal m left) := by
  induction left generalizing m right with
  | nil => rfl
  | cons c left ih =>
    have hsplit : openerCount (c :: left) = openerCount left + openerCount [c] := by simp
    have hfeed := m.feed_mismatches_le left c
    have hc : m.mismatches + openerCount [c] < counterLimit := by omega
    have hleft : (m.feed left c).1.mismatches + openerCount left < counterLimit := by omega
    have hline : (c :: left).reverse ++ right = left.reverse ++ c :: right := by simp
    rw [checkedSeekRow, seekRow_cons, hline]
    simp only [checkedFeed_eq_ok right hc, bind, Except.bind]
    split
    · rfl
    · exact ih (c :: right) hleft

/-- Feeds rows, given from the lowest upward. -/
def checkedSeek (goal : Step) :
    Matcher → List (Nat × Text) → Except Fault (Matcher × Option Position)
  | m, [] => .ok (m, none)
  | m, (row, text) :: above => do
    match ← checkedSeekRow goal text m text.reverse with
    | (m', some column) => return (m', some ⟨row, column⟩)
    | (m', none) => checkedSeek goal m'.endLine above

theorem checkedSeek_eq_ok (goal : Step) {m : Matcher} {rows : List (Nat × Text)}
    (h : m.mismatches + openersIn (rows.map Prod.snd) < counterLimit) :
    checkedSeek goal m rows = .ok (seek goal m rows) := by
  induction rows generalizing m with
  | nil => rfl
  | cons first above ih =>
    obtain ⟨row, text⟩ := first
    have hsum : openersIn (((row, text) :: above).map Prod.snd) =
        openerCount text + openersIn (above.map Prod.snd) := rfl
    have hrow : checkedSeekRow goal text m text.reverse = .ok (seekRow goal m text.reverse) := by
      have hcount : m.mismatches + openerCount text.reverse < counterLimit := by
        rw [openerCount_reverse]
        omega
      have := checkedSeekRow_eq_ok goal [] hcount
      rwa [List.reverse_reverse, List.append_nil] at this
    have hfront : text.reverse.reverse <+: text := by simp
    have hle := seekRow_mismatches_le goal m hfront
    rw [openerCount_reverse] at hle
    rw [checkedSeek, seek]
    simp only [hrow, bind, Except.bind]
    cases hfound : seekRow goal m text.reverse with
    | mk m' found =>
      cases found with
      | some column => rfl
      | none =>
        simp only [hfound, Option.elim_none] at hle
        have habove : m'.endLine.mismatches + openersIn (above.map Prod.snd) < counterLimit := by
          have hend : m'.endLine.mismatches = m'.mismatches := rfl
          omega
        exact ih habove

end Matcher

theorem openersIn_rowsAbove_le (lines : List Text) (row : Nat) :
    openersIn (((rowsAbove lines row).map fun (number, text) =>
        (number, Comment.strip text)).map Prod.snd) ≤ openersAbove lines row := by
  induction row with
  | zero => exact Nat.le_refl _
  | succ row ih =>
    rw [openersAbove_succ]
    cases hline : lines[row]? with
    | none =>
      rw [rowsAbove_succ_of_none hline]
      exact Nat.le_trans ih (Nat.le_add_right _ _)
    | some line =>
      have hstrip := openerCount_le_of_front (Comment.strip_prefix line)
      rw [rowsAbove_succ_of_some hline, Option.getD_some, Nat.add_comm]
      exact Nat.add_le_add hstrip ih

/-- A search sees no more opening brackets than stand before the place where it starts. -/
theorem openersIn_upward_le (lines : List Text) (place : Position) :
    openersIn ((upward lines place).map Prod.snd) ≤ openersBefore lines place := by
  unfold upward openersBefore
  cases hline : lines[place.row]? with
  | none => exact Nat.zero_le _
  | some line =>
    have hstrip := openerCount_le_of_front (Comment.strip_prefix (Text.cut line place.column))
    rw [Option.getD_some, Nat.add_comm]
    exact Nat.add_le_add hstrip (openersIn_rowsAbove_le lines place.row)

/-- The opener that balances the closing bracket right before `place`. -/
def checkedFindOpener (lines : List Text) (place : Position) : Except Fault BracketMatch := do
  let rows ← checkedUpward lines place
  let (m, opener) ← Matcher.initial.checkedSeek .balanced rows
  return ⟨opener, m.mismatches⟩

/-- The innermost opener before `place` that is not closed before it. -/
def checkedEnclosingOpener (lines : List Text) (place : Position) :
    Except Fault (Option Position) := do
  let rows ← checkedUpward lines place
  let (_, opener) ← Matcher.initial.checkedSeek .unbalanced rows
  return opener

/-! ## Steps and runs -/

namespace Scan

/-- The place moved back into its row and between two characters. -/
def checkedClamp (lines : List Text) (place : Position) : Except Fault Position :=
  match lines[place.row]? with
  | some line => do
    let before ← Text.checkedCut line place.column
    return ⟨place.row, Text.width before⟩
  | none => .ok place

/-- Where the scan goes on for a member whose dot stands at `dot`. -/
def checkedMemberReceiver (lines : List Text) (dot : Position) :
    Except Fault (Option Position) := do
  match ← checkedUpward lines dot with
  | [] => return none
  | (_, line) :: above =>
    if line.getLast?.any isCloser then return some dot
    else
      let near := Text.trimEnd line
      let receiver ←
        if near.isEmpty then do
          let opener ← checkedEnclosingOpener lines dot
          pure (joinedReceiver opener.isSome above)
        else pure (some (dot.row, near))
      return receiver.bind fun (row, text) =>
        if endsOperand text then some ⟨row, Text.width text⟩ else none

/-- One step from a place, which adds the mismatches it meets to those counted so far. -/
def checkedStep (lines : List Text) (place : Position) (mismatches : Nat) :
    Except Fault (Position × Nat) :=
  match lines[place.row]? with
  | none => .ok (place, mismatches)
  | some line => do
    let before ← Text.checkedCut line place.column
    match before.getLast? with
    | none => return (place, mismatches)
    | some c =>
      if isCloser c then
        let found ← checkedFindOpener lines place
        let mismatches ← checkedCount (mismatches + found.mismatches)
        return (found.opener.getD place, mismatches)
      else
        match atomStart before with
        | none => return (place, mismatches)
        | some column =>
          let atom ← Text.checkedDrop before column
          if isMemberAccess atom then
            let receiver ← checkedMemberReceiver lines ⟨place.row, column⟩
            return (receiver.getD place, mismatches)
          else return (⟨place.row, column⟩, mismatches)

/-- At most `remaining` steps from a place, with the steps taken and the mismatches met so far. A
step must not move to the right. -/
def checkedWalk (lines : List Text) : Nat → Position → Nat → Nat → Except Fault Walk
  | 0, place, iterations, mismatches => .ok ⟨place, iterations, mismatches, false⟩
  | remaining + 1, place, iterations, mismatches => do
    let iterations ← checkedCount (iterations + 1)
    let (next, mismatches) ← checkedStep lines place mismatches
    if next = place then return ⟨place, iterations, mismatches, true⟩
    else if next < place then checkedWalk lines remaining next iterations mismatches
    else .error (.movedRight place next)

end Scan

/-- The expression right before a trigger, whose character stands just left of `place`. -/
def checkedScan (lines : List Text) (place : Position) (cap : Nat) :
    Except Fault Scan.Outcome := do
  let stop ← Scan.checkedClamp lines (place.shiftedLeft 1)
  let walk ← Scan.checkedWalk lines cap stop 0 0
  let span ← Span.ordered walk.start stop
  return ⟨span, walk.iterations, walk.mismatches, walk.converged⟩

/-! ## No fault -/

section Countable

-- The opening brackets of the document can be counted.
variable {lines : List Text} (hlines : openersIn lines < counterLimit)

include hlines

theorem checkedSeek_upward_eq_ok (goal : Matcher.Step) (place : Position) :
    Matcher.checkedSeek goal Matcher.initial (upward lines place) =
      .ok (Matcher.seek goal Matcher.initial (upward lines place)) := by
  apply Matcher.checkedSeek_eq_ok
  have hzero : Matcher.initial.mismatches = 0 := rfl
  have hseen := openersIn_upward_le lines place
  have hall := openersBefore_le_openersIn lines place
  omega

theorem checkedFindOpener_eq_ok (place : Position) :
    checkedFindOpener lines place = .ok (findOpener lines place) := by
  simp only [checkedFindOpener, checkedUpward_eq_ok, checkedSeek_upward_eq_ok hlines, bind,
    Except.bind, pure, Except.pure, findOpener]

theorem checkedEnclosingOpener_eq_ok (place : Position) :
    checkedEnclosingOpener lines place = .ok (enclosingOpener lines place) := by
  simp only [checkedEnclosingOpener, checkedUpward_eq_ok, checkedSeek_upward_eq_ok hlines, bind,
    Except.bind, pure, Except.pure, enclosingOpener]

namespace Scan

omit hlines in
@[simp] theorem checkedClamp_eq_ok (lines : List Text) (place : Position) :
    checkedClamp lines place = .ok (clamp lines place) := by
  unfold checkedClamp clamp
  cases lines[place.row]? with
  | none => rfl
  | some line => simp only [Text.checkedCut_eq_ok, bind, Except.bind, pure, Except.pure]

theorem checkedMemberReceiver_eq_ok (dot : Position) :
    checkedMemberReceiver lines dot = .ok (memberReceiver lines dot) := by
  unfold checkedMemberReceiver memberReceiver
  simp only [checkedUpward_eq_ok, checkedEnclosingOpener_eq_ok hlines, bind, Except.bind, pure,
    Except.pure]
  cases upward lines dot with
  | nil => rfl
  | cons first above =>
    obtain ⟨row, line⟩ := first
    dsimp only
    split
    · rfl
    · split
      · rfl
      · rfl

theorem checkedStep_eq_ok {place : Position} {mismatches : Nat}
    (h : mismatches + (step lines place).2 < counterLimit) :
    checkedStep lines place mismatches =
      .ok ((step lines place).1, mismatches + (step lines place).2) := by
  unfold step at h ⊢
  unfold checkedStep
  cases hline : lines[place.row]? with
  | none => rfl
  | some line =>
    simp only [hline] at h
    simp only [Text.checkedCut_eq_ok, bind, Except.bind, pure, Except.pure]
    cases hlast : (Text.cut line place.column).getLast? with
    | none => rfl
    | some c =>
      simp only [hlast] at h
      dsimp only
      by_cases hcloser : isCloser c = true
      · simp only [if_pos hcloser] at h ⊢
        simp only [checkedFindOpener_eq_ok hlines, checkedCount_of_lt h]
      · simp only [if_neg hcloser] at h ⊢
        cases hatom : atomEnd (Text.cut line place.column) with
        | none => simp only [atomStart, hatom, Option.map_none, Nat.add_zero]
        | some atom =>
          -- The atom is sliced off where it starts.
          obtain ⟨front, hbefore, hwidth⟩ := atomEnd_eq_some hatom
          have hdrop := Text.checkedDrop_append_width front atom
          rw [← hbefore, ← hwidth] at hdrop
          simp only [atomStart, hatom, Option.map_some, hdrop,
            checkedMemberReceiver_eq_ok hlines]
          split
          · rfl
          · rfl

theorem checkedWalk_eq_ok {remaining iterations mismatches : Nat} {place : Position} {w : Walk}
    (hsteps : iterations + remaining < counterLimit)
    (hcount : mismatches + openersBefore lines place < counterLimit)
    (hw : walk lines remaining place = .ok w) :
    checkedWalk lines remaining place iterations mismatches =
      .ok ⟨w.start, iterations + w.iterations, mismatches + w.mismatches, w.converged⟩ := by
  induction remaining generalizing iterations mismatches place w with
  | zero =>
    obtain rfl := Except.ok.inj hw
    rfl
  | succ remaining ih =>
    obtain ⟨hcounted, hmoved⟩ := step_mismatches_le lines place
    have hiterations : iterations + 1 < counterLimit := by omega
    have hmismatches : mismatches + (step lines place).2 < counterLimit := by omega
    rw [checkedWalk]
    simp only [checkedCount_of_lt hiterations, checkedStep_eq_ok hlines hmismatches, bind,
      Except.bind, pure, Except.pure]
    rcases Position.le_iff_lt_or_eq.1 (step_le_and_isPlace lines place).1 with hlt | hstay
    · have hne := Position.ne_of_lt hlt
      obtain ⟨rest, hrest, -⟩ := walk_eq_ok lines remaining (step lines place).1
      obtain rfl := Except.ok.inj ((walk_of_step_lt hlt hrest).symm.trans hw)
      have hleft := hmoved hne
      rw [if_neg hne, if_pos hlt, ih (by omega) (by omega) hrest]
      simp only [Nat.add_assoc, Nat.add_comm 1]
    · obtain rfl := Except.ok.inj ((walk_of_step_eq remaining hstay).symm.trans hw)
      rw [if_pos hstay]

end Scan

/-- **A scan with every access checked gives what the scan gives.** No slice, index, counter or
assertion fails. -/
theorem checkedScan_eq_scan (place : Position) {cap : Nat} (hcap : cap < counterLimit) :
    checkedScan lines place cap = scan lines place cap := by
  obtain ⟨w, hw, hle, -⟩ := Scan.walk_eq_ok lines cap (Scan.clamp lines (place.shiftedLeft 1))
  have hsteps : 0 + cap < counterLimit := by rwa [Nat.zero_add]
  have hcount := Nat.lt_of_le_of_lt
    (openersBefore_le_openersIn lines (Scan.clamp lines (place.shiftedLeft 1))) hlines
  rw [← Nat.zero_add (openersBefore _ _)] at hcount
  have hwalk := Scan.checkedWalk_eq_ok hlines hsteps hcount hw
  rw [Scan.scan_of_walk hw]
  simp only [checkedScan, Scan.checkedClamp_eq_ok, hwalk, Span.ordered_of_le hle, Nat.zero_add,
    bind, Except.bind, pure, Except.pure]

end Countable

end DotTarget
