import DotTarget.Proofs.Document.Offsets

set_option autoImplicit false

/-! # Positions beyond the machine word

Positions come from outside, and their columns may be any machine words. The offset of a position is
a sum, which is formed before it is compared with the end of the row. So a column far behind the end
of a row leaves the machine word where the row does not start the text (`Position.Overflows`), and
that is a fault instead of the answer that there is no offset.

`LineIndex.offset_eq` says what becomes of every position, and no other sum or difference on the way
can fail (`LineIndex.checkedOffset_eq_offset`). Edits and slices look up the offsets of two bounds,
the start first, and do nothing else that can fail before both are found
(`LineIndex.fromBounds_eq`). So the same holds for them (`LineIndex.offset_unless_overflows`). -/

namespace DotTarget

/-- Each row above a row takes a byte at least. -/
theorem le_rowStart {lines : List Text} {row : Nat} (h : row < lines.length) :
    row ≤ rowStart lines row := by
  induction lines generalizing row with
  | nil => exact absurd h (Nat.not_lt_zero row)
  | cons line lines ih =>
    cases row with
    | zero => exact Nat.zero_le _
    | succ row =>
      have hrow := ih (Nat.lt_of_succ_lt_succ h)
      rw [rowStart_cons_succ]
      omega

namespace Position

instance (lines : List Text) (p : Position) : Decidable (p.InLines lines) :=
  inferInstanceAs (Decidable (∃ line ∈ lines[p.row]?, p.column ≤ Text.width line))

theorem InLines.row_lt {lines : List Text} {p : Position} (h : p.InLines lines) :
    p.row < lines.length := by
  obtain ⟨line, hline, -⟩ := h
  exact (List.getElem?_eq_some_iff.1 hline).1

/-- The row exists, but its start and the column add up to more than a machine word holds. -/
def Overflows (lines : List Text) (p : Position) : Prop :=
  p.row < lines.length ∧ addressLimit ≤ p.offsetIn lines

instance (lines : List Text) (p : Position) : Decidable (p.Overflows lines) :=
  inferInstanceAs (Decidable (_ ∧ _))

/-- The first row starts at zero, where no sum is larger than the column. -/
theorem Overflows.row_pos {lines : List Text} {p : Position} (h : p.Overflows lines)
    (hcolumn : p.column < addressLimit) : 0 < p.row := by
  obtain ⟨row, column⟩ := p
  obtain ⟨-, hsum⟩ := h
  cases row with
  | zero =>
    simp only [offsetIn, rowStart_zero, Nat.zero_add] at hsum
    exact absurd hcolumn (Nat.not_lt.2 hsum)
  | succ row => exact Nat.succ_pos row

theorem InLines.not_overflows {t : Text} {p : Position} (h : p.InLines (Text.lines t))
    (hlimit : Text.width t < addressLimit) : ¬ p.Overflows (Text.lines t) := by
  rintro ⟨-, hsum⟩
  have hle := LineIndex.offsetIn_le_width h
  omega

/-- What stands before a position of the document leaves the machine word only if the position
does. -/
theorem Overflows.mono {lines : List Text} {p q : Position} (hp : p.InLines lines)
    (hq : q.InLines lines) (hle : p ≤ q) (h : p.Overflows lines) : q.Overflows lines :=
  ⟨hq.row_lt, Nat.le_trans h.2 ((offsetIn_le_offsetIn_iff hp hq).2 hle)⟩

end Position

namespace LineIndex

theorem offset?_eq (t : Text) (p : Position) :
    (ofText t).offset? p =
      if p.InLines (Text.lines t) then some (p.offsetIn (Text.lines t)) else none := by
  split
  · rename_i hin
    exact offset?_offsetIn hin
  · rename_i hin
    rw [Option.eq_none_iff_forall_ne_some]
    intro offset h
    exact hin (offset?_eq_some_iff.1 h).1

/-- **Every position has an offset, has none, or leaves the machine word.** It has one on the rows
of the text, and it leaves the word if its row exists and the sum is too large. -/
theorem offset_eq (t : Text) (p : Position) :
    (ofText t).offset p =
      if p.Overflows (Text.lines t) then .error .addOverflow
      else .ok (if p.InLines (Text.lines t) then some (p.offsetIn (Text.lines t)) else none) := by
  split
  · rename_i hover
    obtain ⟨hlt, hsum⟩ := hover
    have hstart : (ofText t).starts[p.row]? = some (rowStart (Text.lines t) p.row) :=
      (row_bounds_of_getElem? (List.getElem?_eq_getElem hlt)).1
    have hadd : checkedAdd (rowStart (Text.lines t) p.row) p.column = .error .addOverflow :=
      if_neg (Nat.not_lt.2 hsum)
    simp only [LineIndex.offset, hstart, hadd, bind, Except.bind]
  · rename_i hover
    rw [← offset?_eq, offset_eq_ok]
    intro start h
    obtain ⟨hrow, rfl⟩ := getElem?_starts_eq_some h
    by_contra hsum
    exact hover ⟨hrow.row_lt, Nat.not_lt.1 hsum⟩

/-! ## No other fault -/

/-- Where a row ends, with the number of the next row and the difference computed in machine
words. -/
def checkedRowEnd (index : LineIndex) (row : Nat) : Except Fault Nat := do
  let below ← checkedAdd row 1
  match index.starts[below]? with
  | some next => checkedSub next 1
  | none => return index.length

/-- The byte offset of a position, with everything on the way computed in machine words. -/
def checkedOffset (index : LineIndex) (p : Position) : Except Fault (Option Nat) :=
  match index.starts[p.row]? with
  | none => .ok none
  | some start => do
    let rowEnd ← index.checkedRowEnd p.row
    let sum ← checkedAdd start p.column
    return if sum ≤ rowEnd then some sum else none

variable {t : Text} (hlimit : Text.width t + 1 < addressLimit)

include hlimit

theorem checkedRowEnd_eq_ok {row : Nat} (hrow : row < (Text.lines t).length) :
    (ofText t).checkedRowEnd row = .ok ((ofText t).rowEnd row) := by
  have hle := le_rowStart hrow
  have hwidth := (row_bounds_of_getElem? (List.getElem?_eq_getElem hrow)).2.2
  have hbelow : checkedAdd row 1 = .ok (row + 1) := if_pos (by omega)
  unfold checkedRowEnd rowEnd
  simp only [hbelow, bind, Except.bind]
  cases hnext : (ofText t).starts[row + 1]? with
  | none => rfl
  | some next =>
    -- The next row starts behind a row break, so its start is not zero.
    obtain ⟨hin, rfl⟩ := getElem?_starts_eq_some hnext
    have hpos : row + 1 ≤ rowStart (Text.lines t) (row + 1) := le_rowStart hin.row_lt
    exact if_pos (by omega)

/-- **Apart from the sum of start and column nothing leaves the machine word.** -/
theorem checkedOffset_eq_offset (p : Position) :
    (ofText t).checkedOffset p = (ofText t).offset p := by
  unfold checkedOffset LineIndex.offset
  cases hstart : (ofText t).starts[p.row]? with
  | none => rfl
  | some start =>
    obtain ⟨hin, -⟩ := getElem?_starts_eq_some hstart
    simp only [checkedRowEnd_eq_ok hlimit hin.row_lt, bind, Except.bind]

end LineIndex

/-! ## Both bounds of a span -/

namespace Span

/-- Both bounds stand on rows that exist, not behind their ends. -/
def InLines (lines : List Text) (s : Span) : Prop :=
  s.start.InLines lines ∧ s.stop.InLines lines

instance (lines : List Text) (s : Span) : Decidable (s.InLines lines) :=
  inferInstanceAs (Decidable (_ ∧ _))

/-- One of the bounds leaves the machine word. The stop is looked up only if the start has an
offset. -/
def Overflows (lines : List Text) (s : Span) : Prop :=
  s.start.Overflows lines ∨ (s.start.InLines lines ∧ s.stop.Overflows lines)

instance (lines : List Text) (s : Span) : Decidable (s.Overflows lines) :=
  inferInstanceAs (Decidable (_ ∨ _))

theorem not_overflows {lines : List Text} {s : Span} (hstart : ¬ s.start.Overflows lines)
    (hstop : s.start.InLines lines → ¬ s.stop.Overflows lines) : ¬ s.Overflows lines :=
  not_or.2 ⟨hstart, fun h => hstop h.1 h.2⟩

theorem emptyAt_inLines_iff (lines : List Text) (p : Position) :
    (emptyAt p).InLines lines ↔ p.InLines lines :=
  and_self_iff

theorem emptyAt_overflows_iff (lines : List Text) (p : Position) :
    (emptyAt p).Overflows lines ↔ p.Overflows lines :=
  or_iff_left_of_imp And.right

theorem InLines.not_overflows {t : Text} {s : Span} (h : s.InLines (Text.lines t))
    (hlimit : Text.width t < addressLimit) : ¬ s.Overflows (Text.lines t) :=
  Span.not_overflows (h.1.not_overflows hlimit) fun _ => h.2.not_overflows hlimit

end Span

namespace LineIndex

/-- What is computed from the offsets of both bounds of a span, if both have one. The start is
looked up first. -/
def fromBounds {α : Type} (index : LineIndex) (s : Span) (f : Nat → Nat → Option α) :
    Except Fault (Option α) := do
  let some start ← index.offset s.start | return none
  let some stop ← index.offset s.stop | return none
  return f start stop

/-- **Only a sum that leaves the machine word is a fault.** A span with a bound off the rows has no
offsets, and nothing is computed. -/
theorem fromBounds_eq {α : Type} (t : Text) (s : Span) (f : Nat → Nat → Option α) :
    (ofText t).fromBounds s f =
      if s.Overflows (Text.lines t) then .error .addOverflow
      else .ok (if s.InLines (Text.lines t) then
        f (s.start.offsetIn (Text.lines t)) (s.stop.offsetIn (Text.lines t)) else none) := by
  unfold fromBounds
  rw [offset_eq t s.start, offset_eq t s.stop]
  by_cases hstart : s.start.Overflows (Text.lines t)
  · rw [if_pos hstart, if_pos (show s.Overflows _ from .inl hstart)]
    rfl
  · rw [if_neg hstart]
    by_cases hin : s.start.InLines (Text.lines t)
    · rw [if_pos hin]
      by_cases hstop : s.stop.Overflows (Text.lines t)
      · rw [if_pos hstop, if_pos (show s.Overflows _ from .inr ⟨hin, hstop⟩)]
        rfl
      · rw [if_neg hstop, if_neg (Span.not_overflows hstart fun _ => hstop)]
        by_cases hin' : s.stop.InLines (Text.lines t)
        · rw [if_pos hin', if_pos (show s.InLines _ from ⟨hin, hin'⟩)]
          rfl
        · rw [if_neg hin', if_neg (fun h : s.InLines _ => hin' h.2)]
          rfl
    · -- The stop is not looked up, so it does not matter whether it overflows.
      rw [if_neg hin, if_neg (Span.not_overflows hstart fun h => absurd h hin),
        if_neg (fun h : s.InLines _ => hin h.1)]
      rfl

end LineIndex

/-! ## Edits and slices -/

namespace Edit

/-- The edit of a span of a document, with its offsets counted in rows. -/
def inLines (lines : List Text) (s : Span) (written : Text) : Edit where
  startByte := s.start.offsetIn lines
  oldEndByte := s.stop.offsetIn lines
  newEndByte := s.start.offsetIn lines + Text.width written
  start := s.start
  oldEnd := s.stop
  newEnd := s.start.advance written

/-- There is an edit for every span on the rows of the text, and for no other. -/
theorem replace_eq (t : Text) (s : Span) (written : Text) :
    replace t s written =
      if s.Overflows (Text.lines t) then .error .addOverflow
      else .ok (if s.InLines (Text.lines t) then some (inLines (Text.lines t) s written)
        else none) :=
  LineIndex.fromBounds_eq t s fun start stop =>
    some (Edit.mk start stop (start + Text.width written) s.start s.stop (s.start.advance written))

theorem insert_eq (t : Text) (p : Position) (inserted : Text) :
    insert t p inserted =
      if p.Overflows (Text.lines t) then .error .addOverflow
      else .ok (if p.InLines (Text.lines t) then
        some (inLines (Text.lines t) (Span.emptyAt p) inserted) else none) := by
  unfold insert
  simp only [replace_eq, Span.emptyAt_overflows_iff, Span.emptyAt_inLines_iff]

end Edit

theorem Span.slice_eq (s : Span) (t : Text) :
    s.slice t =
      if s.Overflows (Text.lines t) then .error .addOverflow
      else .ok (if s.InLines (Text.lines t) then
        Text.slice? t (s.start.offsetIn (Text.lines t)) (s.stop.offsetIn (Text.lines t))
        else none) :=
  LineIndex.fromBounds_eq t s (Text.slice? t)

namespace LineIndex

/-- **A position outside the text has no offset, unless it leaves the machine word.** Inside the
text the offset is the start of the row and the column. A position leaves the machine word only if
its row exists and ends before its column and, for a column that is a machine word, the row is not
the first. Nothing else on the way can fail. The same faults, and no others, come from inserting,
replacing and slicing, which have no answer for all other positions outside the text.

The text leaves room for one more byte in memory, so that its rows can be counted. -/
theorem offset_unless_overflows {t : Text} (hlimit : Text.width t + 1 < addressLimit) :
    (∀ p : Position,
      (ofText t).checkedOffset p = (ofText t).offset p ∧
      ((ofText t).offset p =
        if p.Overflows (Text.lines t) then .error .addOverflow
        else .ok (if p.InLines (Text.lines t) then
          some (rowStart (Text.lines t) p.row + p.column) else none)) ∧
      (p.Overflows (Text.lines t) → ¬ p.InLines (Text.lines t) ∧
        (p.column < addressLimit → 0 < p.row))) ∧
    (∀ p inserted, Edit.insert t p inserted =
      if p.Overflows (Text.lines t) then .error .addOverflow
      else .ok (if p.InLines (Text.lines t) then
        some (Edit.inLines (Text.lines t) (Span.emptyAt p) inserted) else none)) ∧
    (∀ s written, Edit.replace t s written =
      if s.Overflows (Text.lines t) then .error .addOverflow
      else .ok (if s.InLines (Text.lines t) then
        some (Edit.inLines (Text.lines t) s written) else none)) ∧
    ∀ s : Span, s.slice t =
      if s.Overflows (Text.lines t) then .error .addOverflow
      else .ok (if s.InLines (Text.lines t) then
        Text.slice? t (s.start.offsetIn (Text.lines t)) (s.stop.offsetIn (Text.lines t))
        else none) := by
  refine ⟨?_, Edit.insert_eq t, Edit.replace_eq t, fun s => s.slice_eq t⟩
  intro p
  refine ⟨checkedOffset_eq_offset hlimit p, offset_eq t p, ?_⟩
  intro hover
  exact ⟨fun hin => hin.not_overflows (Nat.lt_of_succ_lt hlimit) hover, hover.row_pos⟩

/-- Two rows, with a letter of two bytes in the first. -/
def twoRows : Text :=
  "é\nb".toList

/-- On the second row of `twoRows`, the last column that can be added to its start, and the largest
machine word, which cannot. -/
theorem offset_unless_overflows_twoRows :
    Text.width twoRows + 1 < addressLimit ∧
      (ofText twoRows).checkedOffset ⟨1, 1⟩ = .ok (some 4) ∧
      (ofText twoRows).offset ⟨1, 18446744073709551612⟩ = .ok none ∧
      (ofText twoRows).offset ⟨0, 18446744073709551615⟩ = .ok none ∧
      Edit.insert twoRows ⟨2, 18446744073709551615⟩ [] = .ok none ∧
      Edit.replace twoRows ⟨⟨0, 3⟩, ⟨1, 18446744073709551615⟩⟩ [] = .ok none ∧
      Span.slice ⟨⟨0, 2⟩, ⟨1, 18446744073709551615⟩⟩ twoRows = .error .addOverflow := by
  have hlimit : Text.width twoRows + 1 < addressLimit := by decide
  obtain ⟨hoffset, hinsert, hreplace, hslice⟩ := offset_unless_overflows hlimit
  refine ⟨hlimit, ?_, ?_, ?_, ?_, ?_, ?_⟩
  · exact (hoffset ⟨1, 1⟩).1.trans ((hoffset ⟨1, 1⟩).2.1.trans (by decide))
  · exact (hoffset ⟨1, _⟩).2.1.trans (by decide)
  · exact (hoffset ⟨0, _⟩).2.1.trans (by decide)
  · exact (hinsert ⟨2, _⟩ []).trans (by decide)
  · exact (hreplace ⟨⟨0, 3⟩, ⟨1, _⟩⟩ []).trans (by decide)
  · exact (hslice ⟨⟨0, 2⟩, ⟨1, _⟩⟩).trans (by decide)

/-- **The offset of a position is not total:** the largest column on the second row is a fault, for
the offset and for all that is computed from it. -/
theorem offset_largest_column :
    ¬ (⟨1, addressLimit - 1⟩ : Position).InLines (Text.lines twoRows) ∧
      (ofText twoRows).offset ⟨1, addressLimit - 1⟩ = .error .addOverflow ∧
      Edit.insert twoRows ⟨1, addressLimit - 1⟩ [] = .error .addOverflow ∧
      Edit.replace twoRows ⟨⟨0, 0⟩, ⟨1, addressLimit - 1⟩⟩ [] = .error .addOverflow ∧
      Span.slice ⟨⟨0, 0⟩, ⟨1, addressLimit - 1⟩⟩ twoRows = .error .addOverflow := by
  decide

end LineIndex

end DotTarget
