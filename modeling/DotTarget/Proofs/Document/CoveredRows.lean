import DotTarget.Proofs.Document.AddressOverflow
import DotTarget.Proofs.Document.EditUndo

set_option autoImplicit false

/-! # What a span covers, in bytes and in rows

A scan finds positions on the rows of a document, and the text between two positions is then taken
out of the whole text by byte offsets. Read off the rows, a span covers a part of one row, or the
end of a row, whole rows and the front of a row, with newlines between them (`Span.coveredIn`). The
two readings agree on every text (`Span.slice_eq_coveredIn`).

Both say that the covered text stands between two front parts of the text, at whose ends the span
has its bounds (`Span.Covers`). There is such a text exactly between two places in order
(`Span.exists_covers_iff`), and what two neighbouring spans cover is covered by both together
(`Span.Covers.append`). -/

namespace DotTarget

theorem Position.le_advance (p : Position) (t : Text) : p ≤ p.advance t := by
  by_cases ht : t = []
  · rw [ht]
    exact le_refl p
  · exact le_iff_lt_or_eq.2 (.inl (lt_advance p ht))

/-- Two front parts of a text that end at the same place are the same. -/
theorem Position.eq_of_advance_eq {s s' t : Text} (hs : s <+: t) (hs' : s' <+: t)
    (h : origin.advance s = origin.advance s') : s = s' := by
  have hfront := prefix_of_advance_le hs hs' (h ▸ le_refl _)
  have hfront' := prefix_of_advance_le hs' hs (h ▸ le_refl _)
  exact hfront.eq_of_length_le hfront'.length_le

/-- A position with as many bytes before it as a front part has is the end of that part. -/
theorem Position.InLines.eq_advance {t : Text} {p : Position} (hp : p.InLines (Text.lines t))
    {front : Text} (hfront : front <+: t) (h : Text.width front = p.offsetIn (Text.lines t)) :
    p = origin.advance front := by
  obtain ⟨hin, hoffset⟩ := LineIndex.offset?_eq_some_iff.1 (offset?_advance hfront)
  exact eq_of_offsetIn_eq hp hin (h.symm.trans hoffset.symm)

namespace Span

/-- The text that a span covers, read off the rows: a part of one row, or the end of the first row,
the rows between and the front of the last row, joined by newlines. -/
def coveredIn (lines : List Text) (s : Span) : Option Text :=
  if s.start.row = s.stop.row then do
    let line ← lines[s.start.row]?
    Text.slice? line s.start.column s.stop.column
  else if s.start.row < s.stop.row then do
    let first ← lines[s.start.row]?
    let last ← lines[s.stop.row]?
    let (_, back) ← Text.splitAt? first s.start.column
    let (front, _) ← Text.splitAt? last s.stop.column
    let between := (lines.take s.stop.row).drop (s.start.row + 1)
    return Text.ofLines (back :: between ++ [front])
  else none

/-- The text stands between the bounds of the span: a front part of `t` ends at its start, and with
the text behind it that front part ends at its stop. -/
def Covers (t : Text) (s : Span) (part : Text) : Prop :=
  ∃ front, front ++ part <+: t ∧
    s = ⟨Position.origin.advance front, Position.origin.advance (front ++ part)⟩

variable {t part : Text} {s : Span}

/-- **Two places in order have a text between them,** and no other two positions do. -/
theorem exists_covers_iff :
    (∃ part, s.Covers t part) ↔
      IsPlace (Text.lines t) s.start ∧ IsPlace (Text.lines t) s.stop ∧ s.start ≤ s.stop := by
  constructor
  · rintro ⟨part, front, hpart, rfl⟩
    have hfront : front <+: t := (List.prefix_append front part).trans hpart
    refine ⟨isPlace_advance hfront, isPlace_advance hpart, ?_⟩
    dsimp only
    rw [Position.advance_append]
    exact Position.le_advance _ part
  · rintro ⟨hstart, hstop, hle⟩
    obtain ⟨front, part, back, rfl, rfl⟩ := Edit.exists_parts hle hstart hstop
    exact ⟨part, front, List.prefix_append _ _, rfl⟩

/-- **What two neighbouring spans cover is covered by both together.** -/
theorem Covers.append {p q r : Position} {part' : Text} (h : Covers t ⟨p, q⟩ part)
    (h' : Covers t ⟨q, r⟩ part') : Covers t ⟨p, r⟩ (part ++ part') := by
  obtain ⟨front, hpart, hs⟩ := h
  obtain ⟨front', hpart', hs'⟩ := h'
  obtain ⟨rfl, hq⟩ := Span.mk.inj hs
  obtain ⟨hq', rfl⟩ := Span.mk.inj hs'
  obtain rfl := Position.eq_of_advance_eq hpart ((List.prefix_append _ _).trans hpart')
    (hq.symm.trans hq')
  rw [List.append_assoc] at hpart'
  exact ⟨front, hpart', by rw [List.append_assoc]⟩

/-! ## By byte offsets -/

theorem slice?_eq (s : Span) (t : Text) :
    s.slice? t =
      if s.InLines (Text.lines t) then
        Text.slice? t (s.start.offsetIn (Text.lines t)) (s.stop.offsetIn (Text.lines t))
      else none := by
  split
  · rename_i hin
    rw [slice?, LineIndex.offset?_offsetIn hin.1, LineIndex.offset?_offsetIn hin.2]
    rfl
  · rename_i hin
    rw [Option.eq_none_iff_forall_ne_some]
    intro part h
    simp only [slice?, bind, Option.bind_eq_some_iff, LineIndex.offset?_eq_some_iff] at h
    obtain ⟨start, ⟨hstart, -⟩, stop, ⟨hstop, -⟩, -⟩ := h
    exact hin ⟨hstart, hstop⟩

/-- In machine words a span covers the same, unless a bound leaves the machine word. -/
theorem slice_eq_ok (h : ¬ s.Overflows (Text.lines t)) : s.slice t = .ok (s.slice? t) := by
  rw [slice_eq, if_neg h, slice?_eq]

/-- **Byte offsets find what a span covers.** -/
theorem slice?_eq_some_iff : s.slice? t = some part ↔ s.Covers t part := by
  constructor
  · rw [slice?_eq]
    intro h
    split at h
    · rename_i hin
      obtain ⟨front, back, rfl, hstart, hstop⟩ := Text.slice?_eq_some_iff.1 h
      have hfront : front <+: front ++ part ++ back := by simp
      rw [← Text.width_append] at hstop
      refine ⟨front, List.prefix_append _ _, ?_⟩
      rw [← hin.1.eq_advance hfront hstart, ← hin.2.eq_advance (List.prefix_append _ _) hstop]
    · exact absurd h (by simp)
  · rintro ⟨front, hpart, rfl⟩
    exact slice?_advance hpart

/-! ## By rows -/

section Rows

variable {lines above below : List Text} {head rest : Text}

theorem coveredIn_row {row : Nat} (hline : lines[row]? = some (head ++ part ++ rest)) :
    coveredIn lines ⟨⟨row, Text.width head⟩, ⟨row, Text.width (head ++ part)⟩⟩ = some part := by
  rw [coveredIn, if_pos rfl]
  simp only [hline, bind, Option.bind_some]
  exact Text.slice?_eq_some_iff.2 ⟨head, rest, rfl, rfl, (Text.width_append head part).symm⟩

theorem coveredIn_rows {first last : Text} {between : List Text}
    (h : lines = above ++ (head ++ first) :: (between ++ (last ++ rest) :: below)) :
    coveredIn lines
      ⟨⟨above.length, Text.width head⟩, ⟨above.length + 1 + between.length, Text.width last⟩⟩ =
      some (Text.closed (first :: between) ++ last) := by
  have hfirst : lines[above.length]? = some (head ++ first) := by simp [h]
  have hlast : lines[above.length + 1 + between.length]? = some (last ++ rest) := by
    have hlength : above.length + 1 + between.length =
        (above ++ (head ++ first) :: between).length := by simp; omega
    rw [h, hlength, ← List.cons_append, ← List.append_assoc]
    simp
  have hback : Text.splitAt? (head ++ first) (Text.width head) = some (head, first) :=
    Text.splitAt?_eq_some_iff.2 ⟨rfl, rfl⟩
  have hfront : Text.splitAt? (last ++ rest) (Text.width last) = some (last, rest) :=
    Text.splitAt?_eq_some_iff.2 ⟨rfl, rfl⟩
  have hbetween : (lines.take (above.length + 1 + between.length)).drop (above.length + 1) =
      between := by
    rw [List.drop_take, Nat.add_sub_cancel_left, h]
    simp
  rw [coveredIn, if_neg (by dsimp only; omega), if_pos (by dsimp only; omega)]
  simp only [hfirst, hlast, hback, hfront, hbetween, bind, Option.bind_some, pure]
  rw [← Text.ofLines_concat]

/-- What is read off rows stands between two places in order. -/
theorem isPlace_of_coveredIn (h : s.coveredIn lines = some part) :
    IsPlace lines s.start ∧ IsPlace lines s.stop ∧ s.start ≤ s.stop := by
  unfold coveredIn at h
  split at h
  · rename_i hrow
    simp only [bind, Option.bind_eq_some_iff] at h
    obtain ⟨line, hline, hslice⟩ := h
    obtain ⟨front, back, rfl, hstart, hstop⟩ := Text.slice?_eq_some_iff.1 hslice
    refine ⟨⟨_, front, hline, by simp, hstart⟩, ⟨_, front ++ part, hrow ▸ hline, by simp, ?_⟩,
      .inr ⟨hrow, by omega⟩⟩
    rw [Text.width_append, hstop]
  · split at h
    · rename_i hrow
      simp only [bind, Option.bind_eq_some_iff, Prod.exists, Text.splitAt?_eq_some_iff] at h
      obtain ⟨_, hfirst, _, hlast, head, back, ⟨rfl, hstart⟩, front, rest, ⟨rfl, hstop⟩, -⟩ := h
      exact ⟨⟨_, head, hfirst, List.prefix_append _ _, hstart⟩,
        ⟨_, front, hlast, List.prefix_append _ _, hstop⟩, .inl hrow⟩
    · exact absurd h (by simp)

end Rows

/-- **The rows hold what a span covers.** -/
theorem Covers.coveredIn_eq (h : s.Covers t part) : s.coveredIn (Text.lines t) = some part := by
  obtain ⟨front, ⟨back, ht⟩, rfl⟩ := h
  obtain ⟨above, head, rfl, habove, hhead⟩ := Text.exists_eq_closed_append front
  obtain ⟨rows, last, rfl, hrows, hlast⟩ := Text.exists_eq_closed_append part
  obtain ⟨rest, below, rfl, hrest, hbelow⟩ := Text.exists_eq_row_append back
  rw [Position.advance_closed_append habove hhead]
  cases rows with
  | nil =>
    have hstop : '\n' ∉ head ++ last := by simp [hhead, hlast]
    have hsplit : SplitsAtRow t above (head ++ last ++ rest) below :=
      ⟨by simp [← ht, Text.closed_nil], habove, by simp [hhead, hlast, hrest], hbelow⟩
    rw [Text.closed_nil, List.nil_append, List.append_assoc,
      Position.advance_closed_append habove hstop]
    exact coveredIn_row hsplit.getElem?_lines
  | cons first between =>
    simp only [List.mem_cons, forall_eq_or_imp] at hrows
    have hfree : ∀ row ∈ above ++ (head ++ first) :: between, '\n' ∉ row := by
      intro row hrow
      rcases List.mem_append.1 hrow with hmem | hmem
      · exact habove row hmem
      · rcases List.mem_cons.1 hmem with rfl | hmem
        · simp [hhead, hrows.1]
        · exact hrows.2 row hmem
    have hwhole : Text.closed above ++ head ++ (Text.closed (first :: between) ++ last) =
        Text.closed (above ++ (head ++ first) :: between) ++ last := by
      simp [Text.closed]
    have hsplit : SplitsAtRow t (above ++ (head ++ first) :: between) (last ++ rest) below :=
      ⟨by rw [← ht, hwhole]; simp, hfree, by simp [hlast, hrest], hbelow⟩
    have hlength : (above ++ (head ++ first) :: between).length =
        above.length + 1 + between.length := by simp; omega
    have hlines := hsplit.lines_eq
    rw [List.append_assoc, List.cons_append] at hlines
    rw [hwhole, Position.advance_closed_append hfree hlast, hlength]
    exact coveredIn_rows hlines

theorem coveredIn_eq_some_iff : s.coveredIn (Text.lines t) = some part ↔ s.Covers t part := by
  constructor
  · intro h
    obtain ⟨part', hcovers⟩ := exists_covers_iff.2 (isPlace_of_coveredIn h)
    obtain rfl := Option.some.inj (hcovers.coveredIn_eq.symm.trans h)
    exact hcovers
  · exact Covers.coveredIn_eq

section Parts

variable {front rest : Text} {row : Nat}

/-- A part of a row is covered by the span between its ends. -/
theorem covers_row (hline : (Text.lines t)[row]? = some (front ++ part ++ rest)) :
    Covers t ⟨⟨row, Text.width front⟩, ⟨row, Text.width (front ++ part)⟩⟩ part :=
  coveredIn_eq_some_iff.1 (coveredIn_row hline)

/-- The end of a row and the newline behind it are covered up to the next row. -/
theorem covers_rowEnd (hline : (Text.lines t)[row]? = some (front ++ part))
    (hnext : row + 1 < (Text.lines t).length) :
    Covers t ⟨⟨row, Text.width front⟩, ⟨row + 1, 0⟩⟩ (part ++ ['\n']) := by
  have hlast := List.getElem?_eq_getElem hnext
  have hback : Text.splitAt? (front ++ part) (Text.width front) = some (front, part) :=
    Text.splitAt?_eq_some_iff.2 ⟨rfl, rfl⟩
  have hfront : Text.splitAt? (Text.lines t)[row + 1] 0 = some ([], (Text.lines t)[row + 1]) :=
    Text.splitAt?_eq_some_iff.2 ⟨rfl, rfl⟩
  have hbetween : ((Text.lines t).take (row + 1)).drop (row + 1) = [] := by simp
  rw [← coveredIn_eq_some_iff, coveredIn, if_neg (by simp), if_pos (by simp)]
  simp only [hline, hlast, hback, hfront, hbetween, bind, Option.bind_some, pure]
  simp [Text.ofLines]

theorem exists_covers_append {p middle q : Position} (h : Covers t ⟨p, middle⟩ part)
    (hq : IsPlace (Text.lines t) q) (hle : middle ≤ q) :
    ∃ more, Covers t ⟨p, q⟩ (part ++ more) := by
  have hmiddle := (exists_covers_iff.1 ⟨part, h⟩).2.1
  obtain ⟨more, hmore⟩ := (exists_covers_iff (s := ⟨middle, q⟩)).2 ⟨hmiddle, hq, hle⟩
  exact ⟨more, h.append hmore⟩

end Parts

/-! ## Both readings -/

/-- The two readings agree. -/
theorem slice?_eq_coveredIn (t : Text) (s : Span) : s.slice? t = s.coveredIn (Text.lines t) := by
  apply Option.ext
  intro part
  rw [slice?_eq_some_iff, coveredIn_eq_some_iff]

theorem slice_eq_some_iff (h : ¬ s.Overflows (Text.lines t)) :
    s.slice t = .ok (some part) ↔ s.Covers t part := by
  rw [slice_eq_ok h, Except.ok.injEq, slice?_eq_some_iff]

/-- **A span covers the same in bytes and in rows.** The index counts the rows of the text. Unless a
bound leaves the machine word, slicing by byte offsets gives what is read off the rows; it gives a
text exactly if both bounds are places of the text, in order. What two spans cover that meet at a
place is then, one behind the other, what the span around them covers. -/
theorem slice_eq_coveredIn {t : Text} {s : Span} (hstart : ¬ s.start.Overflows (Text.lines t))
    (hstop : ¬ s.stop.Overflows (Text.lines t)) :
    (LineIndex.ofText t).lineCount = (Text.lines t).length ∧
    s.slice t = .ok (s.coveredIn (Text.lines t)) ∧
    ((∃ part, s.slice t = .ok (some part)) ↔
      IsPlace (Text.lines t) s.start ∧ IsPlace (Text.lines t) s.stop ∧ s.start ≤ s.stop) ∧
    ∀ middle, IsPlace (Text.lines t) s.start → IsPlace (Text.lines t) middle →
      IsPlace (Text.lines t) s.stop → s.start ≤ middle → middle ≤ s.stop →
      ∃ part part', slice ⟨s.start, middle⟩ t = .ok (some part) ∧
        slice ⟨middle, s.stop⟩ t = .ok (some part') ∧ s.slice t = .ok (some (part ++ part')) := by
  have hover := not_overflows hstart fun _ => hstop
  refine ⟨LineIndex.lineCount_ofText t, ?_, ?_, ?_⟩
  · rw [slice_eq_ok hover, slice?_eq_coveredIn]
  · simp only [slice_eq_some_iff hover]
    exact exists_covers_iff
  · intro middle hp hq hr hpq hqr
    have hmiddle : ¬ middle.Overflows (Text.lines t) :=
      fun h => hstop (h.mono hq.inLines hr.inLines hqr)
    have hfirst : ¬ Overflows (Text.lines t) ⟨s.start, middle⟩ :=
      not_overflows hstart fun _ => hmiddle
    have hsecond : ¬ Overflows (Text.lines t) ⟨middle, s.stop⟩ :=
      not_overflows hmiddle fun _ => hstop
    obtain ⟨part, hpart⟩ := (exists_covers_iff (s := ⟨s.start, middle⟩)).2 ⟨hp, hq, hpq⟩
    obtain ⟨part', hpart'⟩ := (exists_covers_iff (s := ⟨middle, s.stop⟩)).2 ⟨hq, hr, hqr⟩
    exact ⟨part, part', (slice_eq_some_iff hfirst).2 hpart, (slice_eq_some_iff hsecond).2 hpart',
      (slice_eq_some_iff hover).2 (hpart.append hpart')⟩

/-- Three rows, the second empty and the third with a letter of two bytes behind a carriage
return. -/
def returnText : Text :=
  "ab\n\n\ré".toList

theorem slice_eq_coveredIn_returnText :
    ¬ (⟨0, 1⟩ : Position).Overflows (Text.lines returnText) ∧
      ¬ (⟨2, 3⟩ : Position).Overflows (Text.lines returnText) ∧
      slice ⟨⟨0, 1⟩, ⟨2, 3⟩⟩ returnText = .ok (some "b\n\n\ré".toList) ∧
      (¬ ∃ part, slice ⟨⟨0, 1⟩, ⟨2, 2⟩⟩ returnText = .ok (some part)) ∧
      (∃ part part', slice ⟨⟨0, 1⟩, ⟨1, 0⟩⟩ returnText = .ok (some part) ∧
        slice ⟨⟨1, 0⟩, ⟨2, 3⟩⟩ returnText = .ok (some part') ∧
        part ++ part' = "b\n\n\ré".toList) := by
  have hstart : ¬ (⟨0, 1⟩ : Position).Overflows (Text.lines returnText) := by decide
  have hstop : ¬ (⟨2, 3⟩ : Position).Overflows (Text.lines returnText) := by decide
  have hinside : ¬ (⟨2, 2⟩ : Position).Overflows (Text.lines returnText) := by decide
  obtain ⟨-, hslice, -, hmiddle⟩ := slice_eq_coveredIn (s := ⟨⟨0, 1⟩, ⟨2, 3⟩⟩) hstart hstop
  obtain ⟨-, -, hplaces, -⟩ := slice_eq_coveredIn (s := ⟨⟨0, 1⟩, ⟨2, 2⟩⟩) hstart hinside
  have hcovered : slice ⟨⟨0, 1⟩, ⟨2, 3⟩⟩ returnText = .ok (some "b\n\n\ré".toList) :=
    hslice.trans (by decide)
  refine ⟨hstart, hstop, hcovered, ?_, ?_⟩
  · rw [hplaces]
    decide
  · obtain ⟨part, part', hpart, hpart', hboth⟩ :=
      hmiddle ⟨1, 0⟩ (by decide) (by decide) (by decide) (by decide) (by decide)
    exact ⟨part, part', hpart, hpart',
      Option.some.inj (Except.ok.inj (hboth.symm.trans hcovered))⟩

end Span

end DotTarget
