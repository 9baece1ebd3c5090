import DotTarget.Proofs.Document.CoveredRows
import Mathlib.Tactic.MkIffOfInductiveProp

set_option autoImplicit false

/-! # Which edits replace a stretch of the text

An edit means that the text between two offsets was replaced, and there is such a text only if the
offsets are in order and stand between characters (`Edit.IsSplice`). The descriptor is computed from
positions, of which only the row and the end of the row are looked at. So a span with its bounds
reversed, or with a bound inside a character, is described as well, by an edit that no text can
undergo. `Edit.replace_isSplice_iff` says which spans these are: all on the rows of the text that
cover nothing. -/

namespace DotTarget

/-- An offset between two characters of a text, or at one of its ends. -/
def Text.IsBoundary (t : Text) (offset : Nat) : Prop :=
  ∃ front, front <+: t ∧ Text.width front = offset

theorem Text.isBoundary_iff {t : Text} {offset : Nat} :
    t.IsBoundary offset ↔ (splitAt? t offset).isSome = true := by
  rw [Option.isSome_iff_exists]
  constructor
  · rintro ⟨front, ⟨back, ht⟩, hwidth⟩
    exact ⟨(front, back), splitAt?_eq_some_iff.2 ⟨ht.symm, hwidth⟩⟩
  · rintro ⟨⟨front, back⟩, h⟩
    obtain ⟨ht, hwidth⟩ := splitAt?_eq_some_iff.1 h
    exact ⟨front, ⟨back, ht.symm⟩, hwidth⟩

instance (t : Text) (offset : Nat) : Decidable (t.IsBoundary offset) :=
  decidable_of_iff _ Text.isBoundary_iff.symm

/-- Of two front parts of a text the one with fewer bytes is a front part of the other. -/
theorem Text.prefix_of_width_le {s s' t : Text} (hs : s <+: t) (hs' : s' <+: t)
    (h : width s ≤ width s') : s <+: s' := by
  rcases List.prefix_or_prefix_of_prefix hs hs' with hfront | ⟨rest, rfl⟩
  · exact hfront
  · rw [width_append] at h
    have hrest : rest = [] := (width_eq_zero_iff rest).1 (by omega)
    simp [hrest]

/-- The offset of a position stands between two characters if the position does. -/
theorem Position.InLines.isBoundary_offsetIn_iff {t : Text} {p : Position}
    (hp : p.InLines (Text.lines t)) :
    Text.IsBoundary t (p.offsetIn (Text.lines t)) ↔ IsPlace (Text.lines t) p := by
  constructor
  · rintro ⟨front, hfront, hwidth⟩
    rw [hp.eq_advance hfront hwidth]
    exact isPlace_advance hfront
  · intro hplace
    obtain ⟨front, hfront, rfl⟩ := exists_front_of_isPlace hplace
    obtain ⟨-, hoffset⟩ := LineIndex.offset?_eq_some_iff.1 (offset?_advance hfront)
    exact ⟨front, hfront, hoffset.symm⟩

namespace Edit

/-- The edit replaces a stretch of the text: its two offsets are in order, lie within the text and
stand between characters. -/
@[mk_iff]
structure IsSplice (e : Edit) (t : Text) : Prop where
  startByte_le : e.startByte ≤ e.oldEndByte
  oldEndByte_le : e.oldEndByte ≤ Text.width t
  startByte_isBoundary : t.IsBoundary e.startByte
  oldEndByte_isBoundary : t.IsBoundary e.oldEndByte

instance (e : Edit) (t : Text) : Decidable (e.IsSplice t) :=
  decidable_of_iff _ (isSplice_iff e t).symm

variable {t : Text} {e : Edit}

/-- Such an edit takes out what stands between its offsets, and leads to a text. -/
theorem IsSplice.exists_texts (h : e.IsSplice t) (written : Text) :
    ∃ front removed back, t = front ++ removed ++ back ∧ e.removed? t = some removed ∧
      e.textAfter? t written = some (front ++ written ++ back) := by
  obtain ⟨front, hfront, hstart⟩ := h.startByte_isBoundary
  obtain ⟨whole, hwhole, hstop⟩ := h.oldEndByte_isBoundary
  have hle : Text.width front ≤ Text.width whole := by
    rw [hstart, hstop]
    exact h.startByte_le
  obtain ⟨removed, rfl⟩ := Text.prefix_of_width_le hfront hwhole hle
  obtain ⟨back, rfl⟩ := hwhole
  have hsplit : Text.splitAt? (front ++ removed ++ back) e.startByte =
      some (front, removed ++ back) :=
    Text.splitAt?_eq_some_iff.2 ⟨List.append_assoc _ _ _, hstart⟩
  have hsplit' : Text.splitAt? (front ++ removed ++ back) e.oldEndByte =
      some (front ++ removed, back) :=
    Text.splitAt?_eq_some_iff.2 ⟨rfl, hstop⟩
  refine ⟨front, removed, back, rfl, ?_, ?_⟩
  · refine Text.slice?_eq_some_iff.2 ⟨front, back, rfl, hstart, ?_⟩
    rw [← Text.width_append, hstop]
  · simp only [textAfter?, hsplit, hsplit', bind, Option.bind_some, pure]

/-- **An edit of a span on the rows replaces a stretch of the text exactly if the span lies between
two places in order.** -/
theorem inLines_isSplice_iff {s : Span} (h : s.InLines (Text.lines t)) (written : Text) :
    (inLines (Text.lines t) s written).IsSplice t ↔
      IsPlace (Text.lines t) s.start ∧ IsPlace (Text.lines t) s.stop ∧ s.start ≤ s.stop := by
  constructor
  · intro hsplice
    exact ⟨h.1.isBoundary_offsetIn_iff.1 hsplice.startByte_isBoundary,
      h.2.isBoundary_offsetIn_iff.1 hsplice.oldEndByte_isBoundary,
      (Position.offsetIn_le_offsetIn_iff h.1 h.2).1 hsplice.startByte_le⟩
  · rintro ⟨hstart, hstop, hle⟩
    exact ⟨(Position.offsetIn_le_offsetIn_iff h.1 h.2).2 hle, LineIndex.offsetIn_le_width h.2,
      h.1.isBoundary_offsetIn_iff.2 hstart, h.2.isBoundary_offsetIn_iff.2 hstop⟩

/-! ## Which spans have an edit -/

section Limit

variable (hlimit : Text.width t < addressLimit)

include hlimit

theorem replace_eq_some_iff {s : Span} {written : Text} :
    replace t s written = .ok (some e) ↔
      s.InLines (Text.lines t) ∧ inLines (Text.lines t) s written = e := by
  rw [replace_eq]
  split
  · rename_i hover
    refine iff_of_false (by simp) ?_
    rintro ⟨hin, -⟩
    exact hin.not_overflows hlimit hover
  · split
    · rename_i hin
      simp [hin]
    · rename_i hin
      simp [hin]

theorem replace_isSplice {s : Span} {written : Text} :
    (∃ e, replace t s written = .ok (some e) ∧ e.IsSplice t) ↔
      IsPlace (Text.lines t) s.start ∧ IsPlace (Text.lines t) s.stop ∧ s.start ≤ s.stop := by
  simp only [replace_eq_some_iff hlimit]
  constructor
  · rintro ⟨e, ⟨hin, rfl⟩, hsplice⟩
    exact (inLines_isSplice_iff hin written).1 hsplice
  · intro hplaces
    have hin : s.InLines (Text.lines t) := ⟨hplaces.1.inLines, hplaces.2.1.inLines⟩
    exact ⟨_, ⟨hin, rfl⟩, (inLines_isSplice_iff hin written).2 hplaces⟩

theorem replace_not_isSplice {s : Span} {written : Text} :
    (∃ e, replace t s written = .ok (some e) ∧ ¬ e.IsSplice t) ↔
      s.InLines (Text.lines t) ∧ ¬ (IsPlace (Text.lines t) s.start ∧
        IsPlace (Text.lines t) s.stop ∧ s.start ≤ s.stop) := by
  simp only [replace_eq_some_iff hlimit]
  constructor
  · rintro ⟨e, ⟨hin, rfl⟩, hsplice⟩
    exact ⟨hin, mt (inLines_isSplice_iff hin written).2 hsplice⟩
  · rintro ⟨hin, hplaces⟩
    exact ⟨_, ⟨hin, rfl⟩, mt (inLines_isSplice_iff hin written).1 hplaces⟩

theorem offsets_le_of_replace {s : Span} {written : Text}
    (h : replace t s written = .ok (some e)) :
    e.startByte ≤ Text.width t ∧ e.oldEndByte ≤ Text.width t := by
  obtain ⟨hin, rfl⟩ := (replace_eq_some_iff hlimit).1 h
  exact ⟨LineIndex.offsetIn_le_width hin.1, LineIndex.offsetIn_le_width hin.2⟩

end Limit

theorem replace_eq_none_iff {s : Span} {written : Text} :
    replace t s written = .ok none ↔
      ¬ s.InLines (Text.lines t) ∧ ¬ s.Overflows (Text.lines t) := by
  rw [replace_eq]
  split
  · rename_i hover
    simp [hover]
  · rename_i hover
    simp [hover]

/-- **Which edits replace a stretch of the text.** The offsets of an edit never lie behind the end
of the text.

* If a span lies between two places in order, its edit replaces a stretch of the text.
* Any other span on the rows, with its bounds reversed or one of them inside a character, has an
  edit too, which replaces none.
* A span with a bound off the rows has no edit, unless a sum leaves the machine word.

The same holds for the positions at which a text is inserted. Where an edit replaces a stretch,
there is a text before it, a text in it and a text behind it. -/
theorem replace_isSplice_iff {t : Text} (hlimit : Text.width t < addressLimit) (written : Text) :
    (∀ s e, replace t s written = .ok (some e) →
      e.startByte ≤ Text.width t ∧ e.oldEndByte ≤ Text.width t) ∧
    (∀ s : Span,
      ((∃ e, replace t s written = .ok (some e) ∧ e.IsSplice t) ↔
        IsPlace (Text.lines t) s.start ∧ IsPlace (Text.lines t) s.stop ∧ s.start ≤ s.stop) ∧
      ((∃ e, replace t s written = .ok (some e) ∧ ¬ e.IsSplice t) ↔
        s.InLines (Text.lines t) ∧ ¬ (IsPlace (Text.lines t) s.start ∧
          IsPlace (Text.lines t) s.stop ∧ s.start ≤ s.stop)) ∧
      (replace t s written = .ok none ↔
        ¬ s.InLines (Text.lines t) ∧ ¬ s.Overflows (Text.lines t))) ∧
    (∀ p : Position,
      ((∃ e, insert t p written = .ok (some e) ∧ e.IsSplice t) ↔ IsPlace (Text.lines t) p) ∧
      ((∃ e, insert t p written = .ok (some e) ∧ ¬ e.IsSplice t) ↔
        p.InLines (Text.lines t) ∧ ¬ IsPlace (Text.lines t) p) ∧
      (insert t p written = .ok none ↔
        ¬ p.InLines (Text.lines t) ∧ ¬ p.Overflows (Text.lines t))) ∧
    ∀ e : Edit, e.IsSplice t → ∃ front removed back, t = front ++ removed ++ back ∧
      e.removed? t = some removed ∧ e.textAfter? t written = some (front ++ written ++ back) := by
  refine ⟨fun s e => offsets_le_of_replace hlimit, ?_, ?_, fun e h => h.exists_texts written⟩
  · intro s
    exact ⟨replace_isSplice hlimit, replace_not_isSplice hlimit, replace_eq_none_iff⟩
  · intro p
    have hplace : (IsPlace (Text.lines t) p ∧ IsPlace (Text.lines t) p ∧ p ≤ p) ↔
        IsPlace (Text.lines t) p :=
      ⟨And.left, fun h => ⟨h, h, Position.le_refl p⟩⟩
    refine ⟨(replace_isSplice hlimit).trans hplace, ?_, ?_⟩
    · exact (replace_not_isSplice hlimit).trans
        (and_congr (Span.emptyAt_inLines_iff _ p) (not_congr hplace))
    · exact replace_eq_none_iff.trans (and_congr (not_congr (Span.emptyAt_inLines_iff _ p))
        (not_congr (Span.emptyAt_overflows_iff _ p)))

/-- Two rows, with a letter of two bytes at the end of the first. -/
def accentText : Text :=
  "aé\nb".toList

theorem replace_isSplice_accentText :
    Text.width accentText < addressLimit ∧
      (∃ e, replace accentText ⟨⟨0, 1⟩, ⟨1, 0⟩⟩ [] = .ok (some e) ∧ e.IsSplice accentText) ∧
      (∃ e, replace accentText ⟨⟨1, 0⟩, ⟨0, 1⟩⟩ [] = .ok (some e) ∧ ¬ e.IsSplice accentText) ∧
      (∃ e, insert accentText ⟨0, 2⟩ [] = .ok (some e) ∧ ¬ e.IsSplice accentText) ∧
      insert accentText ⟨0, 4⟩ [] = .ok none := by
  have hlimit : Text.width accentText < addressLimit := by decide
  obtain ⟨-, hreplace, hinsert, -⟩ := replace_isSplice_iff hlimit []
  exact ⟨hlimit, (hreplace ⟨⟨0, 1⟩, ⟨1, 0⟩⟩).1.2 (by decide),
    (hreplace ⟨⟨1, 0⟩, ⟨0, 1⟩⟩).2.1.2 (by decide), (hinsert ⟨0, 2⟩).2.1.2 (by decide),
    (hinsert ⟨0, 4⟩).2.2.2 (by decide)⟩

/-- **An edit need not replace a stretch of the text:** not if the bounds are reversed, and not if
one of them stands inside a character. -/
theorem edits_not_isSplice :
    replace accentText ⟨⟨1, 0⟩, ⟨0, 1⟩⟩ ['x'] =
        .ok (some ⟨4, 1, 5, ⟨1, 0⟩, ⟨0, 1⟩, ⟨1, 1⟩⟩) ∧
      ¬ IsSplice ⟨4, 1, 5, ⟨1, 0⟩, ⟨0, 1⟩, ⟨1, 1⟩⟩ accentText ∧
      insert accentText ⟨0, 2⟩ ['x'] = .ok (some ⟨2, 2, 3, ⟨0, 2⟩, ⟨0, 2⟩, ⟨0, 3⟩⟩) ∧
      ¬ IsSplice ⟨2, 2, 3, ⟨0, 2⟩, ⟨0, 2⟩, ⟨0, 3⟩⟩ accentText := by
  decide

end Edit

end DotTarget
