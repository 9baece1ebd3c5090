import DotTarget.Proofs.Lexical.CheckedScan

set_option autoImplicit false

/-! # Scans are safe

What a caller may rely on for any rows, any position and any cap (`scan_safe`). The scan with every
access checked ends without a fault; each of its steps stays or moves left; it counts at most the
opening brackets before its end; and in a row that exists it ends where the position is clamped to,
with both bounds between two characters of existing rows.

Such bounds always cover a text. That is stated for the document that the rows make up, with one
newline between any two, so the rows must be free of newlines (`exists_slice?_ofLines`). -/

namespace DotTarget

namespace Text

/-- The longest front part of a text that has at most `n` bytes. -/
structure IsLongestFront (t : Text) (n : Nat) (front : Text) : Prop where
  isFront : front <+: t
  width_le : width front ≤ n
  longest : ∀ other, other <+: t → width other ≤ n → other <+: front

theorem isLongestFront_cut (t : Text) (n : Nat) : IsLongestFront t n (cut t n) where
  isFront := cut_prefix t n
  width_le := width_cut_le t n
  longest := by
    intro other hother hwidth
    obtain ⟨rest, rfl⟩ := hother
    have hshorter := cut_prefix (cut (other ++ rest) n) (width other)
    rwa [cut_cut hwidth, cut_append_width] at hshorter

end Text

/-- Two places in order, of rows without newlines, always cover a text. -/
theorem exists_slice?_ofLines {lines : List Text} {start stop : Position}
    (hfree : ∀ line ∈ lines, '\n' ∉ line) (hstart : IsPlace lines start)
    (hstop : IsPlace lines stop) (hle : start ≤ stop) :
    ∃ part, Span.slice? ⟨start, stop⟩ (Text.ofLines lines) = some part := by
  have hne : lines ≠ [] := by
    obtain ⟨line, -, hline, -⟩ := hstart
    rintro rfl
    exact absurd hline (by simp)
  rw [← Text.lines_ofLines hne hfree] at hstart hstop
  obtain ⟨front, hfront, rfl⟩ := exists_front_of_isPlace hstart
  obtain ⟨whole, hwhole, rfl⟩ := exists_front_of_isPlace hstop
  obtain ⟨part, rfl⟩ := Position.prefix_of_advance_le hfront hwhole hle
  exact ⟨part, slice?_advance hwhole⟩

/-! ## The scan -/

/-- A step stays where it is or moves left. -/
theorem Scan.step_eq_or_lt (lines : List Text) (place : Position) :
    (step lines place).1 = place ∨ (step lines place).1 < place :=
  (Position.le_iff_lt_or_eq.1 (step_le_and_isPlace lines place).1).symm

/-- **Scans are safe and make progress.** With fewer opening brackets in the document than a
counter can hold, the scan with every access checked ends without a fault and gives what `scan`
gives.

* Every step returns the place that it was given, or one further left.
* The mismatches are at most the opening brackets before the end.
* If the row of the position exists, the span ends at the end of the longest front part of that row
  that is not right of the position moved one column left. The bounds are in order and are places
  between two characters of existing rows. So they cover a text of the document, if no row has a
  newline of its own. -/
theorem scan_safe (lines : List Text) (place : Position) (cap : Nat)
    (hlines : openersIn lines < counterLimit) (hcap : cap < counterLimit) :
    ∃ outcome,
      checkedScan lines place cap = .ok outcome ∧ scan lines place cap = .ok outcome ∧
      (∀ p, (Scan.step lines p).1 = p ∨ (Scan.step lines p).1 < p) ∧
      outcome.mismatches ≤ openersBefore lines outcome.span.stop ∧
      ∀ line, lines[place.row]? = some line →
        (∃ front, Text.IsLongestFront line (place.column - 1) front ∧
          outcome.span.stop = ⟨place.row, Text.width front⟩) ∧
        outcome.span.start ≤ outcome.span.stop ∧
        IsPlace lines outcome.span.start ∧ IsPlace lines outcome.span.stop ∧
        ((∀ row ∈ lines, '\n' ∉ row) →
          ∃ part, outcome.span.slice? (Text.ofLines lines) = some part ∧
            (Text.width (Text.ofLines lines) < addressLimit →
              outcome.span.slice (Text.ofLines lines) = .ok (some part))) := by
  obtain ⟨outcome, hscan, hstop, hle, hplace⟩ := scan_eq_ok lines place cap
  have hchecked := checkedScan_eq_scan hlines place hcap
  refine ⟨outcome, hchecked.trans hscan, hscan, Scan.step_eq_or_lt lines,
    scan_mismatches_le hscan, ?_⟩
  intro line hline
  have hclamp : outcome.span.stop = ⟨place.row, Text.width (Text.cut line (place.column - 1))⟩ := by
    rw [hstop]
    simp only [Scan.clamp, Position.shiftedLeft, hline]
  have hstopPlace : IsPlace lines outcome.span.stop := by
    rw [hclamp]
    exact ⟨line, _, hline, Text.cut_prefix _ _, rfl⟩
  have hstartPlace := hplace hstopPlace
  refine ⟨⟨_, Text.isLongestFront_cut _ _, hclamp⟩, hle, hstartPlace, hstopPlace, ?_⟩
  intro hfree
  obtain ⟨part, hpart⟩ := exists_slice?_ofLines hfree hstartPlace hstopPlace hle
  exact ⟨part, hpart, Span.slice_eq_ok_of_slice?_eq_some hpart⟩

/-- A bracketed group over two rows, with letters of two bytes and brackets of different kinds. -/
def mixedRows : List Text :=
  ["é(".toList, "ü].".toList]

theorem scan_safe_mixedRows :
    openersIn mixedRows < counterLimit ∧ 64 < counterLimit ∧
      checkedScan mixedRows ⟨1, 4⟩ 64 = .ok ⟨⟨⟨0, 0⟩, ⟨1, 3⟩⟩, 3, 1, true⟩ ∧
      1 ≤ openersBefore mixedRows ⟨1, 3⟩ ∧
      ∃ part, Span.slice? ⟨⟨0, 0⟩, ⟨1, 3⟩⟩ (Text.ofLines mixedRows) = some part := by
  have hopeners : openersIn mixedRows < counterLimit := by decide
  have hcap : 64 < counterLimit := by decide
  have hscan : scan mixedRows ⟨1, 4⟩ 64 = .ok ⟨⟨⟨0, 0⟩, ⟨1, 3⟩⟩, 3, 1, true⟩ := by decide
  obtain ⟨outcome, hchecked, houtcome, -, hmismatches, hrow⟩ :=
    scan_safe mixedRows ⟨1, 4⟩ 64 hopeners hcap
  obtain rfl := Except.ok.inj (hscan.symm.trans houtcome)
  obtain ⟨-, -, -, -, hslice⟩ := hrow _ rfl
  obtain ⟨part, hpart, -⟩ := hslice (by decide)
  exact ⟨hopeners, hcap, hchecked, hmismatches, part, hpart⟩

end DotTarget
