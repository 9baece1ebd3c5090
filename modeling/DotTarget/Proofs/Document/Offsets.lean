import DotTarget.Proofs.Document.Places
import Mathlib.Order.Hom.Basic
import Mathlib.Order.Monotone.Basic

set_option autoImplicit false

/-! # Positions and byte offsets

A line index converts between the positions of a text and its byte offsets. Counted in rows, the
offset of a position is the width of the rows above it, each with one byte for its row break, and
the column (`Position.offsetIn`). Both conversions compute just that, one of them forward
(`LineIndex.offset?_eq_some_iff`) and one of them backward (`LineIndex.position_offsetIn`).

Offsets counted in this way grow with the position (`Position.offsetIn_lt_offsetIn`), and every
offset up to the length of the text belongs to a position (`Text.exists_inLines_of_le`). So the two
conversions are the two directions of an order isomorphism, also for offsets inside a character
(`LineIndex.exists_orderIso`). -/

namespace DotTarget

/-! ## Offsets counted in rows -/

/-- The number of bytes before a row, with one byte for each row break. -/
def rowStart : List Text → Nat → Nat
  | [], _ => 0
  | _, 0 => 0
  | line :: lines, row + 1 => Text.width line + 1 + rowStart lines row

namespace Position

/-- The position stands on a row that exists, not behind the end of the row. It may stand inside a
character. -/
def InLines (lines : List Text) (p : Position) : Prop :=
  ∃ line, lines[p.row]? = some line ∧ p.column ≤ Text.width line

/-- The number of bytes before a position, with one byte for each row break. -/
def offsetIn (lines : List Text) (p : Position) : Nat :=
  rowStart lines p.row + p.column

end Position

theorem IsPlace.inLines {lines : List Text} {p : Position} (h : IsPlace lines p) :
    p.InLines lines := by
  obtain ⟨line, front, hline, hfront, hwidth⟩ := h
  exact ⟨line, hline, hwidth ▸ Text.width_le_of_prefix hfront⟩

@[simp] theorem rowStart_zero (lines : List Text) : rowStart lines 0 = 0 := by
  cases lines <;> rfl

@[simp] theorem rowStart_cons_succ (line : Text) (lines : List Text) (row : Nat) :
    rowStart (line :: lines) (row + 1) = Text.width line + 1 + rowStart lines row :=
  rfl

theorem rowStart_succ {lines : List Text} {row : Nat} {line : Text} (h : lines[row]? = some line) :
    rowStart lines (row + 1) = rowStart lines row + (Text.width line + 1) := by
  induction lines generalizing row with
  | nil => simp at h
  | cons first lines ih =>
    cases row with
    | zero =>
      obtain rfl : first = line := by simpa using h
      simp
    | succ row =>
      have hnext := ih (show lines[row]? = some line by simpa using h)
      rw [rowStart_cons_succ, hnext, rowStart_cons_succ]
      omega

theorem rowStart_mono (lines : List Text) : Monotone (rowStart lines) := by
  apply monotone_nat_of_le_succ
  intro row
  induction lines generalizing row with
  | nil => exact Nat.le_refl _
  | cons line lines ih =>
    cases row with
    | zero => simp
    | succ row => exact Nat.add_le_add_left (ih row) _

/-- The rows above a row, each with its newline, are as wide as what stands before the row. -/
theorem rowStart_append (above lines : List Text) :
    rowStart (above ++ lines) above.length = Text.width (Text.closed above) := by
  have hsize : '\n'.utf8Size = 1 := by decide
  induction above with
  | nil => simp [Text.closed_nil]
  | cons row above ih =>
    rw [List.cons_append, List.length_cons, rowStart_cons_succ, ih, Text.closed_cons,
      Text.width_append, Text.width_cons, hsize, Nat.add_assoc]

namespace Position

variable {lines : List Text} {p q : Position}

theorem rowStart_le_offsetIn {row : Nat} (h : row ≤ p.row) :
    rowStart lines row ≤ p.offsetIn lines :=
  Nat.le_trans (rowStart_mono lines h) (Nat.le_add_right _ _)

/-- Everything up to the end of a row stands before the next row. -/
theorem InLines.offsetIn_lt_rowStart (hp : p.InLines lines) {row : Nat} (h : p.row < row) :
    p.offsetIn lines < rowStart lines row := by
  obtain ⟨line, hline, hcolumn⟩ := hp
  have hnext := rowStart_succ hline
  have hle : rowStart lines (p.row + 1) ≤ rowStart lines row := rowStart_mono lines h
  unfold offsetIn
  omega

/-- **A position further right has a larger offset.** -/
theorem offsetIn_lt_offsetIn (hp : p.InLines lines) (h : p < q) :
    p.offsetIn lines < q.offsetIn lines := by
  rcases h with hrow | ⟨hrow, hcolumn⟩
  · exact Nat.lt_of_lt_of_le (hp.offsetIn_lt_rowStart hrow) (Nat.le_add_right _ _)
  · unfold offsetIn
    rw [hrow]
    omega

theorem offsetIn_le_offsetIn_iff (hp : p.InLines lines) (hq : q.InLines lines) :
    p.offsetIn lines ≤ q.offsetIn lines ↔ p ≤ q := by
  constructor
  · intro h
    by_contra hnot
    exact absurd (offsetIn_lt_offsetIn hq (lt_iff_not_le.2 hnot)) (Nat.not_lt.2 h)
  · intro h
    rcases le_iff_lt_or_eq.1 h with hlt | rfl
    · exact Nat.le_of_lt (offsetIn_lt_offsetIn hp hlt)
    · exact Nat.le_refl _

theorem eq_of_offsetIn_eq (hp : p.InLines lines) (hq : q.InLines lines)
    (h : p.offsetIn lines = q.offsetIn lines) : p = q :=
  le_antisymm ((offsetIn_le_offsetIn_iff hp hq).1 h.le) ((offsetIn_le_offsetIn_iff hq hp).1 h.ge)

end Position

/-- Every offset up to the length of the joined rows belongs to a position. -/
theorem exists_inLines_of_le_ofLines {lines : List Text} (hne : lines ≠ []) {offset : Nat}
    (h : offset ≤ Text.width (Text.ofLines lines)) :
    ∃ p : Position, p.InLines lines ∧ p.offsetIn lines = offset := by
  induction lines generalizing offset with
  | nil => exact absurd rfl hne
  | cons line rest ih =>
    by_cases hline : offset ≤ Text.width line
    · exact ⟨⟨0, offset⟩, ⟨line, rfl, hline⟩, by simp [Position.offsetIn]⟩
    · -- The offset lies behind the first row, so the rest of the rows has a position for it.
      cases rest with
      | nil => exact absurd h hline
      | cons next rest =>
        have hsize : '\n'.utf8Size = 1 := by decide
        rw [Text.ofLines, Text.width_append, Text.width_cons, hsize] at h
        obtain ⟨p, ⟨found, hfound, hcolumn⟩, hoffset⟩ :=
          ih (List.cons_ne_nil _ _) (show offset - (Text.width line + 1) ≤ _ by omega)
        refine ⟨⟨p.row + 1, p.column⟩, ⟨found, hfound, hcolumn⟩, ?_⟩
        show rowStart (line :: next :: rest) (p.row + 1) + p.column = offset
        rw [rowStart_cons_succ]
        unfold Position.offsetIn at hoffset
        omega

/-- Every offset up to the length of a text belongs to a position. -/
theorem Text.exists_inLines_of_le {t : Text} {offset : Nat} (h : offset ≤ width t) :
    ∃ p : Position, p.InLines (lines t) ∧ p.offsetIn (lines t) = offset := by
  rw [← ofLines_lines t] at h
  exact exists_inLines_of_le_ofLines (lines_ne_nil t) h

namespace LineIndex

/-! ## Where rows start -/

theorem length_startsAfter (base : Nat) (t : Text) :
    (startsAfter base t).length + 1 = (Text.lines t).length := by
  induction t generalizing base with
  | nil => rfl
  | cons c t ih =>
    have hrows := List.length_pos_iff.2 (Text.lines_ne_nil t)
    by_cases hc : c = '\n'
    · simp [startsAfter, Text.lines, hc, ih]
    · simp [startsAfter, Text.lines, hc, ih]
      omega

/-- The index has as many rows as the text. -/
theorem lineCount_ofText (t : Text) : (ofText t).lineCount = (Text.lines t).length :=
  length_startsAfter 0 t

variable {t : Text} {row : Nat} {line : Text}

/-- A row starts behind the rows above it and ends its own width further on. -/
theorem row_bounds_of_getElem? (h : (Text.lines t)[row]? = some line) :
    (ofText t).starts[row]? = some (rowStart (Text.lines t) row) ∧
      (ofText t).rowEnd row = rowStart (Text.lines t) row + Text.width line ∧
      rowStart (Text.lines t) row + Text.width line ≤ Text.width t := by
  obtain ⟨above, below, hsplit, rfl⟩ := exists_splitsAtRow_of_getElem? h
  obtain ⟨hstart, hend⟩ := row_bounds hsplit
  have hwidth : Text.width t =
      Text.width (Text.closed above) + (Text.width line + Text.width below) := by
    rw [hsplit.text_eq, Text.width_append, Text.width_append]
  rw [hsplit.lines_eq, rowStart_append]
  exact ⟨hstart, hend, by omega⟩

theorem getElem?_starts_of_inLines {p : Position} (h : p.InLines (Text.lines t)) :
    (ofText t).starts[p.row]? = some (rowStart (Text.lines t) p.row) := by
  obtain ⟨line, hline, -⟩ := h
  exact (row_bounds_of_getElem? hline).1

/-- The starts of the index are the starts of the rows of the text. -/
theorem getElem?_starts_eq_some {start : Nat} (h : (ofText t).starts[row]? = some start) :
    (⟨row, 0⟩ : Position).InLines (Text.lines t) ∧ start = rowStart (Text.lines t) row := by
  have hlt : row < (Text.lines t).length := by
    rw [← lineCount_ofText]
    exact (List.getElem?_eq_some_iff.1 h).1
  have hrow : (⟨row, 0⟩ : Position).InLines (Text.lines t) :=
    ⟨_, List.getElem?_eq_getElem hlt, Nat.zero_le _⟩
  refine ⟨hrow, ?_⟩
  rw [getElem?_starts_of_inLines hrow] at h
  exact (Option.some.inj h).symm

/-- The starts of rows are in order, without repetition. -/
theorem pairwise_starts (t : Text) : (ofText t).starts.Pairwise (· < ·) := by
  rw [List.pairwise_iff_getElem]
  intro i j hi hj hij
  obtain ⟨hfirst, hstart⟩ := getElem?_starts_eq_some (List.getElem?_eq_getElem hi)
  obtain ⟨-, hstart'⟩ := getElem?_starts_eq_some (List.getElem?_eq_getElem hj)
  rw [hstart, hstart']
  exact hfirst.offsetIn_lt_rowStart hij

/-! ## From positions to offsets -/

theorem offset?_offsetIn {p : Position} (h : p.InLines (Text.lines t)) :
    (ofText t).offset? p = some (p.offsetIn (Text.lines t)) := by
  obtain ⟨line, hline, hcolumn⟩ := h
  obtain ⟨hstart, hend, -⟩ := row_bounds_of_getElem? hline
  simp only [offset?, hstart, hend, bind, Option.bind_some]
  exact if_pos (Nat.add_le_add_left hcolumn _)

/-- **The offset of a position is the number of bytes before it.** Exactly the positions on the
rows of the text have one. -/
theorem offset?_eq_some_iff {p : Position} {offset : Nat} :
    (ofText t).offset? p = some offset ↔
      p.InLines (Text.lines t) ∧ p.offsetIn (Text.lines t) = offset := by
  constructor
  · intro h
    cases hs : (ofText t).starts[p.row]? with
    | none => simp [offset?, hs] at h
    | some start =>
      obtain ⟨⟨line, hline, -⟩, rfl⟩ := getElem?_starts_eq_some hs
      obtain ⟨-, hend, -⟩ := row_bounds_of_getElem? hline
      simp only [offset?, hs, hend, bind, Option.bind_some] at h
      split at h
      · rename_i hle
        exact ⟨⟨line, hline, Nat.le_of_add_le_add_left hle⟩, Option.some.inj h⟩
      · exact absurd h (by simp)
  · rintro ⟨hp, rfl⟩
    exact offset?_offsetIn hp

theorem offset?_of_offset_eq_ok {index : LineIndex} {p : Position} {offset : Option Nat}
    (h : index.offset p = .ok offset) : index.offset? p = offset := by
  unfold LineIndex.offset at h
  unfold offset?
  cases hs : index.starts[p.row]? with
  | none =>
    rw [hs] at h
    exact Except.ok.inj h
  | some start =>
    simp only [hs, checkedAdd] at h
    split at h
    · exact Except.ok.inj h
    · exact absurd h (by simp [bind, Except.bind])

theorem offsetIn_le_width {p : Position} (h : p.InLines (Text.lines t)) :
    p.offsetIn (Text.lines t) ≤ Text.width t := by
  obtain ⟨line, hline, hcolumn⟩ := h
  obtain ⟨-, -, hwidth⟩ := row_bounds_of_getElem? hline
  unfold Position.offsetIn
  omega

/-! ## From offsets to positions -/

/-- The rows that start at or before a position are those up to its own. -/
theorem start_le_offsetIn_iff {p : Position} (hp : p.InLines (Text.lines t)) {start : Nat}
    (h : (ofText t).starts[row]? = some start) :
    start ≤ p.offsetIn (Text.lines t) ↔ row ≤ p.row := by
  obtain ⟨-, rfl⟩ := getElem?_starts_eq_some h
  constructor
  · intro hle
    by_contra hlt
    exact absurd (hp.offsetIn_lt_rowStart (Nat.lt_of_not_le hlt)) (Nat.not_lt.2 hle)
  · intro hle
    exact Position.rowStart_le_offsetIn hle

/-- If the elements that satisfy a test are the first `n`, there are `n` of them up to the first
one that fails it. -/
theorem length_takeWhile_eq {test : Nat → Bool} {l : List Nat} {n : Nat} (hn : n ≤ l.length)
    (h : ∀ i x, l[i]? = some x → (test x = true ↔ i < n)) : (l.takeWhile test).length = n := by
  induction l generalizing n with
  | nil => exact (Nat.le_zero.1 hn).symm
  | cons x l ih =>
    have hx := h 0 x rfl
    cases n with
    | zero => simp [hx]
    | succ n =>
      have htail : ∀ i y, l[i]? = some y → (test y = true ↔ i < n) := by
        intro i y hy
        rw [h (i + 1) y hy]
        omega
      rw [List.takeWhile_cons_of_pos (hx.2 (Nat.succ_pos n)), List.length_cons,
        ih (Nat.le_of_succ_le_succ hn) htail]

/-- **The position of an offset is the one with so many bytes before it.** -/
theorem position_offsetIn {p : Position} (hp : p.InLines (Text.lines t)) :
    (ofText t).position (p.offsetIn (Text.lines t)) = .ok p := by
  have hstart := getElem?_starts_of_inLines hp
  have hmin : min (p.offsetIn (Text.lines t)) (ofText t).length = p.offsetIn (Text.lines t) :=
    Nat.min_eq_left (offsetIn_le_width hp)
  have hlength : ((ofText t).starts.takeWhile (· ≤ p.offsetIn (Text.lines t))).length =
      p.row + 1 := by
    apply length_takeWhile_eq
    · exact (List.getElem?_eq_some_iff.1 hstart).1
    · intro row start hrow
      rw [decide_eq_true_iff, start_le_offsetIn_iff hp hrow]
      exact Nat.lt_succ_iff.symm
  simp only [position, hmin, hlength, hstart]
  rw [Position.offsetIn, Nat.add_sub_cancel_left]

theorem position_of_offset?_eq_some {p : Position} {offset : Nat}
    (h : (ofText t).offset? p = some offset) : (ofText t).position offset = .ok p := by
  obtain ⟨hp, rfl⟩ := offset?_eq_some_iff.1 h
  exact position_offsetIn hp

/-- An offset behind the end counts as the end. -/
theorem position_min (t : Text) (offset : Nat) :
    (ofText t).position (min offset (Text.width t)) = (ofText t).position offset := by
  have hlength : (ofText t).length = Text.width t := rfl
  simp only [position, hlength, Nat.min_assoc, Nat.min_self]

theorem position_of_width_lt {offset : Nat} (h : Text.width t < offset) :
    (ofText t).position offset = (ofText t).position (Text.width t) := by
  rw [← position_min, Nat.min_eq_right (Nat.le_of_lt h)]

/-! ## The search for a row

The row of an offset is found by binary search in the list of starts, which is sorted. -/

/-- The difference of two machine words, which must not be below zero. -/
def checkedSub (a b : Nat) : Except Fault Nat :=
  if b ≤ a then .ok (a - b) else .error .subtractOverflow

/-- What a binary search for a value in a sorted list may answer: an index at which the value
stands or, if the value is missing, the index before which it would have to be put. -/
inductive IsSearchAnswer (l : List Nat) (value : Nat) : Except Nat Nat → Prop where
  | found {i : Nat} (stands : l[i]? = some value) : IsSearchAnswer l value (.ok i)
  | missing {i : Nat} (bound : i ≤ l.length) (before : ∀ x ∈ l.take i, x < value)
      (behind : ∀ x ∈ l.drop i, value < x) : IsSearchAnswer l value (.error i)

/-- The position of an offset in the row that a search answered. Every difference and every access
is checked. -/
def positionFrom (index : LineIndex) (offset : Nat) (answer : Except Nat Nat) :
    Except Fault Position := do
  let row ← match answer with
    | .ok row => pure row
    | .error next => checkedSub next 1
  match index.starts[row]? with
  | none => .error (.outOfBounds row index.lineCount)
  | some start =>
    let column ← checkedSub offset start
    return ⟨row, column⟩

section Search

variable {p : Position} (hp : p.InLines (Text.lines t))

include hp

/-- A search answers the row of the position, or the index behind it. -/
theorem answer_eq {answer : Except Nat Nat}
    (h : IsSearchAnswer (ofText t).starts (p.offsetIn (Text.lines t)) answer) :
    answer = .ok p.row ∨ answer = .error (p.row + 1) := by
  have hstart := getElem?_starts_of_inLines hp
  cases h with
  | @found i stands =>
    obtain ⟨hi, hoffset⟩ := getElem?_starts_eq_some stands
    rw [Position.eq_of_offsetIn_eq hp hi hoffset]
    exact .inl rfl
  | @missing i bound before behind =>
    -- The rows before index `i` start before the offset, and the others do not.
    have hlt : p.row < i := by
      by_contra hge
      have hmem : rowStart (Text.lines t) p.row ∈ (ofText t).starts.drop i := by
        refine List.mem_of_getElem? (i := p.row - i) ?_
        rw [List.getElem?_drop, ← hstart]
        congr 1
        omega
      exact absurd (behind _ hmem) (Nat.not_lt.2 (Position.rowStart_le_offsetIn (Nat.le_refl _)))
    obtain ⟨last, rfl⟩ := Nat.exists_eq_add_one_of_ne_zero (Nat.ne_zero_of_lt hlt)
    have hlast : (ofText t).starts[last]? = some (ofText t).starts[last] :=
      List.getElem?_eq_getElem bound
    have hmem : (ofText t).starts[last] ∈ (ofText t).starts.take (last + 1) := by
      refine List.mem_of_getElem? (i := last) ?_
      rw [List.getElem?_take_of_lt (Nat.lt_succ_self _), hlast]
    have hle := (start_le_offsetIn_iff hp hlast).1 (Nat.le_of_lt (before _ hmem))
    rw [Nat.le_antisymm hle (Nat.le_of_lt_succ hlt)]
    exact .inr rfl

/-- The search finds the row of the position if that is its first one, and misses it otherwise. -/
theorem exists_answer :
    ∃ answer, IsSearchAnswer (ofText t).starts (p.offsetIn (Text.lines t)) answer := by
  have hstart := getElem?_starts_of_inLines hp
  by_cases hcolumn : p.column = 0
  · refine ⟨.ok p.row, .found ?_⟩
    rw [hstart, Position.offsetIn, hcolumn, Nat.add_zero]
  · refine ⟨.error (p.row + 1), .missing (List.getElem?_eq_some_iff.1 hstart).1 ?_ ?_⟩
    · intro x hx
      obtain ⟨i, hi, rfl⟩ := List.mem_take_iff_getElem.1 hx
      have hlt : i < (ofText t).starts.length := by omega
      obtain ⟨-, hrow⟩ := getElem?_starts_eq_some (List.getElem?_eq_getElem hlt)
      have hmono : rowStart (Text.lines t) i ≤ rowStart (Text.lines t) p.row :=
        rowStart_mono _ (by omega)
      rw [hrow, Position.offsetIn]
      omega
    · intro x hx
      obtain ⟨i, hi, rfl⟩ := List.mem_drop_iff_getElem.1 hx
      have hlt : p.row + 1 + i < (ofText t).starts.length := by omega
      obtain ⟨-, hrow⟩ := getElem?_starts_eq_some (List.getElem?_eq_getElem hlt)
      rw [hrow]
      exact hp.offsetIn_lt_rowStart (by omega)

/-- **No difference and no access fails,** whatever the search answers. -/
theorem positionFrom_eq_ok {answer : Except Nat Nat}
    (h : IsSearchAnswer (ofText t).starts (p.offsetIn (Text.lines t)) answer) :
    (ofText t).positionFrom (p.offsetIn (Text.lines t)) answer = .ok p := by
  have hstart := getElem?_starts_of_inLines hp
  have hcolumn : checkedSub (p.offsetIn (Text.lines t)) (rowStart (Text.lines t) p.row) =
      .ok p.column := by
    rw [checkedSub, if_pos (Position.rowStart_le_offsetIn (Nat.le_refl _)), Position.offsetIn,
      Nat.add_sub_cancel_left]
  rcases answer_eq hp h with rfl | rfl
  · simp only [positionFrom, bind, Except.bind, pure, Except.pure, hstart, hcolumn]
  · have hrow : checkedSub (p.row + 1) 1 = .ok p.row := if_pos (Nat.le_add_left 1 p.row)
    simp only [positionFrom, bind, Except.bind, pure, Except.pure, hrow, hstart, hcolumn]

end Search

/-! ## The isomorphism -/

/-- The positions of a text as offsets, with their order. -/
def offsetEmbedding (t : Text) :
    {p : Position // p.InLines (Text.lines t)} ↪o {offset : Nat // offset ≤ Text.width t} where
  toFun p := ⟨p.1.offsetIn (Text.lines t), offsetIn_le_width p.2⟩
  inj' := by
    intro p q h
    exact Subtype.ext (Position.eq_of_offsetIn_eq p.2 q.2 (congrArg Subtype.val h))
  map_rel_iff' := by
    intro p q
    exact Position.offsetIn_le_offsetIn_iff p.2 q.2

theorem offsetEmbedding_surjective (t : Text) : Function.Surjective (offsetEmbedding t) := by
  intro offset
  obtain ⟨p, hp, hoffset⟩ := Text.exists_inLines_of_le offset.2
  exact ⟨⟨p, hp⟩, Subtype.ext hoffset⟩

theorem exists_orderIso (t : Text) :
    ∃ places : {o : Nat // o ≤ Text.width t} ≃o {p : Position // p.InLines (Text.lines t)},
      ∀ o, (places o).1.offsetIn (Text.lines t) = o.1 := by
  let offsets := RelIso.ofSurjective (offsetEmbedding t) (offsetEmbedding_surjective t)
  refine ⟨offsets.symm, ?_⟩
  intro o
  exact congrArg Subtype.val (offsets.apply_symm_apply o)

/-- **A line index is an order isomorphism** between the offsets of a text, its length included, and
the positions on its rows.

* `position` maps the offsets to the positions, `offset?` maps them back, and so does `offset` in a
  text whose length is a machine word.
* Whatever offset a position has, that offset has this position.
* Offsets behind the end have the position of the end.
* The starts of rows are sorted, so a binary search among them has an answer; and whatever it
  answers, no difference and no access fails, and the row is that of the position. -/
theorem position_orderIso (t : Text) :
    (ofText t).lineCount = (Text.lines t).length ∧
    (∃ places : {o : Nat // o ≤ Text.width t} ≃o {p : Position // p.InLines (Text.lines t)},
      (∀ o o', o < o' → (places o).1 < (places o').1) ∧
      ∀ o, (ofText t).position o.1 = .ok (places o).1 ∧
        (ofText t).offset? (places o).1 = some o.1 ∧
        (Text.width t < addressLimit → (ofText t).offset (places o).1 = .ok (some o.1))) ∧
    (∀ p offset, (ofText t).offset p = .ok (some offset) →
      (ofText t).position offset = .ok p) ∧
    (∀ offset, Text.width t < offset →
      (ofText t).position offset = (ofText t).position (Text.width t)) ∧
    (ofText t).starts.Pairwise (· < ·) ∧
    ∀ offset,
      (∃ answer, IsSearchAnswer (ofText t).starts (min offset (Text.width t)) answer) ∧
      ∀ answer, IsSearchAnswer (ofText t).starts (min offset (Text.width t)) answer →
        (ofText t).positionFrom (min offset (Text.width t)) answer =
          (ofText t).position offset := by
  refine ⟨lineCount_ofText t, ?_, ?_, fun _ => position_of_width_lt, pairwise_starts t, ?_⟩
  · obtain ⟨places, hplaces⟩ := exists_orderIso t
    refine ⟨places, ?_, ?_⟩
    · intro o o' hlt
      rw [Position.lt_iff_not_le]
      intro hle
      exact absurd (places.map_rel_iff.1 hle) (Nat.not_le.2 hlt)
    · intro o
      have hposition := position_offsetIn (places o).2
      have hoffset := offset?_offsetIn (places o).2
      rw [hplaces] at hposition hoffset
      refine ⟨hposition, hoffset, ?_⟩
      intro hlimit
      exact offset_eq_ok_of_offset?_eq_some hoffset (Nat.lt_of_le_of_lt o.2 hlimit)
  · intro p offset h
    exact position_of_offset?_eq_some (offset?_of_offset_eq_ok h)
  · intro offset
    obtain ⟨p, hp, hoffset⟩ := Text.exists_inLines_of_le (Nat.min_le_right offset (Text.width t))
    have hposition : (ofText t).position offset = .ok p := by
      rw [← position_min, ← hoffset, position_offsetIn hp]
    rw [← hoffset, hposition]
    refine ⟨exists_answer hp, ?_⟩
    intro answer h
    exact positionFrom_eq_ok hp h

/-- A text with a letter of two bytes, an empty row and a row break at its end. -/
def breaksText : Text :=
  "é\n\nab\n".toList

theorem position_orderIso_breaksText :
    Text.width breaksText < addressLimit ∧
      (∃ places : {o : Nat // o ≤ Text.width breaksText} ≃o
          {p : Position // p.InLines (Text.lines breaksText)},
        (places ⟨1, by decide⟩).1 = ⟨0, 1⟩ ∧ (places ⟨7, by decide⟩).1 = ⟨3, 0⟩ ∧
          (ofText breaksText).offset ⟨3, 0⟩ = .ok (some 7)) ∧
      (ofText breaksText).position 64 = .ok ⟨3, 0⟩ ∧
      (ofText breaksText).positionFrom 5 (.error 3) = .ok ⟨2, 1⟩ := by
  have hlimit : Text.width breaksText < addressLimit := by decide
  obtain ⟨-, ⟨places, -, hplaces⟩, -, hbehind, -, hsearch⟩ := position_orderIso breaksText
  have hinside := (hplaces ⟨1, by decide⟩).1
  obtain ⟨hend, -, hoffset⟩ := hplaces ⟨7, by decide⟩
  have hone : (ofText breaksText).position 1 = .ok ⟨0, 1⟩ := by decide
  have hseven : (ofText breaksText).position 7 = .ok ⟨3, 0⟩ := by decide
  have hlast := Except.ok.inj (hend.symm.trans hseven)
  refine ⟨hlimit, ⟨places, Except.ok.inj (hinside.symm.trans hone), hlast, ?_⟩, ?_, ?_⟩
  · rw [← hlast]
    exact hoffset hlimit
  · exact (hbehind 64 (by decide)).trans hseven
  · exact ((hsearch 5).2 (.error 3) (.missing (by decide) (by decide) (by decide))).trans
      (by decide)

end LineIndex

end DotTarget
