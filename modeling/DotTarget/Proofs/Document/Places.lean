import DotTarget.Document.Edit
import DotTarget.Document.Slice

set_option autoImplicit false

/-! # Places of a text

A place is a position between two characters of a row (`IsPlace`). Rows and byte offsets are two
views of the same places, and front parts of the text tie them together: the places of a text are
exactly where its front parts end (`exists_front_of_isPlace`), the offset of such a place is the
width of the front part (`offset?_advance`), and a longer front part ends at a later place
(`Position.lt_advance`). A span between two such ends covers what the longer part has more
(`slice?_advance`).

Both views are compared on a text that is split at one of its rows (`SplitsAtRow`). -/

namespace DotTarget

/-- A position between two characters of a row that exists. -/
def IsPlace (lines : List Text) (p : Position) : Prop :=
  ∃ line front, lines[p.row]? = some line ∧ front <+: line ∧ Text.width front = p.column

theorem isPlace_iff {lines : List Text} {p : Position} :
    IsPlace lines p ↔ ∃ line ∈ lines[p.row]?, Text.width (Text.cut line p.column) = p.column := by
  constructor
  · rintro ⟨line, front, hline, ⟨rest, rfl⟩, hwidth⟩
    exact ⟨_, hline, by rw [← hwidth, Text.cut_append_width]⟩
  · rintro ⟨line, hline, hwidth⟩
    exact ⟨line, _, hline, Text.cut_prefix line p.column, hwidth⟩

instance (lines : List Text) (p : Position) : Decidable (IsPlace lines p) :=
  decidable_of_iff _ isPlace_iff.symm

/-! ## Rows with their newlines -/

namespace Text

/-- The text of whole rows, each with the newline that ends it. -/
def closed (rows : List Text) : Text :=
  rows.flatMap (· ++ ['\n'])

theorem closed_nil : closed [] = [] := rfl

theorem closed_cons (row : Text) (rows : List Text) :
    closed (row :: rows) = row ++ '\n' :: closed rows := by
  simp [closed]

/-- Every text is a number of whole rows and a last row that is not ended. -/
theorem exists_eq_closed_append (t : Text) :
    ∃ rows line, t = closed rows ++ line ∧ (∀ row ∈ rows, '\n' ∉ row) ∧ '\n' ∉ line := by
  induction t with
  | nil => exact ⟨[], [], rfl, by simp, by simp⟩
  | cons c t ih =>
    obtain ⟨rows, line, rfl, hrows, hline⟩ := ih
    by_cases hc : c = '\n'
    · refine ⟨[] :: rows, line, by simp [closed_cons, hc], ?_, hline⟩
      simpa using hrows
    · cases rows with
      | nil => exact ⟨[], c :: line, by simp [closed_nil], by simp, by simp [Ne.symm hc, hline]⟩
      | cons row rows =>
        refine ⟨(c :: row) :: rows, line, by simp [closed_cons], ?_, hline⟩
        simp only [List.mem_cons, forall_eq_or_imp] at hrows ⊢
        exact ⟨by simp [Ne.symm hc, hrows.1], hrows.2⟩

/-- Every text is a row and what follows it. -/
theorem exists_eq_row_append (t : Text) :
    ∃ line below, t = line ++ below ∧ '\n' ∉ line ∧
      (below = [] ∨ ∃ rest, below = '\n' :: rest) := by
  induction t with
  | nil => exact ⟨[], [], rfl, by simp, .inl rfl⟩
  | cons c t ih =>
    by_cases hc : c = '\n'
    · exact ⟨[], c :: t, rfl, by simp, .inr ⟨t, by rw [hc]⟩⟩
    · obtain ⟨line, below, rfl, hline, hbelow⟩ := ih
      exact ⟨c :: line, below, rfl, by simp [Ne.symm hc, hline], hbelow⟩

/-- The rows of a text that starts with a part without newlines. -/
theorem lines_append_of_free {s : Text} (hs : '\n' ∉ s) (t : Text) :
    lines (s ++ t) = (s ++ (lines t).headD []) :: (lines t).tail := by
  induction s with
  | nil =>
    obtain ⟨row, rest, hrest⟩ := List.exists_cons_of_ne_nil (lines_ne_nil t)
    simp [hrest]
  | cons c s ih =>
    simp only [List.mem_cons, not_or] at hs
    simp [lines, Ne.symm hs.1, ih hs.2]

/-- Whole rows in front of a text are its first rows. -/
theorem lines_closed_append {rows : List Text} (hrows : ∀ row ∈ rows, '\n' ∉ row) (t : Text) :
    lines (closed rows ++ t) = rows ++ lines t := by
  induction rows with
  | nil => rfl
  | cons row rows ih =>
    simp only [List.mem_cons, forall_eq_or_imp] at hrows
    rw [closed_cons, List.append_assoc, lines_append_of_free hrows.1, List.cons_append]
    simp [lines, ih hrows.2]

/-- Rows without newlines are found again in the text that they make up. -/
theorem lines_ofLines {rows : List Text} (hne : rows ≠ []) (hfree : ∀ row ∈ rows, '\n' ∉ row) :
    lines (ofLines rows) = rows := by
  induction rows with
  | nil => exact absurd rfl hne
  | cons row rows ih =>
    simp only [List.mem_cons, forall_eq_or_imp] at hfree
    cases rows with
    | nil =>
      have hrow := lines_append_of_free hfree.1 []
      simpa [ofLines, lines] using hrow
    | cons next rest =>
      rw [ofLines, lines_append_of_free hfree.1]
      simp [lines, ih (List.cons_ne_nil _ _) hfree.2]

/-- Rows joined by newlines are a first one and a newline before each of the others. -/
theorem ofLines_cons (row : Text) (rows : List Text) :
    ofLines (row :: rows) = row ++ rows.flatMap ('\n' :: ·) := by
  induction rows generalizing row with
  | nil => simp [ofLines]
  | cons next rows ih => rw [ofLines, ih, List.flatMap_cons, List.cons_append]

/-- Rows joined by newlines are whole rows and a last one. -/
theorem ofLines_concat (rows : List Text) (line : Text) :
    ofLines (rows ++ [line]) = closed rows ++ line := by
  induction rows with
  | nil => rfl
  | cons row rows ih =>
    rw [closed_cons, List.append_assoc, List.cons_append, List.cons_append, ← ih]
    cases rows with
    | nil => rfl
    | cons next rows => rfl

end Text

/-! ## A text split at a row -/

/-- The text `t` split at the row `line`: the whole rows above it, and what follows it. -/
structure SplitsAtRow (t : Text) (above : List Text) (line below : Text) : Prop where
  text_eq : t = Text.closed above ++ (line ++ below)
  above_free : ∀ row ∈ above, '\n' ∉ row
  line_free : '\n' ∉ line
  below_eq : below = [] ∨ ∃ rest, below = '\n' :: rest

namespace SplitsAtRow

variable {t line below : Text} {above : List Text}

theorem lines_eq (h : SplitsAtRow t above line below) :
    Text.lines t = above ++ line :: (Text.lines below).tail := by
  rw [h.text_eq, Text.lines_closed_append h.above_free, Text.lines_append_of_free h.line_free]
  rcases h.below_eq with rfl | ⟨rest, rfl⟩ <;> simp [Text.lines]

theorem getElem?_lines (h : SplitsAtRow t above line below) :
    (Text.lines t)[above.length]? = some line := by
  rw [h.lines_eq]
  simp

end SplitsAtRow

/-- A text can be split behind any of its front parts. -/
theorem exists_splitsAtRow_of_append (front back : Text) :
    ∃ above line rest below, SplitsAtRow (front ++ back) above (line ++ rest) below ∧
      front = Text.closed above ++ line := by
  obtain ⟨above, line, rfl, habove, hline⟩ := Text.exists_eq_closed_append front
  obtain ⟨rest, below, rfl, hrest, hbelow⟩ := Text.exists_eq_row_append back
  refine ⟨above, line, rest, below, ⟨by simp, habove, ?_, hbelow⟩, rfl⟩
  simp [hline, hrest]

/-- A text can be split at any of its rows. -/
theorem exists_splitsAtRow_of_getElem? {t line : Text} {row : Nat}
    (h : (Text.lines t)[row]? = some line) :
    ∃ above below, SplitsAtRow t above line below ∧ above.length = row := by
  induction t generalizing row line with
  | nil =>
    cases row with
    | zero =>
      simp only [Text.lines, List.getElem?_cons_zero, Option.some.injEq] at h
      subst h
      exact ⟨[], [], ⟨rfl, by simp, by simp, .inl rfl⟩, rfl⟩
    | succ row => simp [Text.lines] at h
  | cons c t ih =>
    by_cases hc : c = '\n'
    · -- A row break before the text adds an empty row at its top.
      simp only [Text.lines, hc, if_true] at h
      cases row with
      | zero =>
        simp only [List.getElem?_cons_zero, Option.some.injEq] at h
        subst h
        exact ⟨[], c :: t, ⟨rfl, by simp, by simp, .inr ⟨t, by rw [hc]⟩⟩, rfl⟩
      | succ row =>
        obtain ⟨above, below, hsplit, rfl⟩ := ih (by simpa using h)
        refine ⟨[] :: above, below, ⟨?_, ?_, hsplit.line_free, hsplit.below_eq⟩, by simp⟩
        · rw [hsplit.text_eq, Text.closed_cons, hc]
          rfl
        · simpa using hsplit.above_free
    · -- Any other character makes its first row longer.
      simp only [Text.lines, hc, if_false] at h
      cases row with
      | zero =>
        obtain ⟨first, below, rfl, hfirst, hbelow⟩ := Text.exists_eq_row_append t
        have hhead : (Text.lines (first ++ below)).headD [] = first := by
          rw [Text.lines_append_of_free hfirst]
          rcases hbelow with rfl | ⟨rest, rfl⟩ <;> simp [Text.lines]
        simp only [hhead, List.getElem?_cons_zero, Option.some.injEq] at h
        subst h
        exact ⟨[], below, ⟨rfl, by simp, by simp [Ne.symm hc, hfirst], hbelow⟩, rfl⟩
      | succ row =>
        have hrow : (Text.lines t)[row + 1]? = some line := by
          simpa [List.getElem?_tail] using h
        obtain ⟨above, below, hsplit, hlen⟩ := ih hrow
        cases above with
        | nil => simp at hlen
        | cons first above =>
          have hfree := hsplit.above_free
          simp only [List.mem_cons, forall_eq_or_imp] at hfree
          refine ⟨(c :: first) :: above, below, ⟨?_, ?_, hsplit.line_free, hsplit.below_eq⟩, hlen⟩
          · rw [hsplit.text_eq, Text.closed_cons, Text.closed_cons]
            rfl
          · simp only [List.mem_cons, forall_eq_or_imp]
            exact ⟨by simp [Ne.symm hc, hfree.1], hfree.2⟩

/-! ## Offsets of a row -/

namespace LineIndex

theorem startsAfter_append_of_free {s : Text} (hs : '\n' ∉ s) (base : Nat) (t : Text) :
    startsAfter base (s ++ t) = startsAfter (base + Text.width s) t := by
  induction s generalizing base with
  | nil => simp
  | cons c s ih =>
    simp only [List.mem_cons, not_or] at hs
    simp [startsAfter, Ne.symm hs.1, ih hs.2, Nat.add_assoc]

/-- Behind whole rows a new row starts, and as many rows started before it as there are whole
rows. -/
theorem exists_starts_closed_append {rows : List Text} (hrows : ∀ row ∈ rows, '\n' ∉ row)
    (base : Nat) (t : Text) :
    ∃ starts, starts.length = rows.length ∧
      base :: startsAfter base (Text.closed rows ++ t) =
        starts ++ (base + Text.width (Text.closed rows)) ::
          startsAfter (base + Text.width (Text.closed rows)) t := by
  induction rows generalizing base with
  | nil => exact ⟨[], rfl, by simp [Text.closed_nil]⟩
  | cons row rows ih =>
    simp only [List.mem_cons, forall_eq_or_imp] at hrows
    obtain ⟨starts, hlen, hstarts⟩ := ih hrows.2 (base + Text.width row + '\n'.utf8Size)
    refine ⟨base :: starts, by simp [hlen], ?_⟩
    have hbase : base + Text.width (Text.closed (row :: rows)) =
        base + Text.width row + '\n'.utf8Size + Text.width (Text.closed rows) := by
      simp only [Text.closed_cons, Text.width_append, Text.width_cons]
      omega
    rw [hbase, List.cons_append, ← hstarts, Text.closed_cons, List.append_assoc,
      startsAfter_append_of_free hrows.1, List.cons_append, startsAfter]
    simp

variable {t line below : Text} {above : List Text}

/-- Where a row starts and where it ends, as offsets. -/
theorem row_bounds (h : SplitsAtRow t above line below) :
    (ofText t).starts[above.length]? = some (Text.width (Text.closed above)) ∧
      (ofText t).rowEnd above.length = Text.width (Text.closed above) + Text.width line := by
  obtain ⟨starts, hlen, hstarts⟩ :=
    exists_starts_closed_append h.above_free 0 (line ++ below)
  rw [Nat.zero_add, startsAfter_append_of_free h.line_free] at hstarts
  have hof : (ofText t).starts = starts ++ Text.width (Text.closed above) ::
      startsAfter (Text.width (Text.closed above) + Text.width line) below := by
    rw [← hstarts, h.text_eq]
    rfl
  refine ⟨by rw [hof, ← hlen]; simp, ?_⟩
  have hnext : (ofText t).starts[above.length + 1]? =
      (startsAfter (Text.width (Text.closed above) + Text.width line) below)[0]? := by
    rw [hof, ← hlen, List.getElem?_append_right (by omega)]
    simp
  rw [rowEnd, hnext]
  rcases h.below_eq with rfl | ⟨rest, rfl⟩
  · simp [startsAfter, ofText, h.text_eq]
  · have hsize : '\n'.utf8Size = 1 := by decide
    simp [startsAfter, hsize]

/-- The offset of a position is its column, counted from where its row starts. -/
theorem offset?_row (h : SplitsAtRow t above line below) (column : Nat) :
    (ofText t).offset? ⟨above.length, column⟩ =
      if column ≤ Text.width line then some (Text.width (Text.closed above) + column)
      else none := by
  obtain ⟨hstart, hend⟩ := row_bounds h
  simp only [offset?, hstart, hend, Option.bind_some, bind]
  by_cases hcol : column ≤ Text.width line
  · rw [if_pos hcol, if_pos (by omega)]
  · rw [if_neg hcol, if_neg (by omega)]

end LineIndex

/-! ## The place behind a front part -/

namespace Position

theorem advance_append (p : Position) (s t : Text) :
    p.advance (s ++ t) = (p.advance s).advance t := by
  induction s generalizing p with
  | nil => rfl
  | cons c s ih => simp only [List.cons_append, advance, ih]

theorem advance_of_free (p : Position) {t : Text} (ht : '\n' ∉ t) :
    p.advance t = ⟨p.row, p.column + Text.width t⟩ := by
  induction t generalizing p with
  | nil => rfl
  | cons c t ih =>
    simp only [List.mem_cons, not_or] at ht
    simp [advance, Ne.symm ht.1, ih _ ht.2, Nat.add_assoc]

theorem advance_closed {rows : List Text} (hrows : ∀ row ∈ rows, '\n' ∉ row) (row : Nat) :
    advance ⟨row, 0⟩ (Text.closed rows) = ⟨row + rows.length, 0⟩ := by
  induction rows generalizing row with
  | nil => rfl
  | cons first rows ih =>
    simp only [List.mem_cons, forall_eq_or_imp] at hrows
    rw [Text.closed_cons, advance_append, advance_of_free _ hrows.1, advance]
    simp only [if_true]
    rw [ih hrows.2, List.length_cons, Nat.add_assoc, Nat.add_comm 1]

/-- The place behind whole rows and the front part of a row. -/
theorem advance_closed_append {above : List Text} (habove : ∀ row ∈ above, '\n' ∉ row)
    {line : Text} (hline : '\n' ∉ line) :
    origin.advance (Text.closed above ++ line) = ⟨above.length, Text.width line⟩ := by
  rw [advance_append, origin, advance_closed habove, advance_of_free _ hline, Nat.zero_add,
    Nat.zero_add]

/-- Writing something moves strictly to the right. -/
theorem lt_advance (p : Position) {t : Text} (ht : t ≠ []) : p < p.advance t := by
  induction t generalizing p with
  | nil => exact absurd rfl ht
  | cons c t ih =>
    have hc := c.utf8Size_pos
    have hnext : p < (if c = '\n' then (⟨p.row + 1, 0⟩ : Position)
        else ⟨p.row, p.column + c.utf8Size⟩) := by
      split
      · exact .inl (Nat.lt_succ_self _)
      · exact .inr ⟨rfl, Nat.lt_add_of_pos_right hc⟩
    rw [advance]
    by_cases hnil : t = []
    · rwa [hnil]
    · have hrest := ih (if c = '\n' then ⟨p.row + 1, 0⟩ else ⟨p.row, p.column + c.utf8Size⟩) hnil
      rw [lt_def] at hnext hrest ⊢
      omega

/-- Of two front parts of one text, the one that ends at the earlier place is the shorter one. -/
theorem prefix_of_advance_le {s s' t : Text} (hs : s <+: t) (hs' : s' <+: t)
    (hle : origin.advance s ≤ origin.advance s') : s <+: s' := by
  rcases List.prefix_or_prefix_of_prefix hs hs' with h | ⟨rest, rfl⟩
  · exact h
  · by_cases hrest : rest = []
    · simp [hrest]
    · rw [advance_append] at hle
      exact absurd hle (lt_iff_not_le.1 (lt_advance _ hrest))

end Position

/-- The places of a text are where its front parts end. -/
theorem exists_front_of_isPlace {t : Text} {p : Position} (h : IsPlace (Text.lines t) p) :
    ∃ front, front <+: t ∧ Position.origin.advance front = p := by
  obtain ⟨line, front, hline, ⟨rest, rfl⟩, hwidth⟩ := h
  obtain ⟨above, below, hsplit, hrow⟩ := exists_splitsAtRow_of_getElem? hline
  have hfree : '\n' ∉ front := fun hmem => hsplit.line_free (List.mem_append_left _ hmem)
  refine ⟨Text.closed above ++ front, ⟨rest ++ below, by simp [hsplit.text_eq]⟩, ?_⟩
  rw [Position.advance_closed_append hsplit.above_free hfree, hrow, hwidth]

/-- The offset of the place behind a front part is the width of that part. -/
theorem offset?_advance {front t : Text} (h : front <+: t) :
    (LineIndex.ofText t).offset? (Position.origin.advance front) = some (Text.width front) := by
  obtain ⟨back, rfl⟩ := h
  obtain ⟨above, line, rest, below, hsplit, rfl⟩ := exists_splitsAtRow_of_append front back
  have hfree : '\n' ∉ line := fun hmem => hsplit.line_free (List.mem_append_left _ hmem)
  rw [Position.advance_closed_append hsplit.above_free hfree, LineIndex.offset?_row hsplit,
    if_pos (by simp), Text.width_append]

/-- A front part ends at a place of the text. -/
theorem isPlace_advance {front t : Text} (h : front <+: t) :
    IsPlace (Text.lines t) (Position.origin.advance front) := by
  obtain ⟨back, rfl⟩ := h
  obtain ⟨above, line, rest, below, hsplit, rfl⟩ := exists_splitsAtRow_of_append front back
  have hfree : '\n' ∉ line := fun hmem => hsplit.line_free (List.mem_append_left _ hmem)
  rw [Position.advance_closed_append hsplit.above_free hfree]
  exact ⟨line ++ rest, line, hsplit.getElem?_lines, List.prefix_append _ _, rfl⟩

/-- The span between the ends of two front parts covers what the longer one has more. -/
theorem slice?_advance {front part t : Text} (h : front ++ part <+: t) :
    Span.slice? ⟨Position.origin.advance front, Position.origin.advance (front ++ part)⟩ t =
      some part := by
  obtain ⟨back, hback⟩ := h
  have hfront : front <+: t := ⟨part ++ back, by simp [← hback]⟩
  rw [Span.slice?, offset?_advance hfront, offset?_advance ⟨back, hback⟩]
  simp only [bind, Option.bind_some]
  exact Text.slice?_eq_some_iff.2 ⟨front, back, hback.symm, rfl, by simp⟩

theorem LineIndex.offset_eq_ok_of_offset?_eq_some {index : LineIndex} {p : Position}
    {offset : Nat} (h : index.offset? p = some offset) (hlimit : offset < addressLimit) :
    index.offset p = .ok (some offset) := by
  rw [index.offset_eq_ok p, h]
  intro start hstart
  simp only [offset?, hstart, bind, Option.bind_some] at h
  split at h
  · obtain rfl := Option.some.inj h
    exact hlimit
  · exact absurd h (by simp)

/-- In a text whose length is a machine word, computing in machine words makes no difference to
what a span covers. -/
theorem Span.slice_eq_ok_of_slice?_eq_some {s : Span} {t part : Text} (h : s.slice? t = some part)
    (hlimit : Text.width t < addressLimit) : s.slice t = .ok (some part) := by
  simp only [slice?, bind, Option.bind_eq_some_iff] at h
  obtain ⟨start, hstart, stop, hstop, hpart⟩ := h
  obtain ⟨front, back, ht, hfront, hpartStop⟩ := Text.slice?_eq_some_iff.1 hpart
  have hwidth : Text.width t = Text.width front + Text.width part + Text.width back := by
    simp [ht, Nat.add_assoc]
  have hstartOk := LineIndex.offset_eq_ok_of_offset?_eq_some hstart (by omega)
  have hstopOk := LineIndex.offset_eq_ok_of_offset?_eq_some hstop (by omega)
  simp only [slice, hstartOk, hstopOk, hpart, bind, Except.bind, pure, Except.pure]

end DotTarget
