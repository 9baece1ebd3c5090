import DotTarget.Lexical.Upward
import DotTarget.Proofs.Lexical.CommentReading

set_option autoImplicit false

/-! # Cutting a row before its comment is stripped

A backward search cuts its starting row at a column and strips the comment of what is left. A cut
can fall inside a triple quote, and then the row is read differently from there on: one or two of
three quotes open or close a literal in single quotes, and a literal in triple quotes whose last
quotes are cut off stays open. That makes no difference, because the reading changes only where
nothing but quotes is left before the cut, and no comment begins among them
(`Comment.State.Delimited.next_of_prefix`). So cutting and stripping may change places
(`Comment.strip_cut`), and what a search reads is the document without its comments, cut at the
place (`upward_eq_upwardInCode`). -/

namespace DotTarget

namespace Comment

/-! ## Texts without a `#` -/

/-- A text without a `#` has no comment. -/
theorem stripFrom_of_notMem (state : State) {t : Text} (h : '#' ∉ t) : stripFrom state t = t := by
  induction t generalizing state with
  | nil => rfl
  | cons c ahead ih =>
    simp only [List.mem_cons, not_or] at h
    have hnot : ¬(state = .code ∧ c = '#') := fun hand => h.1 hand.2.symm
    rw [stripFrom, if_neg hnot, ih _ h.2]

/-- What stands before a cut is kept when it holds no `#`, however it is read. -/
theorem cut_stripFrom_of_notMem (state : State) {t : Text} {n : Nat} (h : '#' ∉ Text.cut t n) :
    Text.cut (stripFrom state t) n = Text.cut t n := by
  induction t generalizing state n with
  | nil => rfl
  | cons c ahead ih =>
    by_cases hfits : c.utf8Size ≤ n
    · rw [Text.cut, if_pos hfits] at h ⊢
      simp only [List.mem_cons, not_or] at h
      have hnot : ¬(state = .code ∧ c = '#') := fun hand => h.1 hand.2.symm
      rw [stripFrom, if_neg hnot, Text.cut, if_pos hfits, ih _ h.2]
    · -- The first character does not fit, so nothing is left on either side.
      rw [Text.cut, if_neg hfits, stripFrom]
      split
      · rfl
      · rw [Text.cut, if_neg hfits]

/-! ## Reading a front part of a row -/

/-- Where a front part does not show whether three quotes stand in a row, it is too short: it holds
at most the first of the quotes ahead. -/
theorem completesTriple_of_prefix (quote : Char) {front ahead : Text} (h : front <+: ahead) :
    completesTriple quote front = completesTriple quote ahead ∨ front <+: [quote, quote] := by
  by_cases hlength : 2 ≤ front.length
  · left
    obtain ⟨rest, rfl⟩ := h
    rw [completesTriple, completesTriple, List.take_append_of_le_length hlength]
  · by_cases htriple : ahead.take 2 = [quote, quote]
    · right
      rw [← htriple]
      exact List.prefix_take_iff.2 ⟨h, by omega⟩
    · left
      have hshort : front.take 2 ≠ [quote, quote] := by
        intro heq
        have := congrArg List.length heq
        simp only [List.length_take, List.length_cons, List.length_nil] at this
        omega
      simp only [completesTriple, hshort, htriple]

theorem hash_notMem_of_quotes {quote : Char} (hquote : isQuote quote = true) {front : Text}
    (h : front <+: [quote, quote]) : '#' ∉ front := by
  intro hmem
  have hhash : '#' = quote := by simpa using h.subset hmem
  rw [← hhash] at hquote
  exact absurd hquote (by decide)

/-- A front part of a row is read as the row is, up to a place behind which it holds no `#`. -/
theorem State.Delimited.next_of_prefix {state : State} (h : state.Delimited) (c : Char)
    {front ahead : Text} (hfront : front <+: ahead) :
    state.next c front = state.next c ahead ∨ '#' ∉ front := by
  cases state with
  | code =>
    rw [State.next, State.next]
    split
    · rename_i hquote
      rcases completesTriple_of_prefix c hfront with hsame | hshort
      · exact .inl (by rw [hsame])
      · exact .inr (hash_notMem_of_quotes hquote hshort)
    · exact .inl rfl
  | quoted quote long =>
    rcases completesTriple_of_prefix quote hfront with hsame | hshort
    · exact .inl (by rw [State.next, State.next, hsame])
    · exact .inr (hash_notMem_of_quotes h hshort)
  | opening quote left => exact .inl rfl
  | escaped quote long => exact .inl rfl
  | closing left => exact .inl rfl

/-! ## Cutting and stripping -/

theorem stripFrom_cut {state : State} (h : state.Delimited) (t : Text) (n : Nat) :
    stripFrom state (Text.cut t n) = Text.cut (stripFrom state t) n := by
  induction t generalizing state n with
  | nil => rfl
  | cons c ahead ih =>
    by_cases hfits : c.utf8Size ≤ n
    · rw [Text.cut, if_pos hfits, stripFrom, stripFrom]
      split
      · rfl
      · rw [Text.cut, if_pos hfits]
        rcases h.next_of_prefix c (Text.cut_prefix ahead (n - c.utf8Size)) with hnext | hfree
        · rw [hnext, ih (h.next c ahead)]
        · -- From here on the two are read differently, but no comment begins before the cut.
          rw [stripFrom_of_notMem _ hfree, cut_stripFrom_of_notMem _ hfree]
    · rw [Text.cut, if_neg hfits, stripFrom, stripFrom]
      split
      · rfl
      · rw [Text.cut, if_neg hfits]

/-- **Cutting a row and stripping its comment may change places.** -/
theorem strip_cut (row : Text) (n : Nat) : strip (Text.cut row n) = Text.cut (strip row) n :=
  stripFrom_cut (show State.code.Delimited from trivial) row n

end Comment

/-! ## Reading a document upward -/

theorem rowsAbove_map (f : Text → Text) (lines : List Text) (row : Nat) :
    rowsAbove (lines.map f) row = (rowsAbove lines row).map (Prod.map id f) := by
  simp only [rowsAbove, ← List.map_take, List.zipIdx_map, List.map_reverse, List.map_map]
  rfl

/-- The rows from a place upward in the document without its comments; the first is cut at the
place's column. -/
def upwardInCode (lines : List Text) (place : Position) : List (Nat × Text) :=
  match (lines.map Comment.strip)[place.row]? with
  | none => []
  | some code =>
    (place.row, Text.cut code place.column) :: rowsAbove (lines.map Comment.strip) place.row

theorem upward_eq_upwardInCode (lines : List Text) (place : Position) :
    upward lines place = upwardInCode lines place := by
  unfold upward upwardInCode
  rw [List.getElem?_map, rowsAbove_map]
  cases lines[place.row]? with
  | none => rfl
  | some line =>
    show _ :: _ = (place.row, Text.cut (Comment.strip line) place.column) :: _
    rw [Comment.strip_cut]
    rfl

/-- **Cutting a row first neither loses code nor exposes a comment.** A row that is cut at any
column and then stripped of its comment is the stripped row, cut at that column. What stripping
leaves is a front part of the row, and a second time it takes nothing away. So from every place of
every document a search reads the rows of the document without comments, whether the starting row is
cut before or after. -/
theorem Comment.strip_comm_cut :
    (∀ (row : Text) (column : Nat),
      Comment.strip (Text.cut row column) = Text.cut (Comment.strip row) column) ∧
    (∀ row : Text, Comment.strip (Comment.strip row) = Comment.strip row ∧
      Comment.strip row <+: row) ∧
    ∀ (lines : List Text) (place : Position), upward lines place = upwardInCode lines place := by
  refine ⟨Comment.strip_cut, ?_, upward_eq_upwardInCode⟩
  intro row
  exact ⟨Comment.strip_strip row, Comment.stripFrom_prefix .code row⟩

/-- Cuts inside the triple quotes that open and close a literal with a `#` in it. -/
example : ∀ column < 20,
    Comment.strip (Text.cut "é = '''#''' # note".toList column) =
      Text.cut "é = '''#''' ".toList column := by
  decide

end DotTarget
