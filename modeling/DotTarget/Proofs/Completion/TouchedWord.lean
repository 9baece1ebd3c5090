import DotTarget.Completion.Word
import DotTarget.Proofs.Text.Trimming

set_option autoImplicit false

/-! # The word that touches a column

A column keeps a front part of its row. The word at the column is the longest run of word characters
that reaches to the end of that part or over it: it is bounded on both sides by other characters or
by the ends of the row (`Word.Touches`). There is exactly one such word, perhaps an empty one, and
`Word.around` finds it (`Word.touches_iff`). -/

namespace DotTarget

open CharClass (isWordChar)

/-- The row is split at the longest run of word characters that touches a column. -/
structure Word.Touches (w : Word) (line : Text) (column : Nat) : Prop where
  line_eq : line = w.before ++ (w.word ++ w.after)
  before_prefix : w.before <+: Text.cut line column
  cut_prefix : Text.cut line column <+: w.before ++ w.word
  word_isWord : ∀ c ∈ w.word, isWordChar c = true
  before_last : ∀ c ∈ w.before.getLast?, isWordChar c = false
  after_head : ∀ c ∈ w.after.head?, isWordChar c = false

namespace Word

variable {w : Word} {line : Text} {column : Nat}

/-- The part before the column is read backward, the part behind it forward. -/
theorem around_eq {kept back : Text} (hline : line = kept ++ back)
    (hcut : Text.cut line column = kept) :
    around line column = ⟨kept.rdropWhile isWordChar,
      kept.rtakeWhile isWordChar ++ back.takeWhile isWordChar, back.dropWhile isWordChar⟩ := by
  unfold around
  rw [hcut]
  dsimp only
  rw [hline, List.drop_left]
  rfl

theorem around_touches (line : Text) (column : Nat) : (around line column).Touches line column := by
  obtain ⟨back, hback⟩ := Text.cut_prefix line column
  generalize hcut : Text.cut line column = kept at hback
  have hkept : kept.rdropWhile isWordChar ++ kept.rtakeWhile isWordChar = kept :=
    List.rdropWhile_append_rtakeWhile ..
  rw [around_eq hback.symm hcut]
  constructor
  case line_eq =>
    rw [List.append_assoc, ← List.append_assoc, hkept, List.takeWhile_append_dropWhile, hback]
  case before_prefix =>
    rw [hcut]
    exact List.rdropWhile_prefix isWordChar kept
  case cut_prefix =>
    rw [hcut, ← List.append_assoc, hkept]
    exact List.prefix_append _ _
  case word_isWord =>
    intro c hc
    rcases List.mem_append.1 hc with hc | hc
    · exact List.mem_rtakeWhile_imp hc
    · exact List.all_eq_true.1 List.all_takeWhile c hc
  case before_last => exact fun c hc => Text.eq_false_of_mem_getLast?_rdropWhile hc
  case after_head => exact fun c hc => Text.eq_false_of_mem_head?_dropWhile hc

/-- The column splits the word in two parts, of which either may be empty. -/
theorem Touches.exists_parts (h : w.Touches line column) :
    ∃ typed tail, w.word = typed ++ tail ∧ Text.cut line column = w.before ++ typed ∧
      line = w.before ++ typed ++ (tail ++ w.after) ∧ (∀ c ∈ typed, isWordChar c = true) ∧
      ∀ c ∈ tail, isWordChar c = true := by
  obtain ⟨typed, htyped⟩ := h.before_prefix
  obtain ⟨tail, htail⟩ := h.cut_prefix
  rw [← htyped, List.append_assoc, List.append_cancel_left_eq] at htail
  have hword := h.word_isWord
  rw [← htail, List.forall_mem_append] at hword
  refine ⟨typed, tail, htail.symm, htyped.symm, ?_, hword.1, hword.2⟩
  rw [h.line_eq, ← htail]
  simp

theorem Touches.eq_around (h : w.Touches line column) : w = around line column := by
  obtain ⟨typed, tail, hword, hcut, hline, htyped, htail⟩ := h.exists_parts
  rw [around_eq hline hcut, Text.rdropWhile_append_run htyped h.before_last,
    Text.rtakeWhile_append_run htyped h.before_last, Text.takeWhile_run_append htail h.after_head,
    Text.dropWhile_run_append htail h.after_head, ← hword]

/-- **A row has exactly one word that touches a column.** -/
theorem touches_iff : w.Touches line column ↔ w = around line column :=
  ⟨Touches.eq_around, fun h => h ▸ around_touches line column⟩

end Word

end DotTarget
