import DotTarget.Text.Blank
import Mathlib.Data.List.DropRight

set_option autoImplicit false

/-! # Runs at the ends of a text

Trimming takes away runs of blanks, and the word at a column is made of runs of word characters.
Each is the longest run of a class of characters at one end of a text, and it is known by its
neighbour: a character of another class, or nothing (`Text.dropWhile_run_append`,
`Text.rdropWhile_append_run`). So a text is trimmed to a part of it exactly if only blanks stand
around that part and it neither begins nor ends with one (`Text.trim_append`,
`Text.exists_eq_append_trim_append`). -/

namespace DotTarget.Text

open CharClass (isBlank)

section Runs

variable {α : Type} {p : α → Bool} {t front run rest : List α}

/-- What follows the longest run at the front does not begin with a character of its class. -/
theorem eq_false_of_mem_head?_dropWhile {c : α} (h : c ∈ (t.dropWhile p).head?) :
    p c = false := by
  have hhead := List.head?_dropWhile_not p t
  rwa [show (t.dropWhile p).head? = some c from h] at hhead

theorem dropWhile_run_append (hrun : ∀ c ∈ run, p c = true)
    (hrest : ∀ c ∈ rest.head?, p c = false) : (run ++ rest).dropWhile p = rest := by
  rw [List.dropWhile_append_of_pos hrun]
  cases rest with
  | nil => rfl
  | cons c rest => simp [hrest c rfl]

theorem takeWhile_run_append (hrun : ∀ c ∈ run, p c = true)
    (hrest : ∀ c ∈ rest.head?, p c = false) : (run ++ rest).takeWhile p = run := by
  rw [List.takeWhile_append_of_pos hrun]
  cases rest with
  | nil => simp
  | cons c rest => simp [hrest c rfl]

/-- What precedes the longest run at the end does not end with a character of its class. -/
theorem eq_false_of_mem_getLast?_rdropWhile {c : α} (h : c ∈ (t.rdropWhile p).getLast?) :
    p c = false := by
  rw [List.rdropWhile, List.getLast?_reverse] at h
  exact eq_false_of_mem_head?_dropWhile h

theorem rdropWhile_append_run (hrun : ∀ c ∈ run, p c = true)
    (hfront : ∀ c ∈ front.getLast?, p c = false) : (front ++ run).rdropWhile p = front := by
  rw [← List.head?_reverse] at hfront
  rw [List.rdropWhile, List.reverse_append,
    dropWhile_run_append (fun c hc => hrun c (List.mem_reverse.1 hc)) hfront, List.reverse_reverse]

theorem rtakeWhile_append_run (hrun : ∀ c ∈ run, p c = true)
    (hfront : ∀ c ∈ front.getLast?, p c = false) : (front ++ run).rtakeWhile p = run := by
  rw [← List.head?_reverse] at hfront
  rw [List.rtakeWhile, List.reverse_append,
    takeWhile_run_append (fun c hc => hrun c (List.mem_reverse.1 hc)) hfront, List.reverse_reverse]

/-- Every text ends with a longest run, perhaps an empty one. -/
theorem exists_eq_append_run (p : α → Bool) (t : List α) :
    ∃ front run, t = front ++ run ∧ (∀ c ∈ run, p c = true) ∧
      ∀ c ∈ front.getLast?, p c = false :=
  ⟨t.rdropWhile p, t.rtakeWhile p, (List.rdropWhile_append_rtakeWhile ..).symm,
    fun _ hc => List.mem_rtakeWhile_imp hc, fun _ hc => eq_false_of_mem_getLast?_rdropWhile hc⟩

end Runs

/-! ## Trimming -/

theorem trimEnd_prefix (t : Text) : trimEnd t <+: t :=
  List.rdropWhile_prefix isBlank t

/-- What trimming takes away are blanks. -/
theorem exists_eq_trimEnd_append (t : Text) :
    ∃ blanks, t = trimEnd t ++ blanks ∧ ∀ c ∈ blanks, isBlank c = true := by
  refine ⟨t.rtakeWhile isBlank, (List.rdropWhile_append_rtakeWhile ..).symm, ?_⟩
  intro c hc
  exact List.mem_rtakeWhile_imp hc

theorem trimEnd_trimEnd (t : Text) : trimEnd (trimEnd t) = trimEnd t :=
  List.rdropWhile_idempotent isBlank t

theorem isBlankText_trimEnd (t : Text) : isBlankText (trimEnd t) = isBlankText t := by
  rw [Bool.eq_iff_iff, ← trimEnd_eq_nil_iff, ← trimEnd_eq_nil_iff, trimEnd_trimEnd]

theorem trimEnd_eq_nil_iff_forall {t : Text} :
    trimEnd t = [] ↔ ∀ c ∈ t, isBlank c = true := by
  rw [trimEnd_eq_nil_iff, isBlankText, List.all_eq_true]

/-- Blanks at the end are taken away up to the first other character. -/
theorem trimEnd_append {front blanks : Text} (hblanks : ∀ c ∈ blanks, isBlank c = true)
    (hfront : ∀ c ∈ front.getLast?, isBlank c = false) : trimEnd (front ++ blanks) = front :=
  rdropWhile_append_run hblanks hfront

/-- Blanks at both ends are taken away up to the first other character. -/
theorem trim_append {left core right : Text} (hleft : ∀ c ∈ left, isBlank c = true)
    (hright : ∀ c ∈ right, isBlank c = true) (hne : core ≠ [])
    (hfirst : ∀ c ∈ core.head?, isBlank c = false)
    (hlast : ∀ c ∈ core.getLast?, isBlank c = false) : trim (left ++ (core ++ right)) = core := by
  have hhead : ∀ c ∈ (core ++ right).head?, isBlank c = false := by
    rwa [List.head?_append_of_ne_nil core hne]
  rw [trim, dropWhile_run_append hleft hhead, trimEnd_append hright hlast]

/-- What trimming leaves stands between blanks. -/
theorem exists_eq_append_trim_append (t : Text) :
    ∃ left right, t = left ++ (trim t ++ right) ∧ (∀ c ∈ left, isBlank c = true) ∧
      ∀ c ∈ right, isBlank c = true := by
  obtain ⟨right, hsplit, hright⟩ := exists_eq_trimEnd_append (t.dropWhile isBlank)
  refine ⟨t.takeWhile isBlank, right, ?_, ?_, hright⟩
  · rw [trim, ← hsplit, List.takeWhile_append_dropWhile]
  · exact fun c hc => List.all_eq_true.1 List.all_takeWhile c hc

end DotTarget.Text
