import DotTarget.Proofs.Completion.TriggerSearch
import DotTarget.Proofs.Lexical.ScanPlaces
import DotTarget.Session.Resolver

set_option autoImplicit false

/-! # The text around a trigger

A trigger cuts a text in four: what precedes the dot, the dot, the word behind it, and what
follows the word (`triggerAt?_eq_some`). The text without the trigger is the first and the last
part put together (`withoutTrigger_eq_some`), so it can always be had. -/

namespace DotTarget

/-- A trigger on a row is a dot of the row and the word behind it. -/
theorem Trigger.find?_eq_some {line : Text} {cursor : Position} {trigger : Trigger}
    (h : find? line cursor = some trigger) :
    ∃ front word after, line = front ++ '.' :: (word ++ after) ∧
      trigger.dot = ⟨cursor.row, Text.width front⟩ ∧
      trigger.word.stop = ⟨cursor.row, Text.width (front ++ '.' :: word)⟩ := by
  obtain ⟨front, typed, tail, after, hsplit⟩ := exists_splitsAtTrigger_of_find? h
  obtain rfl := Option.some.inj (hsplit.find?_eq.symm.trans h)
  exact ⟨front, typed ++ tail, after, by simp [hsplit.line_eq], rfl, by simp [Nat.add_assoc]⟩

namespace Resolver

/-- **A trigger in a text is a dot of the text and the word behind it**, and the dot stands on the
row of the cursor. -/
theorem triggerAt?_eq_some {t : Text} {cursor : Position} {trigger : Trigger}
    (h : triggerAt? t cursor = some trigger) :
    ∃ front word after, t = front ++ '.' :: (word ++ after) ∧
      trigger.dot = Position.origin.advance front ∧
      trigger.word.stop = Position.origin.advance (front ++ '.' :: word) := by
  simp only [triggerAt?, bind, Option.bind_eq_some_iff] at h
  obtain ⟨line, hline, htrigger⟩ := h
  obtain ⟨front, word, after, rfl, hdot, hstop⟩ := Trigger.find?_eq_some htrigger
  obtain ⟨above, below, hsplit, hrow⟩ := exists_splitsAtRow_of_getElem? hline
  have hfree := hsplit.line_free
  have hfrontFree : '\n' ∉ front := fun hmem => hfree (by simp [hmem])
  have hwordFree : '\n' ∉ front ++ '.' :: word := by
    intro hmem
    refine hfree ?_
    rw [← List.cons_append, ← List.append_assoc]
    exact List.mem_append_left _ hmem
  refine ⟨Text.closed above ++ front, word, after ++ below, by simp [hsplit.text_eq], ?_, ?_⟩
  · rw [hdot, Position.advance_closed_append hsplit.above_free hfrontFree, hrow]
  · rw [hstop, List.append_assoc, Position.advance_closed_append hsplit.above_free hwordFree, hrow]

end Resolver

/-- Taking the trigger out of a text leaves what precedes the dot and what follows the word. -/
theorem withoutTrigger_eq_some {trigger : Trigger} {front word after : Text}
    (hdot : trigger.dot = Position.origin.advance front)
    (hstop : trigger.word.stop = Position.origin.advance (front ++ '.' :: word)) :
    withoutTrigger (front ++ '.' :: (word ++ after)) trigger = some (front ++ after) := by
  have hfront : front <+: front ++ '.' :: (word ++ after) := List.prefix_append _ _
  have hword : front ++ '.' :: word <+: front ++ '.' :: (word ++ after) := ⟨after, by simp⟩
  have hsplitFront : Text.splitAt? (front ++ '.' :: (word ++ after)) (Text.width front) =
      some (front, '.' :: (word ++ after)) :=
    Text.splitAt?_eq_some_iff.2 ⟨rfl, rfl⟩
  have hsplitWord : Text.splitAt? (front ++ '.' :: (word ++ after))
      (Text.width (front ++ '.' :: word)) = some (front ++ '.' :: word, after) :=
    Text.splitAt?_eq_some_iff.2 ⟨by simp, rfl⟩
  simp only [withoutTrigger, hdot, hstop, offset?_advance hfront, offset?_advance hword, bind,
    Option.bind_some, hsplitFront, hsplitWord, pure]

end DotTarget
