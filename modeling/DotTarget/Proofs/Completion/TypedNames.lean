import DotTarget.Proofs.Completion.TriggerSearch
import DotTarget.Proofs.Lexical.AtomGrammar

set_option autoImplicit false

/-! # Names as typed words

What may stand in a name and what counts as a word being typed are two classes of characters. A
name may hold marks, connectors and joiners that no word holds (`CharClass.isAttached`), though none
of them begins a name. So the search for a trigger behind a dot and a name finds the dot and the
whole name, unless the name holds such a character; then it finds nothing (`Trigger.find?_name`). -/

namespace DotTarget

open CharClass (isWordChar isNamePart)

/-! ## The two classes -/

namespace CharClass

/-- A mark, connector or joiner that continues a name but is neither alphanumeric nor an
underscore. -/
def isAttached (c : Char) : Bool :=
  (markRanges.covers c.toNat || connectorRanges.covers c.toNat || joinerRanges.covers c.toNat)
    && !isRecent c && c ≠ '_' && !isAlphanumeric c

theorem isWordChar_of_isNameStart {c : Char} (h : isNameStart c = true) : isWordChar c = true := by
  simp only [isNameStart, Bool.or_eq_true, Bool.and_eq_true] at h
  simp only [isWordChar, isAlphanumeric, isAlphabetic, Bool.or_eq_true]
  rcases h with h | h
  · exact .inl h
  · exact .inr (.inl (.inl (.inl h.1)))

/-- **Where the two classes differ on a name.** -/
theorem isWordChar_iff_of_isNamePart {c : Char} (h : isNamePart c = true) :
    isWordChar c = true ↔ isAttached c = false := by
  simp only [isNamePart, Bool.and_eq_true, Bool.or_eq_true] at h
  obtain ⟨hclass, hrecent⟩ := h
  by_cases hunderscore : c = '_'
  · simp [isWordChar, isAttached, hunderscore]
  · by_cases halphanumeric : isAlphanumeric c = true
    · simp [isWordChar, isAttached, halphanumeric]
    · have hattached : (markRanges.covers c.toNat || connectorRanges.covers c.toNat ||
          joinerRanges.covers c.toNat) = true := by
        simp only [isAlphanumeric, isNumeral, Bool.or_eq_true, not_or] at halphanumeric
        simp only [Bool.or_eq_true]
        rcases hclass with (((halphabetic | hmark) | hdecimal) | hconnector) | hjoiner
        · exact absurd halphabetic halphanumeric.1
        · exact .inl (.inl hmark)
        · exact absurd hdecimal halphanumeric.2.1.1
        · exact .inl (.inr hconnector)
        · exact .inr hjoiner
      simp [isWordChar, isAttached, hunderscore, halphanumeric, hattached, hrecent]

end CharClass

theorem Name.dot_notMem_text (name : Name) : '.' ∉ name.text := by
  intro hmem
  exact absurd (name.isNamePart_of_mem_text _ hmem) (by decide)

/-- A name is a word exactly if it holds no attached character. -/
theorem Name.isWordChar_iff (name : Name) :
    (∀ c ∈ name.text, isWordChar c = true) ↔ name.text.any CharClass.isAttached = false := by
  rw [List.any_eq_false]
  refine forall₂_congr fun c hc => ?_
  rw [CharClass.isWordChar_iff_of_isNamePart (name.isNamePart_of_mem_text c hc),
    Bool.not_eq_true]

/-! ## The trigger behind a name -/

/-- **The trigger of a name.** Behind a dot and a name at the end of a row, the trigger is that dot
and the whole name if the name holds no attached character; otherwise there is none. A name does not
begin with an attached character, so the first letter alone is always found. -/
theorem Trigger.find?_name {name : Text} (hname : Pattern.Matches Atom.name name) (front : Text)
    (row : Nat) :
    find? (front ++ '.' :: name) ⟨row, Text.width (front ++ '.' :: name)⟩ =
        (if name.any CharClass.isAttached then none
        else some ⟨⟨row, Text.width front⟩,
          ⟨⟨row, Text.width front + 1⟩, ⟨row, Text.width (front ++ '.' :: name)⟩⟩⟩) ∧
      Text.slice? (front ++ '.' :: name) (Text.width front + 1)
        (Text.width (front ++ '.' :: name)) = some name ∧
      ∀ c ∈ name.head?, CharClass.isAttached c = false := by
  obtain ⟨name, rfl⟩ := Atom.matches_name_iff.1 hname
  have hdot : '.'.utf8Size = 1 := by decide
  have hcut : Text.cut (front ++ '.' :: name.text) (Text.width (front ++ '.' :: name.text)) =
      front ++ '.' :: name.text := Text.cut_of_width_le (Nat.le_refl _)
  refine ⟨?_, ?_, ?_⟩
  · split
    · rename_i hattached
      refine find?_eq_none_of_typed hcut name.dot_notMem_text ?_
      rw [name.isWordChar_iff, hattached]
      exact Bool.noConfusion
    · rename_i hword
      have hsplit : SplitsAtTrigger (front ++ '.' :: name.text)
          (⟨row, Text.width (front ++ '.' :: name.text)⟩ : Position).column front name.text [] [] :=
        ⟨by simp, hcut, name.isWordChar_iff.2 (Bool.eq_false_iff.2 hword), by simp, by simp⟩
      exact hsplit.find?_eq
  · exact Text.slice?_eq_some_iff.2
      ⟨front ++ ['.'], [], by simp, by simp [hdot], by simp [hdot, Nat.add_assoc]⟩
  · intro c hc
    obtain rfl : name.first = c := Option.some.inj hc
    have hword := CharClass.isWordChar_of_isNameStart name.first_isNameStart
    exact (CharClass.isWordChar_iff_of_isNamePart
      (name.isNamePart_of_mem_text _ List.mem_cons_self)).1 hword

/-- A name with a letter of two bytes, an alphabetic mark, an underscore and a digit. -/
theorem Trigger.find?_name_mixed :
    Pattern.Matches Atom.name "grö\u0345_2".toList ∧
      find? "a.b.grö\u0345_2".toList ⟨1, 12⟩ = some ⟨⟨1, 3⟩, ⟨⟨1, 4⟩, ⟨1, 12⟩⟩⟩ := by
  have hrest : "rö\u0345_2".toList.all isNamePart = true := by decide +kernel
  have hname : Pattern.Matches Atom.name "grö\u0345_2".toList :=
    Atom.matches_name_iff.2
      ⟨⟨'g', "rö\u0345_2".toList, by decide, List.all_eq_true.1 hrest⟩, rfl⟩
  have hword : "grö\u0345_2".toList.any CharClass.isAttached = false := by decide +kernel
  have hfront : Text.width "a.b".toList = 3 := by decide
  have hline : Text.width ("a.b".toList ++ '.' :: "grö\u0345_2".toList) = 12 := by decide
  have hfind := (find?_name hname "a.b".toList 1).1
  rw [hword, hline, hfront] at hfind
  exact ⟨hname, hfind⟩

/-- A name with an accent of its own, which the scan takes as a member, is not found. -/
theorem Trigger.find?_name_accent :
    Pattern.Matches Atom.name "e\u0301".toList ∧
      find? "x.e\u0301".toList ⟨0, 5⟩ = none ∧
      scan ["x.e\u0301.".toList] ⟨0, 6⟩ 9 = .ok ⟨⟨⟨0, 0⟩, ⟨0, 5⟩⟩, 2, 0, true⟩ := by
  have hrest : ['\u0301'].all isNamePart = true := by decide
  refine ⟨Atom.matches_name_iff.2 ⟨⟨'e', ['\u0301'], by decide, List.all_eq_true.1 hrest⟩, rfl⟩,
    ?_, ?_⟩
  · decide
  · decide

end DotTarget
