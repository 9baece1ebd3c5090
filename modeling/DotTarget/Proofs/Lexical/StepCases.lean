import DotTarget.Proofs.Lexical.AtomGrammar
import DotTarget.Proofs.Lexical.CodeRows

set_option autoImplicit false

/-! # What a step of a scan can do

A step stays or moves for one of a few reasons (`Scan.StepCase`). Moving over a member is the one
move that leads to a place where nothing was taken: to where the receiver ends. That place, too, is
found in a few ways (`Scan.ReceiverCase`). Properties of steps and of walks are read off these two
lists. -/

namespace DotTarget

/-! ## Brackets -/

namespace Matcher

/-- Only an opening bracket ends the search for one. -/
theorem isOpener_of_feed_balanced {m : Matcher} {left : Text} {c : Char}
    (h : (m.feed left c).2 = .balanced) : isOpener c = true := by
  unfold feed advance at h
  split at h
  · simp at h
  · split at h
    · unfold feedCode at h
      split at h
      · simp at h
      · split at h
        · assumption
        · split at h
          · split at h <;> simp at h
          · simp at h
    · split at h <;> simp at h
    · split at h <;> simp at h
    · simp at h

end Matcher

/-- The place found is that of an opening bracket left of where the search started. -/
theorem findOpener_at {lines : List Text} {place p : Position}
    (h : (findOpener lines place).opener = some p) :
    ∃ front c rest, lines[p.row]? = some (front ++ [c] ++ rest) ∧ p = ⟨p.row, Text.width front⟩ ∧
      isOpener c = true ∧ (⟨p.row, Text.width (front ++ [c])⟩ : Position) ≤ place := by
  have hseek : Matcher.initial.seek .balanced (upward lines place) =
      ((Matcher.initial.seek .balanced (upward lines place)).1, some p) := Prod.ext rfl h
  obtain ⟨front, c, seen, _, _, hmem, hcol, hgoal⟩ := Matcher.seek_found hseek
  have hfront : front ++ [c] <+: front ++ c :: seen :=
    (List.prefix_append_right_inj front).2 (List.prefix_append [c] seen)
  obtain ⟨line, hline, htext, -⟩ := mem_upward hmem
  obtain ⟨rest, rfl⟩ := hfront.trans htext
  refine ⟨front, c, rest, hline, ?_, Matcher.isOpener_of_feed_balanced hgoal,
    (isPlace_of_mem_upward hmem hfront).2⟩
  rw [hcol]

theorem findOpener_lt {lines : List Text} {place p : Position}
    (h : (findOpener lines place).opener = some p) : p < place := by
  obtain ⟨front, c, rest, -, hp, -, hle⟩ := findOpener_at h
  have hpos : 0 < c.utf8Size := c.utf8Size_pos
  rw [Position.le_def, Text.width_append, Text.width_cons] at hle
  rw [hp, Position.lt_def]
  dsimp only at hle ⊢
  omega

/-! ## Atoms -/

/-- An atom at the end of a text is one of the grammar, and not empty. -/
theorem isAtom_of_atomEnd {t atom : Text} (h : atomEnd t = some atom) :
    Atom.IsAtom atom ∧ 0 < Text.width atom := by
  simp only [atomEnd, bind, Option.bind_eq_some_iff] at h
  obtain ⟨found, hfound, h⟩ := h
  split at h
  · exact absurd h (by simp)
  · obtain rfl := Option.some.inj h
    have hmatches := (Pattern.longestEnd_eq_some hfound).2.1
    exact ⟨Atom.matches_grammar_iff.1 hmatches, Atom.width_pos_of_matches_grammar hmatches⟩

/-- The place where an atom starts lies left of its end. -/
theorem width_sub_lt_of_atomEnd {t atom : Text} (h : atomEnd t = some atom) :
    Text.width t - Text.width atom < Text.width t := by
  have hpos := (isAtom_of_atomEnd h).2
  obtain ⟨front, rfl, -⟩ := Scan.atomEnd_eq_some h
  rw [Text.width_append]
  omega

namespace Scan

/-! ## Steps -/

/-- What a step from a place can do, and where it leads. -/
inductive StepCase (lines : List Text) (place : Position) : Position → Prop where
  /-- The row does not exist. -/
  | outside (hline : lines[place.row]? = none) : StepCase lines place place
  /-- Neither a closed group nor an atom ends at the place. -/
  | nothing {line : Text} (hline : lines[place.row]? = some line)
      (hatom : atomEnd (Text.cut line place.column) = none)
      (hcloser : ∀ c ∈ (Text.cut line place.column).getLast?, isCloser c = false) :
      StepCase lines place place
  /-- A closing bracket has no opener. -/
  | unmatched {line : Text} {c : Char} (hline : lines[place.row]? = some line)
      (hlast : (Text.cut line place.column).getLast? = some c) (hcloser : isCloser c = true)
      (hopener : (findOpener lines place).opener = none) : StepCase lines place place
  | group {opener : Position} (hopener : (findOpener lines place).opener = some opener) :
      StepCase lines place opener
  | atom {line atom : Text} (hline : lines[place.row]? = some line)
      (hatom : atomEnd (Text.cut line place.column) = some atom)
      (hmember : isMemberAccess atom = false) :
      StepCase lines place
        ⟨place.row, Text.width (Text.cut line place.column) - Text.width atom⟩
  /-- A member has no receiver. -/
  | orphan {line atom : Text} (hline : lines[place.row]? = some line)
      (hatom : atomEnd (Text.cut line place.column) = some atom)
      (hmember : isMemberAccess atom = true)
      (hreceiver : memberReceiver lines
        ⟨place.row, Text.width (Text.cut line place.column) - Text.width atom⟩ = none) :
      StepCase lines place place
  | member {line atom : Text} {next : Position} (hline : lines[place.row]? = some line)
      (hatom : atomEnd (Text.cut line place.column) = some atom)
      (hmember : isMemberAccess atom = true)
      (hreceiver : memberReceiver lines
        ⟨place.row, Text.width (Text.cut line place.column) - Text.width atom⟩ = some next) :
      StepCase lines place next

theorem stepCase (lines : List Text) (place : Position) :
    StepCase lines place (step lines place).1 := by
  unfold step
  split
  · rename_i hline
    exact .outside hline
  · rename_i line hline
    dsimp only
    split
    · rename_i hlast
      have hatom : atomEnd (Text.cut line place.column) = none := by
        apply atomEnd_eq_none
        rw [hlast]
        simp
      exact .nothing hline hatom (by simp [hlast])
    · rename_i c hlast
      split
      · rename_i hcloser
        cases hopener : (findOpener lines place).opener with
        | none => exact .unmatched hline hlast hcloser hopener
        | some opener => exact .group hopener
      · rename_i hcloser
        split
        · rename_i hatom
          exact .nothing hline hatom (by simpa [hlast] using hcloser)
        · rename_i atom hatom
          split
          · rename_i hmember
            dsimp only
            cases hreceiver : memberReceiver lines
                ⟨place.row, Text.width (Text.cut line place.column) - Text.width atom⟩ with
            | none => exact .orphan hline hatom hmember hreceiver
            | some next => exact .member hline hatom hmember hreceiver
          · rename_i hmember
            exact .atom hline hatom (by simpa using hmember)

/-! ## Receivers -/

/-- How the end of a receiver is found for a dot that stands behind `before` in its row. -/
inductive ReceiverCase (lines : List Text) (dot : Position) (before : Text) : Position → Prop where
  /-- A closing bracket stands right before the dot, or before a comment that the dot is in. -/
  | closer {c : Char} (hlast : (Comment.strip before).getLast? = some c)
      (hcloser : isCloser c = true) : ReceiverCase lines dot before dot
  /-- The receiver ends in the row of the dot. -/
  | near (hoperand : endsOperand (codeOf before) = true) :
      ReceiverCase lines dot before ⟨dot.row, Text.width (codeOf before)⟩
  /-- The receiver is all code of a row above. -/
  | above {row : Nat} {line : Text} (hrow : row < dot.row) (hline : lines[row]? = some line)
      (hoperand : endsOperand (codeOf line) = true) :
      ReceiverCase lines dot before ⟨row, Text.width (codeOf line)⟩
  /-- The receiver is all code before the backslash that ends a row above. -/
  | joined {row : Nat} {line rest : Text} (hrow : row < dot.row) (hline : lines[row]? = some line)
      (hcode : codeOf line = rest ++ ['\\'])
      (hoperand : endsOperand (Text.trimEnd rest) = true) :
      ReceiverCase lines dot before ⟨row, Text.width (Text.trimEnd rest)⟩

theorem receiverCase {lines : List Text} {dot p : Position} {line : Text}
    (hline : lines[dot.row]? = some line) (h : memberReceiver lines dot = some p) :
    ReceiverCase lines dot (Text.cut line dot.column) p := by
  simp only [memberReceiver, upward, hline] at h
  split at h
  · rename_i hlast
    obtain ⟨c, hc, hcloser⟩ := (Option.any_eq_true _ _).1 hlast
    obtain rfl := Option.some.inj h
    exact .closer hc hcloser
  · split at h
    · simp only [bind, Option.bind_eq_some_iff, Prod.exists] at h
      obtain ⟨row, receiver, hreceiver, h⟩ := h
      obtain ⟨text, hmem, hcases⟩ := joinedReceiver_cases hreceiver
      simp only [List.mem_map, Prod.mk.injEq, Prod.exists] at hmem
      obtain ⟨_, above, hmem, rfl, rfl⟩ := hmem
      obtain ⟨hrow, habove⟩ := mem_rowsAbove hmem
      split at h
      · rename_i hoperand
        obtain rfl := Option.some.inj h
        rcases hcases with rfl | ⟨rest, hcode, rfl⟩
        · exact .above hrow habove hoperand
        · exact .joined hrow habove hcode hoperand
      · exact absurd h (by simp)
    · simp only [bind, Option.bind_some] at h
      split at h
      · rename_i hoperand
        obtain rfl := Option.some.inj h
        exact .near hoperand
      · exact absurd h (by simp)

end Scan

end DotTarget
