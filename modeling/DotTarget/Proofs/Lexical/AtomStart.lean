import DotTarget.Proofs.Lexical.AtomGrammar
import Mathlib.Order.Bounds.Basic

set_option autoImplicit false

/-! # Atoms start as far left as they can

The end of a text can be read as an atom from several bytes on: `b.c` ends `a.b.c`, and so do `.c`
and `c`. The atom found is the one that starts leftmost, and a keyword found in this way is refused
as a whole, without trying a shorter atom (`atomStart_leftmost`).

The search itself reads the text backward and asks the pattern `Atom.grammar` for its longest end;
what it finds is said here in bytes and in terms of `Atom.IsAtom`. -/

namespace DotTarget

/-- The rest of a text from a byte on, which must lie between two characters. -/
def Text.RestAt (t : Text) (start : Nat) (rest : Text) : Prop :=
  ∃ front, t = front ++ rest ∧ width front = start

/-- There is one rest from each byte on. -/
theorem Text.RestAt.unique {t rest rest' : Text} {start : Nat} (h : t.RestAt start rest)
    (h' : t.RestAt start rest') : rest = rest' := by
  obtain ⟨front, rfl, hwidth⟩ := h
  obtain ⟨front', ht, hwidth'⟩ := h'
  have hfront := cut_append_width front rest
  rw [ht, hwidth, ← hwidth', cut_append_width] at hfront
  rw [hfront, List.append_cancel_left_eq] at ht
  exact ht

/-- A longer rest starts further left. -/
theorem Text.RestAt.le_of_length_le {t rest rest' : Text} {start start' : Nat}
    (h : t.RestAt start rest) (h' : t.RestAt start' rest') (hle : rest'.length ≤ rest.length) :
    start ≤ start' := by
  obtain ⟨front, rfl, rfl⟩ := h
  obtain ⟨front', ht, rfl⟩ := h'
  have hlength := congrArg List.length ht
  simp only [List.length_append] at hlength
  have hfront : front <+: front ++ rest := List.prefix_append _ _
  have hfront' : front' <+: front ++ rest := ht ▸ List.prefix_append _ _
  exact width_le_of_prefix (List.prefix_of_prefix_length_le hfront hfront' (by omega))

namespace Atom

/-- The bytes between two characters from which on a text is an atom. -/
def starts (t : Text) : Set Nat :=
  {start | ∃ atom, t.RestAt start atom ∧ IsAtom atom}

/-- Whether a text is a keyword from a byte on. -/
def KeywordAt (t : Text) (start : Nat) : Prop :=
  ∃ keyword ∈ keywords, t.RestAt start keyword.toList

theorem keywordAt_iff {t word : Text} {start : Nat} (h : t.RestAt start word) :
    KeywordAt t start ↔ isKeyword word = true := by
  rw [isKeyword_iff]
  constructor
  · intro ⟨keyword, hmem, hrest⟩
    exact ⟨keyword, hmem, hrest.unique h⟩
  · intro ⟨keyword, hmem, heq⟩
    exact ⟨keyword, hmem, heq ▸ h⟩

/-- An atom is not empty. -/
theorem lt_width_of_mem_starts {t : Text} {start : Nat} (h : start ∈ starts t) :
    start < Text.width t := by
  obtain ⟨atom, ⟨front, rfl, rfl⟩, hatom⟩ := h
  have hpos := width_pos_of_matches_grammar (matches_grammar_iff.2 hatom)
  rw [Text.width_append]
  omega

/-- The longest end that the pattern matches is the atom that starts leftmost. -/
theorem longestEnd_eq_some_iff {t atom : Text} :
    grammar.longestEnd t = some atom ↔
      ∃ start, IsLeast (starts t) start ∧ t.RestAt start atom := by
  constructor
  · intro h
    obtain ⟨⟨front, rfl⟩, hmatches, hlongest⟩ := Pattern.longestEnd_eq_some h
    have hrest : Text.RestAt (front ++ atom) (Text.width front) atom := ⟨front, rfl, rfl⟩
    refine ⟨Text.width front, ⟨⟨atom, hrest, matches_grammar_iff.1 hmatches⟩, ?_⟩, hrest⟩
    intro start ⟨other, hother, hatom⟩
    have hsuffix : other <:+ front ++ atom := by
      obtain ⟨front', ht, -⟩ := hother
      exact ht ▸ List.suffix_append _ _
    exact hrest.le_of_length_le hother (hlongest other hsuffix (matches_grammar_iff.2 hatom))
  · rintro ⟨start, ⟨⟨found, hfound, hatom⟩, hleast⟩, hrest⟩
    obtain rfl := hfound.unique hrest
    have hsuffix : found <:+ t := by
      obtain ⟨front, rfl, -⟩ := hrest
      exact List.suffix_append _ _
    cases hlongest : grammar.longestEnd t with
    | none =>
      exact absurd (matches_grammar_iff.2 hatom) (Pattern.longestEnd_eq_none hlongest hsuffix)
    | some longest =>
      obtain ⟨⟨front, rfl⟩, hmatches, hlongest⟩ := Pattern.longestEnd_eq_some hlongest
      have hother : Text.RestAt (front ++ longest) (Text.width front) longest := ⟨front, rfl, rfl⟩
      -- Each of the two starts is at most the other one.
      have hle := hother.le_of_length_le hrest
        (hlongest found hsuffix (matches_grammar_iff.2 hatom))
      have hge := hleast ⟨longest, hother, matches_grammar_iff.1 hmatches⟩
      rw [le_antisymm hge hle] at hrest
      rw [hother.unique hrest]

theorem longestEnd_eq_none_iff {t : Text} : grammar.longestEnd t = none ↔ starts t = ∅ := by
  constructor
  · intro h
    rw [Set.eq_empty_iff_forall_notMem]
    intro start ⟨atom, ⟨front, ht, _⟩, hatom⟩
    exact Pattern.longestEnd_eq_none h (ht ▸ List.suffix_append _ _) (matches_grammar_iff.2 hatom)
  · intro h
    rw [Option.eq_none_iff_forall_ne_some]
    intro atom hatom
    obtain ⟨start, hleast, -⟩ := longestEnd_eq_some_iff.1 hatom
    rw [h] at hleast
    exact hleast.1

end Atom

theorem atomStart_of_longestEnd {t atom : Text} {start : Nat}
    (h : Atom.grammar.longestEnd t = some atom) (hrest : t.RestAt start atom) :
    atomStart t = if Atom.isKeyword atom then none else some start := by
  obtain ⟨front, rfl, rfl⟩ := hrest
  simp only [atomStart, atomEnd, h, bind, Option.bind_some]
  split
  · rfl
  · simp

theorem atomStart_eq_some_iff {t : Text} {start : Nat} :
    atomStart t = some start ↔ IsLeast (Atom.starts t) start ∧ ¬ Atom.KeywordAt t start := by
  cases hlongest : Atom.grammar.longestEnd t with
  | none =>
    have hempty := Atom.longestEnd_eq_none_iff.1 hlongest
    simp [atomStart, atomEnd, hlongest, hempty, IsLeast]
  | some atom =>
    obtain ⟨least, hleast, hrest⟩ := Atom.longestEnd_eq_some_iff.1 hlongest
    rw [atomStart_of_longestEnd hlongest hrest]
    constructor
    · intro h
      split at h
      · exact absurd h (by simp)
      · rename_i hword
        obtain rfl := Option.some.inj h
        exact ⟨hleast, mt (Atom.keywordAt_iff hrest).1 hword⟩
    · rintro ⟨hstart, hnot⟩
      obtain rfl := hstart.unique hleast
      rw [if_neg (mt (Atom.keywordAt_iff hrest).2 hnot)]

theorem atomStart_eq_none_iff {t : Text} :
    atomStart t = none ↔
      Atom.starts t = ∅ ∨ ∃ start, IsLeast (Atom.starts t) start ∧ Atom.KeywordAt t start := by
  constructor
  · intro h
    cases hlongest : Atom.grammar.longestEnd t with
    | none => exact .inl (Atom.longestEnd_eq_none_iff.1 hlongest)
    | some atom =>
      obtain ⟨least, hleast, -⟩ := Atom.longestEnd_eq_some_iff.1 hlongest
      refine .inr ⟨least, hleast, ?_⟩
      by_contra hnot
      rw [atomStart_eq_some_iff.2 ⟨hleast, hnot⟩] at h
      exact absurd h (by simp)
  · intro h
    rw [Option.eq_none_iff_forall_ne_some]
    intro start hstart
    obtain ⟨hleast, hnot⟩ := atomStart_eq_some_iff.1 hstart
    rcases h with hempty | ⟨other, hother, hword⟩
    · rw [hempty] at hleast
      exact hleast.1
    · rw [hother.unique hleast] at hword
      exact hnot hword

/-- **An atom starts as far left as it can.** Among the bytes from which on the text is an atom, the
least one is the answer; there is none if there are no such bytes, or if the text from the least one
on is a keyword. So the atom found is never empty. -/
theorem atomStart_leftmost (t : Text) :
    (atomStart t = none ↔
      Atom.starts t = ∅ ∨ ∃ start, IsLeast (Atom.starts t) start ∧ Atom.KeywordAt t start) ∧
    ∀ start, (atomStart t = some start ↔
        IsLeast (Atom.starts t) start ∧ ¬ Atom.KeywordAt t start) ∧
      (atomStart t = some start → start < Text.width t) := by
  refine ⟨atomStart_eq_none_iff, ?_⟩
  intro start
  refine ⟨atomStart_eq_some_iff, ?_⟩
  intro hstart
  obtain ⟨hleast, -⟩ := atomStart_eq_some_iff.1 hstart
  exact Atom.lt_width_of_mem_starts hleast.1

/-- Members are taken together with their name, and a keyword hides the names that it ends in. -/
example : atomStart "x = a.b.c".toList = some 4 ∧ atomStart "not".toList = none := by decide

end DotTarget
