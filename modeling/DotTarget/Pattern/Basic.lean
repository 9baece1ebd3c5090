import DotTarget.CharClass
import DotTarget.Text.Width

set_option autoImplicit false

/-! # Patterns

Regular patterns over characters. `Pattern.Matches` says which texts a pattern stands for, and is
the meaning of everything below it. `Pattern.reverse` stands for the same texts written
backward. -/

namespace DotTarget

/-- A set of characters that a pattern can ask for. -/
inductive CharSet where
  | nameStart
  | namePart
  | blank
  | oneOf (members : List Char)
  | noneOf (members : List Char)
  deriving DecidableEq, Repr

/-- Whether a character belongs to a set. -/
def CharSet.holds : CharSet → Char → Bool
  | .nameStart, c => CharClass.isNameStart c
  | .namePart, c => CharClass.isNamePart c
  | .blank, c => CharClass.isBlank c
  | .oneOf members, c => members.contains c
  | .noneOf members, c => !members.contains c

/-- A regular pattern. -/
inductive Pattern where
  /-- Only the empty text. -/
  | empty
  /-- One character of a set. -/
  | one (set : CharSet)
  /-- One pattern after the other. -/
  | seq (first second : Pattern)
  /-- Either of two patterns. -/
  | alt (left right : Pattern)
  /-- A pattern any number of times. -/
  | star (body : Pattern)
  deriving DecidableEq, Repr

namespace Pattern

/-- The texts that a pattern stands for. -/
inductive Matches : Pattern → Text → Prop where
  | empty : Matches .empty []
  | one {set : CharSet} {c : Char} (h : set.holds c = true) : Matches (.one set) [c]
  | seq {p q : Pattern} {s t : Text} (hp : Matches p s) (hq : Matches q t) :
      Matches (.seq p q) (s ++ t)
  | left {p q : Pattern} {s : Text} (h : Matches p s) : Matches (.alt p q) s
  | right {p q : Pattern} {s : Text} (h : Matches q s) : Matches (.alt p q) s
  | starNil {p : Pattern} : Matches (.star p) []
  | starCons {p : Pattern} {s t : Text} (hp : Matches p s) (hq : Matches (.star p) t) :
      Matches (.star p) (s ++ t)

/-! ## Combining patterns -/

/-- One of the given characters. -/
def oneOf (members : String) : Pattern :=
  one (.oneOf members.toList)

/-- Any character but the given ones. -/
def noneOf (members : String) : Pattern :=
  one (.noneOf members.toList)

/-- A pattern or nothing. -/
def opt (p : Pattern) : Pattern :=
  alt p empty

/-- A pattern once or more often. -/
def plus (p : Pattern) : Pattern :=
  seq p (star p)

/-- Patterns one after the other. -/
def chain : List Pattern → Pattern
  | [] => empty
  | [p] => p
  | p :: rest => seq p (chain rest)

/-- The first pattern or any of the others. -/
def choice (p : Pattern) : List Pattern → Pattern
  | [] => p
  | q :: rest => alt p (choice q rest)

/-- The pattern of the same texts written backward. -/
def reverse : Pattern → Pattern
  | .empty => .empty
  | .one set => .one set
  | .seq p q => .seq q.reverse p.reverse
  | .alt p q => .alt p.reverse q.reverse
  | .star p => .star p.reverse

/-! ## What each pattern matches -/

theorem matches_empty_iff {t : Text} : Matches .empty t ↔ t = [] := by
  constructor
  · rintro ⟨⟩
    rfl
  · rintro rfl
    exact .empty

theorem matches_one_iff {set : CharSet} {t : Text} :
    Matches (.one set) t ↔ ∃ c, t = [c] ∧ set.holds c = true := by
  constructor
  · rintro ⟨⟩
    exact ⟨_, rfl, by assumption⟩
  · rintro ⟨c, rfl, h⟩
    exact .one h

theorem matches_seq_iff {p q : Pattern} {t : Text} :
    Matches (.seq p q) t ↔ ∃ a b, t = a ++ b ∧ Matches p a ∧ Matches q b := by
  constructor
  · intro h
    cases h with
    | seq hp hq => exact ⟨_, _, rfl, hp, hq⟩
  · rintro ⟨a, b, rfl, hp, hq⟩
    exact .seq hp hq

theorem matches_alt_iff {p q : Pattern} {t : Text} :
    Matches (.alt p q) t ↔ Matches p t ∨ Matches q t := by
  constructor
  · intro h
    cases h with
    | left h => exact .inl h
    | right h => exact .inr h
  · rintro (h | h)
    · exact .left h
    · exact .right h

theorem matches_star_iff {p : Pattern} {t : Text} :
    Matches (.star p) t ↔ ∃ parts : List Text, t = parts.flatten ∧ ∀ s ∈ parts, Matches p s := by
  constructor
  · intro h
    generalize hq : Pattern.star p = q at h
    induction h with
    | empty => cases hq
    | one => cases hq
    | seq => cases hq
    | left => cases hq
    | right => cases hq
    | starNil => exact ⟨[], by simp⟩
    | @starCons p' s u hp _ _ ih =>
      cases hq
      obtain ⟨parts, rfl, hparts⟩ := ih rfl
      exact ⟨s :: parts, by simp, by simpa using ⟨hp, hparts⟩⟩
  · rintro ⟨parts, rfl, hparts⟩
    induction parts with
    | nil => exact .starNil
    | cons s parts ih =>
      simp only [List.mem_cons, forall_eq_or_imp] at hparts
      exact .starCons hparts.1 (ih hparts.2)

theorem matches_oneOf_iff {members : String} {t : Text} :
    Matches (oneOf members) t ↔ ∃ c, t = [c] ∧ c ∈ members.toList := by
  simp [oneOf, matches_one_iff, CharSet.holds]

theorem matches_opt_iff {p : Pattern} {t : Text} : Matches (opt p) t ↔ t = [] ∨ Matches p t := by
  rw [opt, matches_alt_iff, matches_empty_iff, or_comm]

theorem matches_star_one_iff {set : CharSet} {t : Text} :
    Matches (star (one set)) t ↔ ∀ c ∈ t, set.holds c = true := by
  rw [matches_star_iff]
  constructor
  · rintro ⟨parts, rfl, hparts⟩ c hc
    obtain ⟨s, hs, hcs⟩ := List.mem_flatten.1 hc
    obtain ⟨d, rfl, hd⟩ := matches_one_iff.1 (hparts s hs)
    rw [List.mem_singleton.1 hcs]
    exact hd
  · intro h
    refine ⟨t.map fun c => [c], ?_, ?_⟩
    · rw [← List.flatMap_def, List.flatMap_singleton']
    · intro s hs
      obtain ⟨c, hc, rfl⟩ := List.mem_map.1 hs
      exact .one (h c hc)

theorem matches_star_oneOf_iff {members : String} {t : Text} :
    Matches (star (oneOf members)) t ↔ ∀ c ∈ t, c ∈ members.toList := by
  simp [oneOf, matches_star_one_iff, CharSet.holds]

theorem matches_reverse_of_matches {p : Pattern} {t : Text} (h : Matches p t) :
    Matches p.reverse t.reverse := by
  induction h with
  | empty => exact .empty
  | one h => exact .one h
  | seq _ _ ihp ihq =>
    rw [List.reverse_append]
    exact .seq ihq ihp
  | left _ ih => exact .left ih
  | right _ ih => exact .right ih
  | starNil => exact .starNil
  | @starCons p s t _ _ ihp ihq =>
    obtain ⟨parts, hparts, hall⟩ := matches_star_iff.1 ihq
    refine matches_star_iff.2 ⟨parts ++ [s.reverse], ?_, ?_⟩
    · simp [hparts]
    · intro u hu
      rcases List.mem_append.1 hu with hu | hu
      · exact hall u hu
      · rw [List.mem_singleton.1 hu]
        exact ihp

@[simp] theorem reverse_reverse (p : Pattern) : p.reverse.reverse = p := by
  induction p with
  | empty => rfl
  | one => rfl
  | seq p q ihp ihq => simp [reverse, ihp, ihq]
  | alt p q ihp ihq => simp [reverse, ihp, ihq]
  | star p ih => simp [reverse, ih]

/-- The reversed pattern matches exactly the reversed texts. -/
theorem matches_reverse_iff {p : Pattern} {t : Text} :
    Matches p.reverse t.reverse ↔ Matches p t := by
  constructor
  · intro h
    have := matches_reverse_of_matches h
    rwa [reverse_reverse, List.reverse_reverse] at this
  · exact matches_reverse_of_matches

end Pattern

end DotTarget
