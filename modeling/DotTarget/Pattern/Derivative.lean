import DotTarget.Pattern.Basic

set_option autoImplicit false

/-! # Partial derivatives

The partial derivatives of a pattern by a character `c` are finitely many patterns that together
match exactly the texts `s` such that the pattern matches `c :: s`
(`anyMatches_derivatives`). A set of patterns, kept as a list without repetitions, is all that has
to be remembered of the characters read so far. -/

namespace DotTarget.Pattern

/-- Whether a pattern matches the empty text. -/
def nullable : Pattern → Bool
  | .empty => true
  | .one _ => false
  | .seq p q => p.nullable && q.nullable
  | .alt p q => p.nullable || q.nullable
  | .star _ => true

/-- One pattern after the other, where the empty pattern leaves no trace. -/
def followedBy : Pattern → Pattern → Pattern
  | .empty, q => q
  | p, q => .seq p q

/-- The union of two sets of patterns. -/
def union (ps qs : List Pattern) : List Pattern :=
  ps.foldr List.insert qs

/-- The partial derivatives of a pattern by a character. -/
def derivatives (c : Char) : Pattern → List Pattern
  | .empty => []
  | .one set => if set.holds c then [.empty] else []
  | .seq p q =>
    let first := (p.derivatives c).map (·.followedBy q)
    if p.nullable then union first (q.derivatives c) else first
  | .alt p q => union (p.derivatives c) (q.derivatives c)
  | .star p => (p.derivatives c).map (·.followedBy (.star p))

/-- The partial derivatives of all patterns of a set. -/
def derivativesAll (c : Char) : List Pattern → List Pattern
  | [] => []
  | p :: rest => union (p.derivatives c) (derivativesAll c rest)

/-! ## What derivatives match -/

theorem nullable_iff (p : Pattern) : p.nullable = true ↔ Matches p [] := by
  induction p with
  | empty => simp [nullable, matches_empty_iff]
  | one set => simp [nullable, matches_one_iff]
  | seq p q ihp ihq =>
    rw [matches_seq_iff]
    simp only [nullable, Bool.and_eq_true, ihp, ihq]
    constructor
    · rintro ⟨hp, hq⟩
      exact ⟨[], [], rfl, hp, hq⟩
    · rintro ⟨a, b, hab, hp, hq⟩
      obtain ⟨rfl, rfl⟩ := List.append_eq_nil_iff.1 hab.symm
      exact ⟨hp, hq⟩
  | alt p q ihp ihq => simp [nullable, matches_alt_iff, ihp, ihq]
  | star p => simp [nullable, Matches.starNil]

theorem mem_union {p : Pattern} {ps qs : List Pattern} :
    p ∈ union ps qs ↔ p ∈ ps ∨ p ∈ qs := by
  induction ps with
  | nil => simp [union]
  | cons r ps ih =>
    simp only [union, List.foldr_cons, List.mem_insert_iff, List.mem_cons] at ih ⊢
    rw [ih, or_assoc]

theorem matches_followedBy_iff {p q : Pattern} {t : Text} :
    Matches (p.followedBy q) t ↔ Matches (.seq p q) t := by
  unfold followedBy
  split
  · rw [matches_seq_iff]
    constructor
    · intro h
      exact ⟨[], t, rfl, .empty, h⟩
    · rintro ⟨a, b, rfl, ha, hb⟩
      rw [matches_empty_iff.1 ha]
      exact hb
  · rfl

/-- The texts that some pattern of a set matches. -/
def AnyMatches (ps : List Pattern) (t : Text) : Prop :=
  ∃ p ∈ ps, Matches p t

theorem anyMatches_singleton {p : Pattern} {t : Text} : AnyMatches [p] t ↔ Matches p t := by
  simp [AnyMatches]

theorem anyMatches_union {ps qs : List Pattern} {t : Text} :
    AnyMatches (union ps qs) t ↔ AnyMatches ps t ∨ AnyMatches qs t := by
  simp [AnyMatches, mem_union, or_and_right, exists_or]

theorem anyMatches_map_followedBy {ps : List Pattern} {q : Pattern} {t : Text} :
    AnyMatches (ps.map (·.followedBy q)) t ↔
      ∃ a b, t = a ++ b ∧ AnyMatches ps a ∧ Matches q b := by
  simp only [AnyMatches, List.mem_map]
  constructor
  · rintro ⟨_, ⟨p, hp, rfl⟩, h⟩
    obtain ⟨a, b, rfl, ha, hb⟩ := matches_seq_iff.1 (matches_followedBy_iff.1 h)
    exact ⟨a, b, rfl, ⟨p, hp, ha⟩, hb⟩
  · rintro ⟨a, b, rfl, ⟨p, hp, ha⟩, hb⟩
    exact ⟨_, ⟨p, hp, rfl⟩, matches_followedBy_iff.2 (.seq ha hb)⟩

theorem matches_star_cons_iff {p : Pattern} {c : Char} {t : Text} :
    Matches (.star p) (c :: t) ↔
      ∃ a b, t = a ++ b ∧ Matches p (c :: a) ∧ Matches (.star p) b := by
  constructor
  · intro h
    generalize hq : Pattern.star p = q at h
    generalize hs : c :: t = s at h
    induction h with
    | empty => cases hq
    | one => cases hq
    | seq => cases hq
    | left => cases hq
    | right => cases hq
    | starNil => cases hs
    | @starCons p' s' u hp hu _ ihu =>
      cases hq
      cases s' with
      | nil => exact ihu rfl hs
      | cons d s' =>
        obtain ⟨rfl, rfl⟩ := List.cons.inj hs
        exact ⟨s', u, rfl, hp, hu⟩
  · rintro ⟨a, b, rfl, ha, hb⟩
    exact .starCons ha hb

/-- The partial derivatives by `c` together match what follows `c` in a match. -/
theorem anyMatches_derivatives (c : Char) (p : Pattern) (t : Text) :
    AnyMatches (p.derivatives c) t ↔ Matches p (c :: t) := by
  induction p generalizing t with
  | empty => simp [derivatives, AnyMatches, matches_empty_iff]
  | one set =>
    by_cases h : set.holds c = true
    · simp only [derivatives, if_pos h, anyMatches_singleton, matches_empty_iff, matches_one_iff]
      constructor
      · rintro rfl
        exact ⟨c, rfl, h⟩
      · rintro ⟨d, hd, -⟩
        exact (List.cons.inj hd).2
    · simp only [derivatives, if_neg h, matches_one_iff]
      constructor
      · rintro ⟨p, hp, -⟩
        exact absurd hp List.not_mem_nil
      · rintro ⟨d, hd, hold⟩
        rw [← (List.cons.inj hd).1] at hold
        exact absurd hold h
  | alt p q ihp ihq => simp [derivatives, anyMatches_union, matches_alt_iff, ihp, ihq]
  | seq p q ihp ihq =>
    have hfirst : AnyMatches ((p.derivatives c).map (·.followedBy q)) t ↔
        ∃ a b, t = a ++ b ∧ Matches p (c :: a) ∧ Matches q b := by
      simp [anyMatches_map_followedBy, ihp]
    have hcons : Matches (.seq p q) (c :: t) ↔
        (∃ a b, t = a ++ b ∧ Matches p (c :: a) ∧ Matches q b) ∨
          (p.nullable = true ∧ Matches q (c :: t)) := by
      rw [matches_seq_iff, nullable_iff]
      constructor
      · rintro ⟨a, b, hab, ha, hb⟩
        cases a with
        | nil =>
          rw [List.nil_append] at hab
          exact .inr ⟨ha, hab ▸ hb⟩
        | cons d a =>
          obtain ⟨rfl, rfl⟩ := List.cons.inj hab
          exact .inl ⟨a, b, rfl, ha, hb⟩
      · rintro (⟨a, b, rfl, ha, hb⟩ | ⟨ha, hb⟩)
        · exact ⟨c :: a, b, rfl, ha, hb⟩
        · exact ⟨[], c :: t, rfl, ha, hb⟩
    rw [hcons, derivatives]
    by_cases hn : p.nullable = true
    · simp only [hn, if_true, anyMatches_union, hfirst, ihq, true_and]
    · simp only [hn, if_false, hfirst, false_and, or_false, Bool.false_eq_true]
  | star p ih =>
    rw [derivatives, anyMatches_map_followedBy, matches_star_cons_iff]
    simp [ih]

theorem anyMatches_derivativesAll (c : Char) (ps : List Pattern) (t : Text) :
    AnyMatches (derivativesAll c ps) t ↔ AnyMatches ps (c :: t) := by
  induction ps with
  | nil => simp [derivativesAll, AnyMatches]
  | cons p ps ih =>
    rw [derivativesAll, anyMatches_union, anyMatches_derivatives, ih]
    simp [AnyMatches]

theorem any_nullable_iff (ps : List Pattern) :
    ps.any nullable = true ↔ AnyMatches ps [] := by
  simp [AnyMatches, nullable_iff]

end DotTarget.Pattern
