import DotTarget.Pattern.Derivative

set_option autoImplicit false

/-! # Longest matches

`Pattern.longestFront` finds the longest front part of a text that a pattern matches, by reading
the text with partial derivatives. `Pattern.longestEnd` finds the longest end part, by reading the
text backward with the reversed pattern (`longestEnd_eq_some`, `longestEnd_eq_none`). -/

namespace DotTarget.Pattern

/-- The longest front part of a text that one of the patterns matches. -/
def longestFrontOf (patterns : List Pattern) : Text → Option Text
  | [] => if patterns.any nullable then some [] else none
  | c :: rest =>
    let stop := if patterns.any nullable then some [] else none
    match derivativesAll c patterns with
    | [] => stop
    | next =>
      match longestFrontOf next rest with
      | some front => some (c :: front)
      | none => stop

/-- The longest front part of a text that a pattern matches. -/
def longestFront (p : Pattern) (t : Text) : Option Text :=
  longestFrontOf [p] t

/-- The longest end part of a text that a pattern matches. -/
def longestEnd (p : Pattern) (t : Text) : Option Text :=
  (p.reverse.longestFront t.reverse).map List.reverse

/-! ## What is found -/

/-- `front` is the longest front part of `t` that one of the patterns matches. -/
structure IsLongestFront (ps : List Pattern) (t front : Text) : Prop where
  isFront : front <+: t
  matches_front : AnyMatches ps front
  longest : ∀ other, other <+: t → AnyMatches ps other → other.length ≤ front.length

theorem longestFrontOf_spec (ps : List Pattern) (t : Text) :
    match longestFrontOf ps t with
    | some front => IsLongestFront ps t front
    | none => ∀ front, front <+: t → ¬ AnyMatches ps front := by
  induction t generalizing ps with
  | nil =>
    rw [longestFrontOf]
    by_cases h : ps.any nullable = true
    · rw [if_pos h]
      exact ⟨List.nil_prefix, (any_nullable_iff ps).1 h, fun other ho _ => by
        simp [List.prefix_nil.1 ho]⟩
    · rw [if_neg h]
      intro front hf hm
      rw [List.prefix_nil.1 hf] at hm
      exact h ((any_nullable_iff ps).2 hm)
  | cons c t ih =>
    have hstop : (∀ front, front <+: t → ¬ AnyMatches ps (c :: front)) →
        match (if ps.any nullable = true then some [] else none) with
        | some front => IsLongestFront ps (c :: t) front
        | none => ∀ front, front <+: c :: t → ¬ AnyMatches ps front := by
      intro hno
      by_cases h : ps.any nullable = true
      · rw [if_pos h]
        refine ⟨List.nil_prefix, (any_nullable_iff ps).1 h, fun other ho hm => ?_⟩
        rcases List.prefix_cons_iff.1 ho with rfl | ⟨rest, rfl, hrest⟩
        · simp
        · exact absurd hm (hno rest hrest)
      · rw [if_neg h]
        intro front hf hm
        rcases List.prefix_cons_iff.1 hf with rfl | ⟨rest, rfl, hrest⟩
        · exact h ((any_nullable_iff ps).2 hm)
        · exact hno rest hrest hm
    have hnext := ih (derivativesAll c ps)
    simp only [longestFrontOf]
    cases hd : derivativesAll c ps with
    | nil =>
      refine hstop fun front _ hm => ?_
      rw [← anyMatches_derivativesAll, hd] at hm
      simp [AnyMatches] at hm
    | cons q qs =>
      rw [hd] at hnext
      simp only
      cases hl : longestFrontOf (q :: qs) t with
      | none =>
        rw [hl] at hnext
        refine hstop fun front hf hm => hnext front hf ?_
        rwa [← hd, anyMatches_derivativesAll]
      | some front =>
        rw [hl] at hnext
        refine ⟨(List.prefix_cons_inj c).2 hnext.isFront, ?_, fun other ho hm => ?_⟩
        · rw [← anyMatches_derivativesAll, hd]
          exact hnext.matches_front
        · rcases List.prefix_cons_iff.1 ho with rfl | ⟨rest, rfl, hrest⟩
          · simp
          · have := hnext.longest rest hrest (by rwa [← hd, anyMatches_derivativesAll])
            simpa using this

/-- The end part found is one that the pattern matches, and no longer one is. -/
theorem longestEnd_eq_some {p : Pattern} {t found : Text} (h : p.longestEnd t = some found) :
    found <:+ t ∧ Matches p found ∧
      ∀ other, other <:+ t → Matches p other → other.length ≤ found.length := by
  obtain ⟨front, hfront, rfl⟩ := Option.map_eq_some_iff.1 h
  have hspec := longestFrontOf_spec [p.reverse] t.reverse
  rw [longestFront] at hfront
  rw [hfront] at hspec
  refine ⟨?_, ?_, fun other ho hm => ?_⟩
  · simpa using List.reverse_suffix.2 hspec.isFront
  · have := anyMatches_singleton.1 hspec.matches_front
    rwa [← matches_reverse_iff, List.reverse_reverse]
  · have := hspec.longest other.reverse (List.reverse_prefix.2 ho)
      (anyMatches_singleton.2 (matches_reverse_of_matches hm))
    simpa using this

/-- No end part is found only if the pattern matches none. -/
theorem longestEnd_eq_none {p : Pattern} {t : Text} (h : p.longestEnd t = none) {other : Text}
    (ho : other <:+ t) : ¬ Matches p other := by
  have hspec := longestFrontOf_spec [p.reverse] t.reverse
  rw [longestEnd, Option.map_eq_none_iff, longestFront] at h
  rw [h] at hspec
  exact fun hm => hspec other.reverse (List.reverse_prefix.2 ho)
    (anyMatches_singleton.2 (matches_reverse_of_matches hm))

end DotTarget.Pattern
