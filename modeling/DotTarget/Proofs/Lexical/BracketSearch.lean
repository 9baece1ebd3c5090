import DotTarget.Proofs.Lexical.BackwardReading

set_option autoImplicit false

/-! # The opener of a closing bracket

On a well-lexed document the search for the opener of a closing bracket can be told without any
reading backward. Of the brackets that forward lexing finds, take the shortest end part that holds
as many openers as closers: the search gives the place of its first bracket, and nothing when there
is no such end part (`findOpener_iff_isShortestBalanced`). Kinds play no role in it. -/

namespace DotTarget

/-- The brackets of a stream outside literals and comments, with their places, from the first to
the last. -/
def brackets (s : List Lexeme) : List (Position × Char) :=
  (layout s).brackets.reverse

def openers (t : List (Position × Char)) : Nat :=
  t.countP fun b => isOpener b.2

def closers (t : List (Position × Char)) : Nat :=
  t.countP fun b => isCloser b.2

/-- As many openers as closers, of whatever kinds and in whatever order. -/
def Balanced (t : List (Position × Char)) : Prop :=
  openers t = closers t

/-- Of the non-empty end parts of `t` that are balanced, `u` is the shortest. -/
structure IsShortestBalanced (t u : List (Position × Char)) : Prop where
  suffix : u <:+ t
  ne_nil : u ≠ []
  balanced : Balanced u
  shortest : ∀ v, v <:+ t → v ≠ [] → Balanced v → u.length ≤ v.length

theorem IsShortestBalanced.unique {t u v : List (Position × Char)} (hu : IsShortestBalanced t u)
    (hv : IsShortestBalanced t v) : u = v := by
  have huv := hu.shortest v hv.suffix hv.ne_nil hv.balanced
  have hvu := hv.shortest u hu.suffix hu.ne_nil hu.balanced
  exact (List.suffix_of_suffix_length_le hu.suffix hv.suffix huv).eq_of_length (by omega)

section Counts

variable (b : Position × Char) (t : List (Position × Char))

theorem openers_cons : openers (b :: t) = openers t + if isOpener b.2 then 1 else 0 := by
  simp [openers, List.countP_cons]

theorem closers_cons : closers (b :: t) = closers t + if isCloser b.2 then 1 else 0 := by
  simp [closers, List.countP_cons]

theorem balanced_reverse : Balanced t.reverse ↔ Balanced t := by
  simp [Balanced, openers, closers]

variable {b}

theorem counts_cons_of_isCloser (h : isCloser b.2 = true) :
    openers (b :: t) = openers t ∧ closers (b :: t) = closers t + 1 := by
  simp [openers_cons, closers_cons, h, isOpener_of_isCloser h]

theorem counts_cons_of_isOpener (h : isOpener b.2 = true) :
    openers (b :: t) = openers t + 1 ∧ closers (b :: t) = closers t := by
  simp [openers_cons, closers_cons, h, isCloser_of_isOpener h]

end Counts

/-- Only brackets are listed as such. -/
theorem isBracket_of_mem_layout {s : List Lexeme} :
    ∀ b ∈ (layout s).brackets, isBracket b.2 = true := by
  induction s using List.reverseRecOn with
  | nil => simp [layout]
  | append_singleton s l ih =>
    cases l with
    | bracket c hc => simpa [Layout.push, hc] using ih
    | plain c hc => simpa [Layout.push] using ih
    | literal l => simpa [Layout.push] using ih
    | rowEnd comment => simpa [Layout.push] using ih

namespace Matcher

/-- One bracket while closers are pending. The search ends at an opener that takes the last of
them; else it goes on with one more or one less. -/
theorem pair_cons_cases {pending : List Char} (hpos : 0 < pending.length) (n : Nat)
    {b : Position × Char} (hb : isBracket b.2 = true) (above : List (Position × Char)) :
    (pending.length = 1 ∧ isOpener b.2 = true ∧
      (pair .balanced ⟨.code, pending, n, 0⟩ (b :: above)).2 = some b.1) ∨
    ∃ pending' n', 0 < pending'.length ∧
      (∀ t, openers (b :: t) + closers t + pending'.length =
        openers t + closers (b :: t) + pending.length) ∧
      (pair .balanced ⟨.code, pending, n, 0⟩ (b :: above)).2 =
        (pair .balanced ⟨.code, pending', n', 0⟩ above).2 := by
  obtain ⟨place, c⟩ := b
  simp only [isBracket, Bool.or_eq_true] at hb
  rcases hb with hopener | hcloser
  · cases pending with
    | nil => simp at hpos
    | cons closer rest =>
      have hfeed := feedCode_opener hopener closer rest n
      cases rest with
      | nil => exact .inl ⟨rfl, hopener, by simp [pair, hfeed]⟩
      | cons next rest =>
        refine .inr ⟨next :: rest, n + if openerOf? closer = some c then 0 else 1, by simp,
          fun t => ?_, by simp [pair, hfeed]⟩
        obtain ⟨hmore, hsame⟩ := counts_cons_of_isOpener t (b := (place, c)) hopener
        simp only [hmore, hsame, List.length_cons]
        omega
  · refine .inr ⟨c :: pending, n, by simp, fun t => ?_, by simp [pair, feedCode_closer hcloser]⟩
    obtain ⟨hsame, hmore⟩ := counts_cons_of_isCloser t (b := (place, c)) hcloser
    simp only [hmore, hsame, List.length_cons]
    omega

/-- Where a search ends while closers are pending: at the first opener by which there are as many
openers as closers, counting the pending ones, or nowhere. -/
theorem pair_outcome {t : List (Position × Char)} (ht : ∀ b ∈ t, isBracket b.2 = true)
    (pending : List Char) (hpos : 0 < pending.length) (n : Nat) :
    (∃ front b back, (pair .balanced ⟨.code, pending, n, 0⟩ t).2 = some b.1 ∧
      t = front ++ b :: back ∧
      openers (front ++ [b]) = pending.length + closers (front ++ [b]) ∧
      ∀ u, u <+: front → openers u < pending.length + closers u) ∨
    ((pair .balanced ⟨.code, pending, n, 0⟩ t).2 = none ∧
      ∀ u, u <+: t → openers u < pending.length + closers u) := by
  induction t generalizing pending n with
  | nil =>
    refine .inr ⟨rfl, fun u hu => ?_⟩
    rw [List.prefix_nil.1 hu]
    simpa [openers, closers] using hpos
  | cons b above ih =>
    have habove : ∀ b ∈ above, isBracket b.2 = true := fun d hd => ht d (List.mem_cons_of_mem _ hd)
    rcases pair_cons_cases hpos n (ht b List.mem_cons_self) above with
      ⟨hone, hopener, hpair⟩ | ⟨pending', n', hpos', hcount, hpair⟩
    · refine .inl ⟨[], b, above, hpair, rfl, ?_, fun u hu => ?_⟩
      · obtain ⟨hmore, hsame⟩ := counts_cons_of_isOpener [] hopener
        simp only [List.nil_append, hmore, hsame, hone]
        simp [openers, closers]
      · rw [List.prefix_nil.1 hu]
        simpa [openers, closers] using hpos
    · -- The pending closers and the counts change alike.
      have hstrict : ∀ u v, u <+: b :: v →
          (∀ w, w <+: v → openers w < pending'.length + closers w) →
          openers u < pending.length + closers u := by
        intro u v hu hv
        rcases List.prefix_cons_iff.1 hu with rfl | ⟨w, rfl, hw⟩
        · simpa [openers, closers] using hpos
        · have := hv w hw
          have := hcount w
          omega
      rw [hpair]
      rcases ih habove pending' hpos' n' with
        ⟨front, d, back, hsome, rfl, heq, hfront⟩ | ⟨hnone, hall⟩
      · refine .inl ⟨b :: front, d, back, hsome, rfl, ?_, fun u hu => hstrict u front hu hfront⟩
        have := hcount (front ++ [d])
        rw [List.cons_append]
        omega
      · exact .inr ⟨hnone, fun u hu => hstrict u above hu hall⟩

end Matcher

theorem findOpener_opener_eq {lines : List Text} {place : Position} {s : List Lexeme}
    (h : IsLexing lines place s) :
    (findOpener lines place).opener = (Matcher.initial.pair .balanced (layout s).brackets).2 := by
  rw [findOpener, h.upward_eq]
  exact congrArg Prod.snd (Matcher.seek_eq_pair (by decide) h.wellLexed [] 0)

/-- The two outcomes of the search behind a closer. -/
theorem findOpener_outcome {lines : List Text} {place : Position} {s : List Lexeme} {c : Char}
    {hc : isBracket c = true} (h : IsLexing lines place (s ++ [.bracket c hc]))
    (hcloser : isCloser c = true) :
    (∃ p o rest, (findOpener lines place).opener = some p ∧
      IsShortestBalanced (brackets (s ++ [.bracket c hc])) ((p, o) :: rest)) ∨
    ((findOpener lines place).opener = none ∧
      ∀ u, u <:+ brackets (s ++ [.bracket c hc]) → u ≠ [] → ¬ Balanced u) := by
  have hbrackets : (layout (s ++ [.bracket c hc])).brackets =
      ((layout s).place, c) :: (layout s).brackets := by
    simp [Layout.push]
  have hpair : (findOpener lines place).opener =
      (Matcher.pair .balanced ⟨.code, [c], 0, 0⟩ (layout s).brackets).2 := by
    rw [findOpener_opener_eq h, hbrackets]
    simp [Matcher.pair, Matcher.initial, Matcher.feedCode_closer hcloser]
  -- An end part of the brackets, read backward, starts with the closer itself.
  have hsuffix : ∀ u, u <:+ brackets (s ++ [.bracket c hc]) → u ≠ [] → Balanced u →
      ∃ v, u.reverse = ((layout s).place, c) :: v ∧ v <+: (layout s).brackets ∧
        openers v = 1 + closers v := by
    intro u hu hne hbalanced
    rw [brackets, hbrackets, ← List.reverse_prefix, List.reverse_reverse] at hu
    rcases List.prefix_cons_iff.1 hu with hnil | ⟨v, hv, hpart⟩
    · exact absurd (List.reverse_eq_nil_iff.1 hnil) hne
    · refine ⟨v, hv, hpart, ?_⟩
      rw [← balanced_reverse, hv, Balanced] at hbalanced
      obtain ⟨hsame, hmore⟩ := counts_cons_of_isCloser v (b := ((layout s).place, c)) hcloser
      omega
  rw [hpair]
  rcases Matcher.pair_outcome isBracket_of_mem_layout [c] (by simp) 0 with
    ⟨front, b, back, hsome, hsplit, hcount, hfront⟩ | ⟨hnone, hall⟩
  · have hreverse : (b :: (((layout s).place, c) :: front).reverse).reverse =
        ((layout s).place, c) :: (front ++ [b]) := by
      simp
    refine .inl ⟨b.1, b.2, (((layout s).place, c) :: front).reverse, hsome, ?_, by simp, ?_, ?_⟩
    · rw [brackets, hbrackets, ← List.reverse_prefix, List.reverse_reverse, hreverse, hsplit,
        List.prefix_cons_inj]
      exact ⟨back, by simp⟩
    · obtain ⟨hsame, hmore⟩ :=
        counts_cons_of_isCloser (front ++ [b]) (b := ((layout s).place, c)) hcloser
      rw [← balanced_reverse, hreverse, Balanced, hsame, hmore, hcount, List.length_singleton,
        Nat.add_comm]
    · intro v hv hne hbalanced
      obtain ⟨w, hw, hpart, hcounts⟩ := hsuffix v hv hne hbalanced
      -- Before the opener found there are too few openers, so a balanced part reaches further.
      have hlonger : front.length < w.length := by
        by_contra hle
        have hshort : w <+: front :=
          List.prefix_of_prefix_length_le hpart ⟨b :: back, hsplit.symm⟩ (by omega)
        have := hfront w hshort
        simp only [List.length_singleton] at this
        omega
      have hlength := congrArg List.length hw
      simp only [List.length_reverse, List.length_cons] at hlength ⊢
      omega
  · refine .inr ⟨hnone, fun u hu hne hbalanced => ?_⟩
    obtain ⟨v, -, hpart, hv⟩ := hsuffix u hu hne hbalanced
    have := hall v hpart
    simp only [List.length_singleton] at this
    omega

/-- **The opener of a closing bracket.** Behind a closer of a well-lexed document the search gives
the place where the shortest balanced end part of the brackets starts, and nothing if no end part
is balanced. -/
theorem findOpener_iff_isShortestBalanced {lines : List Text} {place : Position} {s : List Lexeme}
    {c : Char} {hc : isBracket c = true} (h : IsLexing lines place (s ++ [.bracket c hc]))
    (hcloser : isCloser c = true) :
    (∀ p, (findOpener lines place).opener = some p ↔
      ∃ o rest, IsShortestBalanced (brackets (s ++ [.bracket c hc])) ((p, o) :: rest)) ∧
    ((findOpener lines place).opener = none ↔
      ∀ u, u <:+ brackets (s ++ [.bracket c hc]) → u ≠ [] → ¬ Balanced u) := by
  rcases findOpener_outcome h hcloser with ⟨p, o, rest, hsome, hshortest⟩ | ⟨hnone, hall⟩
  · refine ⟨fun p' => ⟨fun hp' => ?_, ?_⟩, fun hnone => ?_, fun hall => ?_⟩
    · obtain rfl := Option.some.inj (hsome.symm.trans hp')
      exact ⟨o, rest, hshortest⟩
    · rintro ⟨o', rest', hshortest'⟩
      have heq := hshortest.unique hshortest'
      simp only [List.cons.injEq, Prod.mk.injEq] at heq
      rw [hsome, heq.1.1]
    · rw [hsome] at hnone
      exact absurd hnone (by simp)
    · exact absurd hshortest.balanced (hall _ hshortest.suffix hshortest.ne_nil)
  · refine ⟨fun p => ⟨fun hp => ?_, ?_⟩, fun _ => hall, fun _ => hnone⟩
    · rw [hnone] at hp
      exact absurd hp (by simp)
    · rintro ⟨o, rest, hshortest⟩
      exact absurd hshortest.balanced (hall _ hshortest.suffix hshortest.ne_nil)

/-! ## A search past literals and a comment -/

/-- Two rows with brackets in two literals and in a comment. -/
def sampleLines : List Text :=
  ["f(\"\\\")\", # ]".toList, "'''('''[0])".toList]

/-- The literal that holds an escaped quote and a closer. -/
def sampleShort : Literal where
  quote := '"'
  long := false
  body := [.escape '"', .char ')']
  quote_isQuote := rfl
  bare_ne_backslash := by decide
  short_body := by decide
  long_body := by decide

/-- The literal that holds an opener. -/
def sampleLong : Literal where
  quote := '\''
  long := true
  body := [.char '(']
  quote_isQuote := rfl
  bare_ne_backslash := by decide
  short_body := by decide
  long_body := by decide

/-- What stands between the outer brackets of these rows. -/
def sampleInner : List Lexeme :=
  [.literal sampleShort, .plain ',' rfl, .plain ' ' rfl, .rowEnd (some " ]".toList),
   .literal sampleLong, .bracket '[' rfl, .plain '0' rfl, .bracket ']' rfl]

/-- The stream of these rows up to the last bracket. -/
def sampleStream : List Lexeme :=
  .plain 'f' rfl :: .bracket '(' rfl :: sampleInner

theorem isLexing_sample : IsLexing sampleLines ⟨1, 11⟩ (sampleStream ++ [.bracket ')' rfl]) where
  wellLexed := by simp [WellLexed, sampleStream, sampleInner, Lexeme.MayTouch]
  above_eq := by decide
  row_eq := ⟨_, rfl, by decide⟩

theorem findOpener_sample :
    (findOpener sampleLines ⟨1, 11⟩).opener = some ⟨0, 1⟩ ∧
    ∃ o rest, IsShortestBalanced (brackets (sampleStream ++ [.bracket ')' rfl]))
      ((⟨0, 1⟩, o) :: rest) := by
  have hopener : (findOpener sampleLines ⟨1, 11⟩).opener = some ⟨0, 1⟩ := by decide
  exact ⟨hopener, ((findOpener_iff_isShortestBalanced isLexing_sample rfl).1 ⟨0, 1⟩).1 hopener⟩

end DotTarget
