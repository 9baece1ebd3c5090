import DotTarget.Proofs.Lexical.GroupCloser

set_option autoImplicit false

/-! # What the mismatches of a scan count

A scan searches for an opener wherever a closing bracket stands right before a place that it comes
to (`Scan.searches`). A search that finds one makes the scan take the group, and all that it paired
stands in the span of the scan. A search that finds none ends the scan, and what it paired stands
before the span; still the scan counts the mismatches of this search, too (`scan_counts_pairs`). So
the count is that of the pairs in the span if and only if the failing search, if there is one, has
paired no brackets of different kinds. -/

namespace DotTarget

namespace Scan

/-- The places where a walk searches for an opener: those with a closing bracket right before
them. -/
def searches (lines : List Text) : Nat → Position → List Position
  | 0, _ => []
  | cap + 1, place =>
    let here := if (closerBefore? lines place).isSome then [place] else []
    if (step lines place).1 = place then here
    else here ++ searches lines cap (step lines place).1

/-- What the searches from the given places did that found an opener. -/
def accepted (lines : List Text) (places : List Position) : List BracketEvent :=
  (places.filter fun p => (findOpener lines p).opener.isSome).flatMap (bracketEvents lines)

/-- What the searches from the given places did that found no opener. -/
def refused (lines : List Text) (places : List Position) : List BracketEvent :=
  (places.filter fun p => (findOpener lines p).opener.isNone).flatMap (bracketEvents lines)

section Searches

variable {lines : List Text} {place opener : Position}

@[simp] theorem accepted_nil (lines : List Text) : accepted lines [] = [] := rfl

@[simp] theorem refused_nil (lines : List Text) : refused lines [] = [] := rfl

theorem accepted_cons_of_some (h : (findOpener lines place).opener = some opener)
    (places : List Position) :
    accepted lines (place :: places) = bracketEvents lines place ++ accepted lines places := by
  simp [accepted, h]

theorem accepted_cons_of_none (h : (findOpener lines place).opener = none)
    (places : List Position) : accepted lines (place :: places) = accepted lines places := by
  simp [accepted, h]

theorem refused_cons_of_some (h : (findOpener lines place).opener = some opener)
    (places : List Position) : refused lines (place :: places) = refused lines places := by
  simp [refused, h]

theorem refused_cons_of_none (h : (findOpener lines place).opener = none)
    (places : List Position) :
    refused lines (place :: places) = bracketEvents lines place ++ refused lines places := by
  simp [refused, h]

theorem mem_refused {e : BracketEvent} {places : List Position} (h : e ∈ refused lines places) :
    ∃ p ∈ places, (findOpener lines p).opener = none ∧ e ∈ bracketEvents lines p := by
  obtain ⟨p, hp, he⟩ := List.mem_flatMap.1 h
  obtain ⟨hmem, hnone⟩ := List.mem_filter.1 hp
  exact ⟨p, hmem, by simpa using hnone, he⟩

/-- Without a closing bracket before its place a step counts nothing. -/
theorem step_of_closerBefore?_eq_none (h : closerBefore? lines place = none) :
    (step lines place).2 = 0 := by
  unfold step
  split
  · rfl
  · rename_i line hline
    dsimp only
    split
    · rfl
    · rename_i c hlast
      have hcloser : ¬ isCloser c = true := by
        intro hcloser
        simp [closerBefore?, hline, hlast, hcloser] at h
      rw [if_neg hcloser]
      split
      · rfl
      · split <;> rfl

end Searches

/-! ## What a walk has counted -/

/-- The brackets that were paired by a walk from `place` to `w` which searches from the given
places. -/
structure Account (lines : List Text) (place : Position) (w : Walk) (places : List Position) :
    Prop where
  mismatches_eq : w.mismatches = (accepted lines places).countP BracketEvent.isMismatch +
    (refused lines places).countP BracketEvent.isMismatch
  /-- What was accepted stands where the walk has passed. -/
  pairedWithin : ∀ opener closer, .pairs opener closer ∈ accepted lines places →
    PairedWithin lines ⟨w.start, place⟩ opener closer
  openers_le : (accepted lines places).countP BracketEvent.isMismatch +
    openersBefore lines w.start ≤ openersBefore lines place
  accepted_eq_nil : w.start = place → accepted lines places = []
  /-- A search that fails ends the walk where it is. -/
  refused_at : ∀ p ∈ places, (findOpener lines p).opener = none → w.converged = true ∧ p = w.start
  /-- No bracket is seen twice. -/
  ordered : (places.flatMap (bracketEvents lines)).Pairwise fun earlier later =>
    later.bracket.place < earlier.bracket.place
  before : ∀ e ∈ places.flatMap (bracketEvents lines), e.bracket.place < place

namespace Account

variable {lines : List Text} {place next : Position} {w : Walk} {places : List Position}

/-- A walk that counts nothing and does not move. -/
theorem nil (hstart : w.start = place) (hmismatches : w.mismatches = 0) :
    Account lines place w [] where
  mismatches_eq := hmismatches
  pairedWithin := by simp
  openers_le := by simp [hstart]
  accepted_eq_nil _ := rfl
  refused_at := by simp
  ordered := .nil
  before := by simp

/-- A walk whose first search fails ends there. -/
theorem unmatched (h : (findOpener lines place).opener = none) :
    Account lines place ⟨place, 1, (findOpener lines place).mismatches, true⟩ [place] where
  mismatches_eq := by
    rw [accepted_cons_of_none h, refused_cons_of_none h, findOpener_eq_search]
    simp
  pairedWithin := by simp [accepted_cons_of_none h]
  openers_le := by simp [accepted_cons_of_none h]
  accepted_eq_nil _ := accepted_cons_of_none h []
  refused_at := by simp
  ordered := by simpa using pairwise_bracketEvents lines place
  before := by simpa using fun e he => (standsIn_of_mem_bracketEvents he).2

/-- A step that counts nothing before a walk. -/
theorem passed (h : Account lines next w places) (hnext : next < place) (hle : w.start ≤ next)
    (iterations : Nat) :
    Account lines place ⟨w.start, iterations, 0 + w.mismatches, w.converged⟩ places where
  mismatches_eq := (Nat.zero_add _).trans h.mismatches_eq
  pairedWithin opener closer hmem :=
    (h.pairedWithin opener closer hmem).mono (Position.le_refl _)
      (Position.le_of_lt hnext)
  openers_le := Nat.le_trans h.openers_le
    (openersBefore_mono (Position.le_of_lt hnext))
  accepted_eq_nil hstart := absurd (hstart ▸ hle) (Position.lt_iff_not_le.1 hnext)
  refused_at := h.refused_at
  ordered := h.ordered
  before e he := Position.lt_trans (h.before e he) hnext

/-- A step over a group before a walk. -/
theorem group (h : Account lines next w places)
    (hopener : (findOpener lines place).opener = some next) (hle : w.start ≤ next)
    (iterations : Nat) :
    Account lines place ⟨w.start, iterations, (findOpener lines place).mismatches + w.mismatches,
      w.converged⟩ (place :: places) := by
  have hnext : next < place := findOpener_lt hopener
  have hfound : (findOpener lines place).mismatches =
      (bracketEvents lines place).countP BracketEvent.isMismatch := by
    rw [findOpener_eq_search]
  constructor
  case mismatches_eq =>
    have hrest := h.mismatches_eq
    rw [accepted_cons_of_some hopener, refused_cons_of_some hopener, List.countP_append, hfound]
    dsimp only
    omega
  case pairedWithin =>
    intro opener closer hmem
    rw [accepted_cons_of_some hopener] at hmem
    rcases List.mem_append.1 hmem with hmem | hmem
    · exact (pairedWithin_of_found hopener hmem).mono hle (Position.le_refl _)
    · exact (h.pairedWithin opener closer hmem).mono (Position.le_refl _) (Position.le_of_lt hnext)
  case openers_le =>
    have hgroup := findOpener_mismatches_le lines place
    have hrest := h.openers_le
    rw [hopener, Option.elim_some, hfound] at hgroup
    rw [accepted_cons_of_some hopener, List.countP_append]
    dsimp only
    omega
  case accepted_eq_nil =>
    intro hstart
    exact absurd (hstart ▸ hle) (Position.lt_iff_not_le.1 hnext)
  case refused_at =>
    intro p hp hnone
    rcases List.mem_cons.1 hp with rfl | hp
    · rw [hopener] at hnone
      exact absurd hnone (by simp)
    · exact h.refused_at p hp hnone
  case ordered =>
    -- The search sees nothing beyond the opener, and the later ones start there.
    rw [List.flatMap_cons]
    refine List.pairwise_append.2 ⟨pairwise_bracketEvents lines place, h.ordered, ?_⟩
    intro e he f hf
    exact Position.lt_of_lt_of_le (h.before f hf) (le_of_mem_bracketEvents hopener he)
  case before =>
    intro e he
    rw [List.flatMap_cons] at he
    rcases List.mem_append.1 he with he | he
    · exact (standsIn_of_mem_bracketEvents he).2
    · exact Position.lt_trans (h.before e he) hnext

end Account

/-- **What a walk has counted.** -/
theorem account_of_walk {lines : List Text} {cap : Nat} {place : Position} {w : Walk}
    (h : walk lines cap place = .ok w) : Account lines place w (searches lines cap place) := by
  induction cap generalizing place w with
  | zero =>
    obtain rfl := Except.ok.inj h
    exact .nil rfl rfl
  | succ cap ih =>
    rw [searches]
    rcases walk_succ_cases h with ⟨hstay, rfl⟩ | ⟨hlt, rest, hrest, rfl⟩
    · rw [if_pos hstay]
      cases hcloser : closerBefore? lines place with
      | none => exact .nil rfl (step_of_closerBefore?_eq_none hcloser)
      | some own =>
        have hopener := opener_of_closerBefore? hcloser
        rw [if_pos hstay] at hopener
        rw [step_of_closerBefore? hcloser]
        exact .unmatched hopener
    · obtain ⟨w', hw', hle, -⟩ := walk_eq_ok lines cap (step lines place).1
      obtain rfl := Except.ok.inj (hrest.symm.trans hw')
      rw [if_neg (Position.ne_of_lt hlt)]
      cases hcloser : closerBefore? lines place with
      | none =>
        rw [step_of_closerBefore?_eq_none hcloser]
        exact (ih hrest).passed hlt hle _
      | some own =>
        have hopener := opener_of_closerBefore? hcloser
        rw [if_neg (Position.ne_of_lt hlt)] at hopener
        have hcount : (step lines place).2 = (findOpener lines place).mismatches := by
          rw [step_of_closerBefore? hcloser]
        rw [hcount]
        exact (ih hrest).group hopener hle _

end Scan

/-- **What the mismatches of a scan count.** A scan counts the bracket pairs of different kinds that
its searches have paired, each once: those of the searches that found an opener, which all stand in
the span of the scan, and those of a search that found none. Such a search only happens at the end
of a scan that converges, at the start of the span, and what it paired stands before the span. The
accepted mismatches are at most the opening brackets in the span, and there are none if the span is
empty; so the count is that of the accepted mismatches exactly if the failing search paired no
brackets of different kinds. The count is a natural number, and a counter of 32 bits holds the same
one as long as the document has fewer than `counterLimit` opening brackets
(`checkedScan_eq_scan`). -/
theorem scan_counts_pairs (lines : List Text) (place : Position) (cap : Nat) :
    ∃ outcome, scan lines place cap = .ok outcome ∧
      let places := Scan.searches lines cap outcome.span.stop
      let accepted := Scan.accepted lines places
      let refused := Scan.refused lines places
      outcome.mismatches = accepted.countP BracketEvent.isMismatch +
        refused.countP BracketEvent.isMismatch ∧
      (outcome.mismatches = accepted.countP BracketEvent.isMismatch ↔
        ∀ e ∈ refused, e.isMismatch = false) ∧
      ((places.flatMap (bracketEvents lines)).Pairwise fun earlier later =>
        later.bracket.place < earlier.bracket.place) ∧
      (∀ opener closer, .pairs opener closer ∈ accepted →
        PairedWithin lines outcome.span opener closer) ∧
      accepted.countP BracketEvent.isMismatch + openersBefore lines outcome.span.start ≤
        openersBefore lines outcome.span.stop ∧
      (outcome.span.start = outcome.span.stop → accepted = []) ∧
      (∀ p ∈ places, (findOpener lines p).opener = none →
        outcome.converged = true ∧ p = outcome.span.start) ∧
      (∀ opener closer, .pairs opener closer ∈ refused →
        PairedWithin lines ⟨.origin, outcome.span.start⟩ opener closer) := by
  obtain ⟨w, hw, -⟩ := Scan.walk_eq_ok lines cap (Scan.clamp lines (place.shiftedLeft 1))
  have haccount := Scan.account_of_walk hw
  refine ⟨_, Scan.scan_of_walk hw, haccount.mismatches_eq, ?_, haccount.ordered,
    haccount.pairedWithin, haccount.openers_le, haccount.accepted_eq_nil, haccount.refused_at, ?_⟩
  · dsimp only
    rw [haccount.mismatches_eq, Nat.add_eq_left, List.countP_eq_zero]
    simp only [Bool.not_eq_true]
  · intro opener closer hmem
    obtain ⟨p, hp, hnone, he⟩ := Scan.mem_refused hmem
    obtain ⟨-, rfl⟩ := haccount.refused_at p hp hnone
    exact pairedWithin_of_mem he

/-- A scan that takes nothing counts the pair before a closer without an opener. -/
theorem scan_counts_refused_pair :
    scan ["(]).".toList] ⟨0, 4⟩ 9 = .ok ⟨⟨⟨0, 3⟩, ⟨0, 3⟩⟩, 1, 1, true⟩ ∧
      Scan.accepted ["(]).".toList] (Scan.searches ["(]).".toList] 9 ⟨0, 3⟩) = [] ∧
      .pairs ⟨⟨0, 0⟩, '('⟩ ⟨⟨0, 1⟩, ']'⟩ ∈
        Scan.refused ["(]).".toList] (Scan.searches ["(]).".toList] 9 ⟨0, 3⟩) := by
  decide

end DotTarget
