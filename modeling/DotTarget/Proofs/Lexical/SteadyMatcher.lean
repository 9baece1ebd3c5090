import DotTarget.Proofs.Lexical.BackwardReading
import DotTarget.Proofs.Lexical.CodeRows

set_option autoImplicit false

/-! # What a matcher keeps from character to character

A matcher carries two counters. `skip` says how many characters of a triple quote are still to be
passed over, and a mode `escape` how many of the backslashes before an escaped quote are still to be
read. Both are set by a look at what stands to the left and count down character by character, so
they hide or invent a bracket unless they agree with the text all the way.

They do. `Matcher.Fed` lists everything that one character can do. A matcher is `Matcher.Steady`
before the unread part of a row if its counters say what stands there, and every character that is
fed keeps it so (`Matcher.Steady.feed`). -/

namespace DotTarget

/-! ## Looking behind -/

theorem escapeRun_cons_of_pos {c : Char} {left : Text} (h : 0 < escapeRun (c :: left)) :
    c = '\\' ∧ escapeRun (c :: left) = escapeRun left + 1 := by
  by_cases hc : c = '\\'
  · subst hc
    exact ⟨rfl, escapeRun_backslash left⟩
  · rw [escapeRun_cons_of_ne hc] at h
    omega

theorem prefix_of_endsTriple {q : Char} {left : Text} (h : endsTriple q left = true) :
    [q, q] <+: left := by
  match left with
  | [] => simp [endsTriple] at h
  | [a] => simp [endsTriple] at h
  | a :: b :: left =>
    simp only [endsTriple, Bool.and_eq_true, decide_eq_true_eq] at h
    rw [h.1.1, h.1.2]
    exact ⟨left, rfl⟩

/-! ## What a character can do -/

namespace Matcher

/-- Outside literals and their triple quotes. -/
def Outside (m : Matcher) : Prop :=
  m.mode = .code ∧ m.skip = 0

/-- What feeding the character `c`, with the characters `left` to its left, makes of a matcher. -/
inductive Fed (m : Matcher) (left : Text) (c : Char) : Matcher × Step → Prop where
  /-- It is passed over as part of a triple quote. -/
  | skipped (hskip : 0 < m.skip) : Fed m left c ({ m with skip := m.skip - 1 }, .more)
  /-- It is the last of a triple quote, which opens a literal or closes one. -/
  | triple {mode : Mode} (hskip : m.skip = 0) (hquote : isQuote c = true)
      (htriple : endsTriple c left = true)
      (hmode : m.mode = .code ∧ mode = .triple c ∨ m.mode = .triple c ∧ mode = .code) :
      Fed m left c ({ m with mode, skip := 2 }, .more)
  /-- It is a closer and begins to wait. -/
  | closer (hout : m.Outside) (hcloser : isCloser c = true) :
      Fed m left c ({ m with pending := c :: m.pending }, .more)
  /-- It is an opener and is paired with the closer that began to wait last. -/
  | opener {closer : Char} {rest : List Char} (hout : m.Outside) (hopener : isOpener c = true)
      (hpending : m.pending = closer :: rest) :
      Fed m left c ({ m with
        pending := rest
        mismatches := m.mismatches + if openerOf? closer = some c then 0 else 1 },
        if rest.isEmpty then .balanced else .more)
  /-- It is an opener that no closer waits for. -/
  | unpaired (hout : m.Outside) (hopener : isOpener c = true) (hpending : m.pending = []) :
      Fed m left c (m, .unbalanced)
  /-- It is the last character of a literal in single quotes. -/
  | enters (hout : m.Outside) (hquote : isQuote c = true) (htriple : endsTriple c left = false) :
      Fed m left c ({ m with mode := .string c }, .more)
  /-- It is the first character of a literal in single quotes. -/
  | leaves (hskip : m.skip = 0) (hmode : m.mode = .string c) (heven : escapeRun left % 2 = 0) :
      Fed m left c ({ m with mode := .code }, .more)
  /-- It is an escaped quote in a literal. -/
  | escaped (hskip : m.skip = 0) (hmode : m.mode = .string c) (hodd : escapeRun left % 2 = 1) :
      Fed m left c ({ m with mode := .escape c (escapeRun left) }, .more)
  /-- It is counted as one of the backslashes that escape a quote. -/
  | counted {quote : Char} {remaining : Nat} (hskip : m.skip = 0)
      (hmode : m.mode = .escape quote remaining) :
      Fed m left c ({ m with
        mode := if remaining ≤ 1 then .string quote else .escape quote (remaining - 1) }, .more)
  /-- It stands in a literal and neither ends it nor is an escaped quote. -/
  | inside {quote : Char} (hskip : m.skip = 0)
      (hmode : m.mode = .string quote ∧ c ≠ quote ∨
        m.mode = .triple quote ∧ ¬(c = quote ∧ endsTriple c left = true)) : Fed m left c (m, .more)
  /-- It is neither a bracket nor a quote. -/
  | plain (hout : m.Outside) (hbracket : isBracket c = false) (hquote : isQuote c = false) :
      Fed m left c (m, .more)

/-- **What a fed character can do.** -/
theorem InRow.fed {m : Matcher} (h : m.InRow) (left : Text) (c : Char) :
    Fed m left c (m.feed left c) := by
  unfold Matcher.feed advance
  split
  · rename_i hskip
    exact .skipped hskip
  · rename_i hnot
    have hskip : m.skip = 0 := Nat.eq_zero_of_not_pos hnot
    split
    · rename_i hmode
      have hout : m.Outside := ⟨hmode, hskip⟩
      unfold Matcher.feedCode
      split
      · rename_i hcloser
        exact .closer hout hcloser
      · rename_i hcloser
        split
        · rename_i hopener
          unfold feedOpener
          split
          · rename_i hpending
            exact .unpaired hout hopener hpending
          · rename_i closer rest hpending
            exact .opener hout hopener hpending
        · rename_i hopener
          split
          · rename_i hquote
            split
            · rename_i htriple
              exact .triple hskip hquote htriple (.inl ⟨hmode, rfl⟩)
            · rename_i htriple
              exact .enters hout hquote (by simpa using htriple)
          · rename_i hquote
            exact .plain hout (by simp [isBracket, hcloser, hopener]) (by simpa using hquote)
    · rename_i quote hmode
      split
      · rename_i htriple
        simp only [Bool.and_eq_true, decide_eq_true_eq] at htriple
        obtain ⟨rfl, htriple⟩ := htriple
        exact .triple hskip (h c hmode) htriple (.inr ⟨hmode, rfl⟩)
      · rename_i htriple
        exact .inside hskip (.inr ⟨hmode, by simpa using htriple⟩)
    · rename_i quote hmode
      split
      · rename_i hc
        subst hc
        by_cases hodd : escapeRun left % 2 = 1
        · rw [if_pos hodd]
          exact .escaped hskip hmode hodd
        · rw [if_neg hodd]
          exact .leaves hskip hmode (by omega)
      · rename_i hc
        exact .inside hskip (.inl ⟨hmode, hc⟩)
    · rename_i quote remaining hmode
      exact .counted hskip hmode

/-- A character makes at most one closer more or less wait, and only outside literals. -/
theorem Fed.depth_change {m : Matcher} {left : Text} {c : Char} {fed : Matcher × Step}
    (h : Fed m left c fed) :
    fed.1.depth ≤ m.depth + 1 ∧ m.depth ≤ fed.1.depth + 1 ∧
      (fed.1.depth ≠ m.depth → m.Outside) := by
  cases h with
  | closer hout hcloser =>
    exact ⟨Nat.le_refl _, Nat.le_add_right m.depth 2, fun _ => hout⟩
  | @opener closer rest hout hopener hpending =>
    have hdepth : m.depth = rest.length + 1 := by simp [depth, hpending]
    rw [hdepth]
    exact ⟨Nat.le_add_right rest.length 2, Nat.le_refl _, fun _ => hout⟩
  | _ => exact ⟨Nat.le_succ _, Nat.le_succ _, fun hne => absurd rfl hne⟩

/-! ## What a matcher keeps -/

/-- A matcher in a row, of which the characters `left` are not read yet, nearest first. -/
structure Steady (m : Matcher) (left : Text) : Prop where
  inRow : m.InRow
  isCloser_pending : ∀ c ∈ m.pending, isCloser c = true
  /-- The counted backslashes are those that stand next. -/
  escape_eq : ∀ q n, m.mode = .escape q n → m.skip = 0 ∧ 0 < n ∧ n = escapeRun left
  /-- What is still to be passed over of a triple quote stands next. -/
  skip_quotes : ∃ q, isQuote q = true ∧ List.replicate m.skip q <+: left

namespace Steady

variable {m : Matcher} {left : Text}

/-- While no triple quote is passed over, only an escape has to be counted right. -/
theorem of_skip_eq (hinRow : m.InRow) (hpending : ∀ c ∈ m.pending, isCloser c = true)
    (hskip : m.skip = 0) (hmode : ∀ q n, m.mode = .escape q n → 0 < n ∧ n = escapeRun left) :
    m.Steady left where
  inRow := hinRow
  isCloser_pending := hpending
  escape_eq q n h := ⟨hskip, hmode q n h⟩
  skip_quotes := ⟨'"', rfl, by simp [hskip]⟩

/-- **Every character keeps a matcher steady.** -/
theorem feed {c : Char} (h : m.Steady (c :: left)) : (m.feed left c).1.Steady left := by
  have hinRow := h.inRow.feed left c
  have hfed := h.inRow.fed left c
  have hpending := h.isCloser_pending
  generalize m.feed left c = fed at hinRow hfed ⊢
  cases hfed with
  | skipped hskip =>
    refine ⟨hinRow, hpending, ?_, ?_⟩
    · intro q n hmode
      have := (h.escape_eq q n hmode).1
      omega
    · obtain ⟨q, hquote, hprefix⟩ := h.skip_quotes
      obtain ⟨k, hk⟩ := Nat.exists_eq_succ_of_ne_zero (Nat.ne_of_gt hskip)
      rw [hk, List.replicate_succ, List.cons_prefix_cons] at hprefix
      exact ⟨q, hquote, by simpa [hk] using hprefix.2⟩
  | triple hskip hquote htriple hmode =>
    refine ⟨hinRow, hpending, ?_, c, hquote, prefix_of_endsTriple htriple⟩
    intro q n hescape
    rcases hmode with ⟨-, rfl⟩ | ⟨-, rfl⟩ <;> simp at hescape
  | closer hout hcloser =>
    refine of_skip_eq hinRow ?_ hout.2 (by simp [hout.1])
    intro d hd
    rcases List.mem_cons.1 hd with rfl | hd
    · exact hcloser
    · exact hpending d hd
  | opener hout hopener hcons =>
    refine of_skip_eq hinRow ?_ hout.2 (by simp [hout.1])
    intro d hd
    exact hpending d (by rw [hcons]; exact List.mem_cons_of_mem _ hd)
  | unpaired hout | plain hout => exact of_skip_eq hinRow hpending hout.2 (by simp [hout.1])
  | enters hout => exact of_skip_eq hinRow hpending hout.2 (by simp)
  | leaves hskip => exact of_skip_eq hinRow hpending hskip (by simp)
  | escaped hskip hmode hodd =>
    refine of_skip_eq hinRow hpending hskip ?_
    intro q n hescape
    obtain ⟨rfl, rfl⟩ := Mode.escape.inj hescape
    exact ⟨by omega, rfl⟩
  | @counted quote remaining hskip hmode =>
    obtain ⟨-, hpos, hrun⟩ := h.escape_eq _ _ hmode
    have hnext := (escapeRun_cons_of_pos (hrun ▸ hpos)).2
    refine of_skip_eq hinRow hpending hskip ?_
    intro q n hescape
    dsimp only at hescape
    split at hescape
    · simp at hescape
    · obtain ⟨rfl, rfl⟩ := Mode.escape.inj hescape
      omega
  | inside hskip hmode =>
    refine of_skip_eq hinRow hpending hskip ?_
    intro q n hescape
    rcases hmode with ⟨hmode, -⟩ | ⟨hmode, -⟩ <;> simp [hmode] at hescape

/-- At the start of a row nothing is to be passed over. -/
theorem of_betweenRows (h : m.BetweenRows) (hpending : ∀ c ∈ m.pending, isCloser c = true)
    (left : Text) : m.Steady left := by
  refine of_skip_eq h.inRow hpending h.skip_eq ?_
  intro q n hescape
  rcases h.mode_eq with hmode | ⟨quote, hmode⟩ <;> simp [hmode] at hescape

/-- What is passed over as part of a triple quote is a quote. -/
theorem isQuote_of_skip {c : Char} (h : m.Steady (c :: left)) (hskip : 0 < m.skip) :
    isQuote c = true := by
  obtain ⟨q, hquote, hprefix⟩ := h.skip_quotes
  obtain ⟨k, hk⟩ := Nat.exists_eq_succ_of_ne_zero (Nat.ne_of_gt hskip)
  rw [hk, List.replicate_succ, List.cons_prefix_cons] at hprefix
  exact hprefix.1 ▸ hquote

/-- What is counted as an escape is a backslash. -/
theorem eq_backslash_of_escape {c : Char} (h : m.Steady (c :: left)) {q : Char} {n : Nat}
    (hmode : m.mode = .escape q n) : c = '\\' := by
  obtain ⟨-, hpos, hrun⟩ := h.escape_eq q n hmode
  exact (escapeRun_cons_of_pos (hrun ▸ hpos)).1

/-- **A bracket acts on the waiting closers, or stands in a literal.** -/
theorem bracket_cases {c : Char} (h : m.Steady (c :: left)) (hbracket : isBracket c = true) :
    m.skip = 0 ∧
      ((m.mode = .code ∧
          ((m.feed left c).1.depth ≠ m.depth ∨ (m.feed left c).2 = .unbalanced)) ∨
        ∃ quote, m.mode = .string quote ∨ m.mode = .triple quote) := by
  have hquote := (Lexeme.isQuote_of_isBracket hbracket).1
  have hskip : m.skip = 0 := by
    by_contra hne
    rw [h.isQuote_of_skip (Nat.pos_of_ne_zero hne)] at hquote
    exact Bool.noConfusion hquote
  have hfed := h.inRow.fed left c
  refine ⟨hskip, ?_⟩
  generalize m.feed left c = fed at hfed ⊢
  cases hfed with
  | closer hout hcloser => exact .inl ⟨hout.1, .inl (by simp [depth])⟩
  | opener hout hopener hpending => exact .inl ⟨hout.1, .inl (by simp [depth, hpending])⟩
  | unpaired hout => exact .inl ⟨hout.1, .inr rfl⟩
  | leaves hskip hmode | escaped hskip hmode => exact .inr ⟨c, .inl hmode⟩
  | inside hskip hmode => exact .inr ⟨_, hmode.imp And.left And.left⟩
  | skipped hpos => omega
  | triple hskip hc | enters hout hc => simp [hc] at hquote
  | counted hskip hmode =>
    rw [h.eq_backslash_of_escape hmode] at hbracket
    exact absurd hbracket (by decide)
  | plain hout hc => simp [hc] at hbracket

end Steady

end Matcher

end DotTarget
