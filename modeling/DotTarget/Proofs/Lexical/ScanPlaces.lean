import DotTarget.Lexical.Scan
import DotTarget.Proofs.Document.Places
import DotTarget.Proofs.Text.Trimming

set_option autoImplicit false

/-! # Where a scan can lead

Every exit of a scan step computes its position in another way: from the bytes left of an opener,
from the width of an atom, from what remains of a trimmed row. All of them are ends of front parts
of rows that the search has seen, and those are front parts of rows of the document
(`mem_upward`). So a step leads from a place to a place and never to the right
(`step_le_and_isPlace`), and a scan always gives an answer (`scan_eq_ok`). -/

namespace DotTarget

theorem Comment.strip_prefix (row : Text) : Comment.strip row <+: row :=
  Comment.stripFrom_prefix .code row

/-! ## The rows of a search -/

theorem mem_rowsAbove {lines : List Text} {place row : Nat} {text : Text}
    (h : (row, text) ∈ rowsAbove lines place) : row < place ∧ lines[row]? = some text := by
  simp only [rowsAbove, List.mem_reverse, List.mem_map, Prod.mk.injEq, Prod.exists] at h
  obtain ⟨_, _, hmem, rfl, rfl⟩ := h
  have hget := List.mem_zipIdx_iff_getElem?.1 hmem
  rw [List.getElem?_take] at hget
  split at hget
  · exact ⟨by assumption, hget⟩
  · exact absurd hget (by simp)

/-- What a search sees of a row above is a front part of it; of the row it starts in, a front
part of what stands left of the starting place. -/
theorem mem_upward {lines : List Text} {place : Position} {row : Nat} {text : Text}
    (h : (row, text) ∈ upward lines place) :
    ∃ line, lines[row]? = some line ∧ text <+: line ∧
      (row < place.row ∨ row = place.row ∧ text <+: Text.cut line place.column) := by
  unfold upward at h
  split at h
  · exact absurd h List.not_mem_nil
  · rename_i line hline
    rcases List.mem_cons.1 h with h | h
    · obtain ⟨rfl, rfl⟩ := Prod.mk.inj h
      have hcut := Comment.strip_prefix (Text.cut line place.column)
      exact ⟨line, hline, hcut.trans (Text.cut_prefix _ _), .inr ⟨rfl, hcut⟩⟩
    · simp only [List.mem_map, Prod.mk.injEq, Prod.exists] at h
      obtain ⟨number, above, hmem, rfl, rfl⟩ := h
      obtain ⟨hlt, habove⟩ := mem_rowsAbove hmem
      exact ⟨above, habove, Comment.strip_prefix above, .inl hlt⟩

/-- The end of a front part of a row that a search sees is a place, and not right of where the
search started. -/
theorem isPlace_of_mem_upward {lines : List Text} {place : Position} {row : Nat}
    {text front : Text} (h : (row, text) ∈ upward lines place) (hfront : front <+: text) :
    IsPlace lines ⟨row, Text.width front⟩ ∧ (⟨row, Text.width front⟩ : Position) ≤ place := by
  obtain ⟨line, hline, htext, hrow⟩ := mem_upward h
  refine ⟨⟨line, front, hline, hfront.trans htext, rfl⟩, ?_⟩
  rcases hrow with hlt | ⟨heq, hcut⟩
  · exact .inl hlt
  · have hle := Text.width_le_of_prefix (hfront.trans hcut)
    exact .inr ⟨heq, Nat.le_trans hle (Text.width_cut_le _ _)⟩

/-! ## Bracket searches -/

namespace Matcher

theorem seekRow_eq_some {goal : Step} {m m' : Matcher} {reversed : Text} {column : Nat}
    (h : seekRow goal m reversed = (m', some column)) :
    ∃ right c left found, reversed = right ++ c :: left ∧ Text.width left = column ∧
      (feed found left c).2 = goal := by
  induction reversed generalizing m with
  | nil => simp [seekRow] at h
  | cons c left ih =>
    rw [seekRow_cons] at h
    split at h
    · rename_i hgoal
      simp only [Prod.mk.injEq, Option.some.injEq] at h
      exact ⟨[], c, left, m, rfl, h.2, hgoal⟩
    · obtain ⟨right, d, rest, found, rfl, hcol, hgoal⟩ := ih h
      exact ⟨c :: right, d, rest, found, rfl, hcol, hgoal⟩

/-- A search finds a character of a row that it was given, one that does what the search is for. -/
theorem seek_found {goal : Step} {m m' : Matcher} {rows : List (Nat × Text)} {p : Position}
    (h : seek goal m rows = (m', some p)) :
    ∃ front c rest found left, (p.row, front ++ c :: rest) ∈ rows ∧ Text.width front = p.column ∧
      (feed found left c).2 = goal := by
  induction rows generalizing m with
  | nil => simp [seek] at h
  | cons first above ih =>
    obtain ⟨row, text⟩ := first
    rw [seek] at h
    split at h
    · rename_i column hrow
      simp only [Prod.mk.injEq, Option.some.injEq] at h
      obtain ⟨-, rfl⟩ := h
      obtain ⟨right, c, left, found, hrev, hcol, hgoal⟩ := seekRow_eq_some hrow
      have htext : text = left.reverse ++ c :: right.reverse := by
        rw [← List.reverse_reverse text, hrev]
        simp
      refine ⟨left.reverse, c, right.reverse, found, left, ?_, by rw [Text.width_reverse, hcol],
        hgoal⟩
      rw [htext]
      exact List.mem_cons_self
    · obtain ⟨front, c, rest, found, left, hmem, hcol, hgoal⟩ := ih h
      exact ⟨front, c, rest, found, left, List.mem_cons_of_mem _ hmem, hcol, hgoal⟩

/-- A search finds the end of a front part of a row that it was given. -/
theorem seek_eq_some {goal : Step} {m m' : Matcher} {rows : List (Nat × Text)} {p : Position}
    (h : seek goal m rows = (m', some p)) :
    ∃ text front, (p.row, text) ∈ rows ∧ front <+: text ∧ Text.width front = p.column := by
  obtain ⟨front, c, rest, -, -, hmem, hcol, -⟩ := seek_found h
  exact ⟨_, front, hmem, List.prefix_append _ _, hcol⟩

end Matcher

theorem findOpener_eq_some {lines : List Text} {place p : Position}
    (h : (findOpener lines place).opener = some p) : IsPlace lines p ∧ p ≤ place := by
  have hseek : Matcher.initial.seek .balanced (upward lines place) =
      ((Matcher.initial.seek .balanced (upward lines place)).1, some p) := Prod.ext rfl h
  obtain ⟨text, front, hmem, hfront, hcol⟩ := Matcher.seek_eq_some hseek
  have := isPlace_of_mem_upward hmem hfront
  rwa [hcol] at this

/-! ## Steps -/

namespace Scan

theorem clamp_of_isPlace {lines : List Text} {place : Position} (h : IsPlace lines place) :
    clamp lines place = place := by
  obtain ⟨line, front, hline, ⟨rest, rfl⟩, hwidth⟩ := h
  rw [clamp, hline]
  simp only [← hwidth, Text.cut_append_width]
  rw [hwidth]

/-- The rows that a receiver can be joined from, and what is left of them. -/
theorem joinedReceiver_cases {bracketed : Bool} {above : List (Nat × Text)} {row : Nat}
    {receiver : Text} (h : joinedReceiver bracketed above = some (row, receiver)) :
    ∃ text, (row, text) ∈ above ∧ (receiver = Text.trimEnd text ∨
      ∃ rest, Text.trimEnd text = rest ++ ['\\'] ∧ receiver = Text.trimEnd rest) := by
  simp only [joinedReceiver, bind, Option.bind_eq_some_iff, Prod.exists] at h
  obtain ⟨row', text, hfind, h⟩ := h
  have hmem := List.mem_of_find?_eq_some hfind
  split at h
  · rename_i hlast
    obtain ⟨rest, hrest⟩ := List.getLast?_eq_some_iff.1 hlast
    rw [hrest, List.dropLast_concat] at h
    obtain ⟨rfl, rfl⟩ := Prod.mk.inj (Option.some.inj h)
    exact ⟨text, hmem, .inr ⟨rest, hrest, rfl⟩⟩
  · split at h
    · obtain ⟨rfl, rfl⟩ := Prod.mk.inj (Option.some.inj h)
      exact ⟨text, hmem, .inl rfl⟩
    · exact absurd h (by simp)

theorem joinedReceiver_eq_some {bracketed : Bool} {above : List (Nat × Text)} {row : Nat}
    {receiver : Text} (h : joinedReceiver bracketed above = some (row, receiver)) :
    ∃ text, (row, text) ∈ above ∧ receiver <+: text := by
  obtain ⟨text, hmem, hcases⟩ := joinedReceiver_cases h
  refine ⟨text, hmem, ?_⟩
  rcases hcases with rfl | ⟨rest, hrest, rfl⟩
  · exact Text.trimEnd_prefix text
  · have hjoin : rest <+: Text.trimEnd text := hrest ▸ List.prefix_append rest _
    exact ((Text.trimEnd_prefix rest).trans hjoin).trans (Text.trimEnd_prefix text)

theorem memberReceiver_eq_some {lines : List Text} {dot p : Position} (hdot : IsPlace lines dot)
    (h : memberReceiver lines dot = some p) : IsPlace lines p ∧ p ≤ dot := by
  unfold memberReceiver at h
  split at h
  · exact absurd h (by simp)
  · rename_i first line above hup
    split at h
    · obtain rfl := Option.some.inj h
      exact ⟨hdot, Position.le_refl _⟩
    · -- The receiver is a front part of a row that the search sees, whichever row it is.
      dsimp only at h
      split at h
      · simp only [bind, Option.bind_eq_some_iff, Prod.exists] at h
        obtain ⟨row, receiver, hreceiver, h⟩ := h
        obtain ⟨text, hmem, hfront⟩ := joinedReceiver_eq_some hreceiver
        split at h
        · obtain rfl := Option.some.inj h
          exact isPlace_of_mem_upward (hup ▸ List.mem_cons_of_mem _ hmem) hfront
        · exact absurd h (by simp)
      · simp only [bind, Option.bind_some] at h
        split at h
        · obtain rfl := Option.some.inj h
          have hfirst : first = dot.row := by
            unfold upward at hup
            split at hup
            · exact absurd hup (by simp)
            · exact (Prod.mk.inj (List.cons.inj hup).1).1.symm
          rw [← hfirst]
          exact isPlace_of_mem_upward (hup ▸ List.mem_cons_self) (Text.trimEnd_prefix line)
        · exact absurd h (by simp)

/-- An atom ends a text: it starts where a front part ends. -/
theorem atomEnd_eq_some {t atom : Text} (h : atomEnd t = some atom) :
    ∃ front, t = front ++ atom ∧ Text.width t - Text.width atom = Text.width front := by
  simp only [atomEnd, bind, Option.bind_eq_some_iff] at h
  obtain ⟨found, hfound, h⟩ := h
  split at h
  · exact absurd h (by simp)
  · obtain rfl := Option.some.inj h
    obtain ⟨front, rfl⟩ := (Pattern.longestEnd_eq_some hfound).1
    exact ⟨front, rfl, by simp⟩

/-- **One step never moves right, and leads from a place to a place.** -/
theorem step_le_and_isPlace (lines : List Text) (place : Position) :
    (step lines place).1 ≤ place ∧
      (IsPlace lines place → IsPlace lines (step lines place).1) := by
  have hstay : place ≤ place ∧ (IsPlace lines place → IsPlace lines place) :=
    ⟨Position.le_refl _, id⟩
  unfold step
  split
  · exact hstay
  · rename_i line hline
    dsimp only
    split
    · exact hstay
    · split
      · cases hopener : (findOpener lines place).opener with
        | none => exact hstay
        | some p => exact ⟨(findOpener_eq_some hopener).2, fun _ => (findOpener_eq_some hopener).1⟩
      · split
        · exact hstay
        · rename_i atom hatom
          obtain ⟨front, hbefore, hwidth⟩ := atomEnd_eq_some hatom
          have hfront : front <+: Text.cut line place.column := ⟨atom, hbefore.symm⟩
          have hplace : IsPlace lines ⟨place.row, Text.width front⟩ :=
            ⟨line, front, hline, hfront.trans (Text.cut_prefix _ _), rfl⟩
          have hle : (⟨place.row, Text.width front⟩ : Position) ≤ place :=
            .inr ⟨rfl, Nat.le_trans (Text.width_le_of_prefix hfront) (Text.width_cut_le _ _)⟩
          -- The atom starts at a place; a member goes on from there to its receiver.
          rw [hwidth]
          split
          · cases hreceiver : memberReceiver lines ⟨place.row, Text.width front⟩ with
            | none => exact hstay
            | some p =>
              obtain ⟨hp, hple⟩ := memberReceiver_eq_some hplace hreceiver
              exact ⟨Position.le_trans hple hle, fun _ => hp⟩
          · exact ⟨hle, fun _ => hplace⟩

/-! ## Runs -/

/-- A walk never breaks off: it ends at a place that is not right of where it started. -/
theorem walk_eq_ok (lines : List Text) (cap : Nat) (place : Position) :
    ∃ w, walk lines cap place = .ok w ∧ w.start ≤ place ∧
      (IsPlace lines place → IsPlace lines w.start) := by
  induction cap generalizing place with
  | zero => exact ⟨_, rfl, Position.le_refl _, id⟩
  | succ cap ih =>
    obtain ⟨hle, hplace⟩ := step_le_and_isPlace lines place
    rcases Position.le_iff_lt_or_eq.1 hle with hlt | hstay
    · obtain ⟨w, hw, hwle, hwplace⟩ := ih (step lines place).1
      exact ⟨_, walk_of_step_lt hlt hw, Position.le_trans hwle hle, fun h => hwplace (hplace h)⟩
    · exact ⟨_, walk_of_step_eq cap hstay, Position.le_refl _, id⟩

/-- What the first step of a walk leads to: the walk ends there, or goes on further left. -/
theorem walk_succ_cases {lines : List Text} {cap : Nat} {place : Position} {w : Walk}
    (h : walk lines (cap + 1) place = .ok w) :
    ((step lines place).1 = place ∧ w = ⟨place, 1, (step lines place).2, true⟩) ∨
      ((step lines place).1 < place ∧ ∃ rest, walk lines cap (step lines place).1 = .ok rest ∧
        w = ⟨rest.start, rest.iterations + 1, (step lines place).2 + rest.mismatches,
          rest.converged⟩) := by
  rcases Position.le_iff_lt_or_eq.1 (step_le_and_isPlace lines place).1 with hlt | hstay
  · obtain ⟨rest, hrest, -⟩ := walk_eq_ok lines cap (step lines place).1
    exact .inr ⟨hlt, rest, hrest, (Except.ok.inj ((walk_of_step_lt hlt hrest).symm.trans h)).symm⟩
  · exact .inl ⟨hstay, (Except.ok.inj ((walk_of_step_eq cap hstay).symm.trans h)).symm⟩

/-- A scan is the walk from where its place is clamped to. -/
theorem scan_of_walk {lines : List Text} {place : Position} {cap : Nat} {w : Walk}
    (hw : walk lines cap (clamp lines (place.shiftedLeft 1)) = .ok w) :
    scan lines place cap =
      .ok ⟨⟨w.start, clamp lines (place.shiftedLeft 1)⟩, w.iterations, w.mismatches,
        w.converged⟩ := by
  obtain ⟨w', hw', hle, -⟩ := walk_eq_ok lines cap (clamp lines (place.shiftedLeft 1))
  obtain rfl := Except.ok.inj (hw.symm.trans hw')
  simp only [scan, hw, bind, Except.bind, Span.ordered_of_le hle, pure, Except.pure]

end Scan

/-- **A scan always gives an answer.** It ends where the starting place is clamped to and starts
at or left of there. -/
theorem scan_eq_ok (lines : List Text) (place : Position) (cap : Nat) :
    ∃ outcome, scan lines place cap = .ok outcome ∧
      outcome.span.stop = Scan.clamp lines (place.shiftedLeft 1) ∧
      outcome.span.start ≤ outcome.span.stop ∧
      (IsPlace lines outcome.span.stop → IsPlace lines outcome.span.start) := by
  obtain ⟨w, hw, hle, hplace⟩ :=
    Scan.walk_eq_ok lines cap (Scan.clamp lines (place.shiftedLeft 1))
  exact ⟨_, Scan.scan_of_walk hw, rfl, hle, hplace⟩

end DotTarget
