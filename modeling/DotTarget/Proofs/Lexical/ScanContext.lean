import DotTarget.Proofs.Lexical.CodeRows
import DotTarget.Proofs.Lexical.Lexeme

set_option autoImplicit false

/-! # What a scan depends on

A scan reads its own row up to the place where it starts, and the code of the rows above. Two
documents that agree on this much look alike from the place (`LooksAlike`), whatever else they
hold, and also when their rows have other numbers. A step leads from a place where two documents
look alike to another such place (`LooksAlike.step_eq`), so that whole scans agree up to the numbers
of the rows (`LooksAlike.scan_eq`).

There are two cases of interest. Comments, blanks at the ends of rows, the rest of the starting row
and the rows below it never matter (`scan_eq_of_codeOf_eq`). Rows without code can be put anywhere
above, also into a group or a literal that the scan passes (`scan_insert_idle`). -/

namespace DotTarget

/-! ## New numbers for rows -/

/-- New numbers for the rows of a document, which leave the rows in their order. -/
structure Renumbering where
  number : Nat → Nat
  increasing : ∀ {m n : Nat}, m < n → number m < number n

namespace Renumbering

/-- Every row keeps its number. -/
def same : Renumbering := ⟨id, id⟩

/-- The numbers after `count` rows are put in before row `first`. -/
def insertion (first count : Nat) : Renumbering where
  number n := if n < first then n else n + count
  increasing := by
    intro m n h
    split <;> split <;> omega

end Renumbering

/-- A place in the document with new numbers. -/
def Position.renumbered (p : Position) (φ : Renumbering) : Position :=
  ⟨φ.number p.row, p.column⟩

/-- An outcome in the document with new numbers. -/
def Scan.Outcome.renumbered (outcome : Scan.Outcome) (φ : Renumbering) : Scan.Outcome :=
  { outcome with
    span := ⟨outcome.span.start.renumbered φ, outcome.span.stop.renumbered φ⟩ }

theorem Position.renumbered_lt {p q : Position} (h : p < q) (φ : Renumbering) :
    p.renumbered φ < q.renumbered φ := by
  rcases h with hrow | ⟨hrow, hcolumn⟩
  · exact .inl (φ.increasing hrow)
  · exact .inr ⟨congrArg φ.number hrow, hcolumn⟩

theorem Matcher.seek_renumbered (φ : Renumbering) (goal : Step) (m : Matcher)
    (rows : List (Nat × Text)) :
    m.seek goal (rows.map (Prod.map φ.number id)) =
      ((m.seek goal rows).1, (m.seek goal rows).2.map (·.renumbered φ)) := by
  induction rows generalizing m with
  | nil => rfl
  | cons first rows ih =>
    obtain ⟨number, text⟩ := first
    rw [List.map_cons, Prod.map_apply, id_eq, seek, seek]
    split
    · rfl
    · exact ih _

theorem Scan.joinedReceiver_renumbered (φ : Renumbering) (bracketed : Bool)
    (rows : List (Nat × Text)) :
    joinedReceiver bracketed (rows.map (Prod.map φ.number id)) =
      (joinedReceiver bracketed rows).map (Prod.map φ.number id) := by
  unfold joinedReceiver
  induction rows with
  | nil => rfl
  | cons first rows ih =>
    obtain ⟨number, text⟩ := first
    cases hblank : Text.isBlankText text with
    | true => simpa [hblank] using ih
    | false =>
      simp only [List.map_cons, Prod.map_apply, id_eq, List.find?_cons, hblank, Bool.not_false,
        bind, Option.bind_some]
      split
      · rfl
      · split
        · rfl
        · rfl

/-! ## Documents that look alike from a place -/

/-- Two documents look alike from a place, whose row has a new number in the second: its row is the
same up to the place, and the rows above hold the same code. -/
structure LooksAlike (φ : Renumbering) (lines lines' : List Text) (p : Position) : Prop where
  before : lines'[φ.number p.row]?.map (Text.cut · p.column) =
    lines[p.row]?.map (Text.cut · p.column)
  above : ∀ n ≤ p.row,
    codeAbove lines' (φ.number n) = (codeAbove lines n).map (Prod.map φ.number id)

namespace Scan

/-- Where a receiver ends, if it can have members. -/
def receiverEnd (found : Nat × Text) : Option Position :=
  if endsOperand found.2 then some ⟨found.1, Text.width found.2⟩ else none

/-- What may be the receiver of a member: the code between the start of the row and the dot, or if
there is none the nearest row of code above. -/
def receiver (bracketed : Bool) (row : Nat) (before : Text) (above : List (Nat × Text)) :
    Option (Nat × Text) :=
  if (codeOf before).isEmpty then joinedReceiver bracketed above else some (row, codeOf before)

/-- A receiver is found on the text up to the dot and the code above. -/
theorem memberReceiver_eq {lines : List Text} {dot : Position} {line : Text}
    (hline : lines[dot.row]? = some line) :
    memberReceiver lines dot =
      if (Comment.strip (Text.cut line dot.column)).getLast?.any isCloser then some dot
      else
        (receiver (enclosingOpener lines dot).isSome dot.row (Text.cut line dot.column)
          (codeAbove lines dot.row)).bind receiverEnd := by
  unfold memberReceiver upward receiver codeAbove
  rw [hline, joinedReceiver_codeRows]
  dsimp only
  split
  · rfl
  · unfold codeOf
    split
    · rfl
    · rfl

theorem receiverEnd_renumbered (φ : Renumbering) (found : Nat × Text) :
    receiverEnd (found.map φ.number id) = (receiverEnd found).map (·.renumbered φ) := by
  unfold receiverEnd
  rw [Prod.map_snd, id_eq]
  split
  · rfl
  · rfl

theorem receiver_renumbered (φ : Renumbering) (bracketed : Bool) (row : Nat) (before : Text)
    (above : List (Nat × Text)) :
    receiver bracketed (φ.number row) before (above.map (Prod.map φ.number id)) =
      (receiver bracketed row before above).map (Prod.map φ.number id) := by
  unfold receiver
  split
  · exact joinedReceiver_renumbered φ bracketed above
  · rfl

end Scan

namespace LooksAlike

variable {φ : Renumbering} {lines lines' : List Text} {p : Position}

/-- The row of the place exists in both documents or in neither. -/
theorem row_cases (h : LooksAlike φ lines lines' p) :
    (lines[p.row]? = none ∧ lines'[(p.renumbered φ).row]? = none) ∨
      ∃ line line', lines[p.row]? = some line ∧ lines'[(p.renumbered φ).row]? = some line' ∧
        Text.cut line' p.column = Text.cut line p.column := by
  have hbefore := h.before
  show (_ ∧ lines'[φ.number p.row]? = none) ∨ ∃ line line', _ ∧ lines'[φ.number p.row]? = _ ∧ _
  cases hline : lines[p.row]? with
  | none =>
    rw [hline, Option.map_none, Option.map_eq_none_iff] at hbefore
    exact .inl ⟨rfl, hbefore⟩
  | some line =>
    rw [hline, Option.map_some, Option.map_eq_some_iff] at hbefore
    obtain ⟨line', hline', hcut⟩ := hbefore
    exact .inr ⟨line, line', rfl, hline', hcut⟩

theorem left (h : LooksAlike φ lines lines' p) {column : Nat} (hle : column ≤ p.column) :
    LooksAlike φ lines lines' ⟨p.row, column⟩ := by
  refine ⟨?_, h.above⟩
  have hcut := congrArg (Option.map (Text.cut · column)) h.before
  simpa only [Option.map_map, Function.comp_def, Text.cut_cut hle] using hcut

/-- Inside the code of a row above the documents look alike again. -/
theorem up (h : LooksAlike φ lines lines' p) {row column : Nat} {code : Text}
    (hcode : (row, code) ∈ codeAbove lines p.row) (hle : column ≤ Text.width code) :
    LooksAlike φ lines lines' ⟨row, column⟩ := by
  have hcode' : (φ.number row, code) ∈ codeAbove lines' (φ.number p.row) := by
    rw [h.above _ (Nat.le_refl _)]
    exact List.mem_map.2 ⟨_, hcode, rfl⟩
  obtain ⟨hlt, -, line, hline, rfl⟩ := mem_codeAbove.1 hcode
  obtain ⟨-, -, line', hline', hsame⟩ := mem_codeAbove.1 hcode'
  refine ⟨?_, fun n hn => h.above n (Nat.le_trans hn (Nat.le_of_lt hlt))⟩
  show lines'[φ.number row]?.map _ = lines[row]?.map _
  rw [hline, hline', Option.map_some, Option.map_some,
    Text.cut_of_prefix (codeOf_prefix_row line) hle,
    Text.cut_of_prefix (codeOf_prefix_row line') (hsame ▸ hle), hsame]

/-- Whatever ends inside the text that a search sees is a place from which the documents look
alike. -/
theorem seen (h : LooksAlike φ lines lines' p) (line : Text) {text front : Text} {row : Nat}
    (hmem : (row, text) ∈
      (p.row, Comment.strip (Text.cut line p.column)) :: codeAbove lines p.row)
    (hfront : front <+: text) : LooksAlike φ lines lines' ⟨row, Text.width front⟩ := by
  rcases List.mem_cons.1 hmem with heq | habove
  · obtain ⟨rfl, rfl⟩ := Prod.mk.inj heq
    have hle := Text.width_le_of_prefix (hfront.trans (Comment.strip_prefix _))
    exact h.left (Nat.le_trans hle (Text.width_cut_le _ _))
  · exact h.up habove (Text.width_le_of_prefix hfront)

/-! ## Bracket searches -/

theorem seek_eq (h : LooksAlike φ lines lines' p) {goal : Matcher.Step} (hgoal : goal ≠ .more) :
    Matcher.initial.seek goal (upward lines' (p.renumbered φ)) =
      ((Matcher.initial.seek goal (upward lines p)).1,
        (Matcher.initial.seek goal (upward lines p)).2.map (·.renumbered φ)) := by
  rcases h.row_cases with ⟨hnone, hnone'⟩ | ⟨line, line', hline, hline', hcut⟩
  · unfold upward
    rw [hnone, hnone']
    rfl
  · rw [seek_upward hgoal hline, seek_upward hgoal hline', ← Matcher.seek_renumbered]
    show Matcher.initial.seek goal ((φ.number p.row, Comment.strip (Text.cut line' p.column)) ::
      codeAbove lines' (φ.number p.row)) = _
    rw [hcut, h.above _ (Nat.le_refl _)]
    rfl

theorem seek_found (h : LooksAlike φ lines lines' p) {goal : Matcher.Step} (hgoal : goal ≠ .more)
    {q : Position} (hq : (Matcher.initial.seek goal (upward lines p)).2 = some q) :
    LooksAlike φ lines lines' q := by
  rcases h.row_cases with ⟨hnone, -⟩ | ⟨line, -, hline, -, -⟩
  · unfold upward at hq
    rw [hnone] at hq
    exact absurd hq (by simp [Matcher.seek])
  · rw [seek_upward hgoal hline] at hq
    obtain ⟨text, front, hmem, hfront, hcolumn⟩ := Matcher.seek_eq_some (Prod.ext rfl hq)
    have hseen := h.seen line hmem hfront
    rwa [hcolumn] at hseen

theorem findOpener_eq (h : LooksAlike φ lines lines' p) :
    findOpener lines' (p.renumbered φ) =
      ⟨(findOpener lines p).opener.map (·.renumbered φ), (findOpener lines p).mismatches⟩ := by
  unfold findOpener
  rw [h.seek_eq (by simp)]

theorem isSome_enclosingOpener (h : LooksAlike φ lines lines' p) :
    (enclosingOpener lines' (p.renumbered φ)).isSome = (enclosingOpener lines p).isSome := by
  unfold enclosingOpener
  rw [h.seek_eq (by simp), Option.isSome_map]

/-! ## Receivers -/

theorem memberReceiver_eq (h : LooksAlike φ lines lines' p) :
    Scan.memberReceiver lines' (p.renumbered φ) =
      (Scan.memberReceiver lines p).map (·.renumbered φ) := by
  rcases h.row_cases with ⟨hnone, hnone'⟩ | ⟨line, line', hline, hline', hcut⟩
  · unfold Scan.memberReceiver upward
    rw [hnone, hnone']
    rfl
  · rw [Scan.memberReceiver_eq hline, Scan.memberReceiver_eq hline', h.isSome_enclosingOpener]
    show (if (Comment.strip (Text.cut line' p.column)).getLast?.any isCloser then _ else
      (Scan.receiver _ (φ.number p.row) (Text.cut line' p.column)
        (codeAbove lines' (φ.number p.row))).bind Scan.receiverEnd) = _
    rw [hcut, h.above _ (Nat.le_refl _), Scan.receiver_renumbered]
    split
    · rfl
    · rw [Option.bind_map, Option.map_bind]
      exact congrArg _ (funext (Scan.receiverEnd_renumbered φ))

theorem memberReceiver_found (h : LooksAlike φ lines lines' p) {q : Position}
    (hq : Scan.memberReceiver lines p = some q) : LooksAlike φ lines lines' q := by
  rcases h.row_cases with ⟨hnone, -⟩ | ⟨line, -, hline, -, -⟩
  · unfold Scan.memberReceiver upward at hq
    rw [hnone] at hq
    exact absurd hq (by simp)
  · rw [Scan.memberReceiver_eq hline] at hq
    split at hq
    · obtain rfl := Option.some.inj hq
      exact h
    · obtain ⟨⟨row, text⟩, hreceiver, hend⟩ := Option.bind_eq_some_iff.1 hq
      unfold Scan.receiverEnd at hend
      split at hend
      · obtain rfl := Option.some.inj hend
        unfold Scan.receiver at hreceiver
        split at hreceiver
        · obtain ⟨code, hmem, hfront⟩ := Scan.joinedReceiver_eq_some hreceiver
          exact h.seen line (List.mem_cons_of_mem _ hmem) hfront
        · obtain ⟨rfl, rfl⟩ := Prod.mk.inj (Option.some.inj hreceiver)
          exact h.seen line List.mem_cons_self (Text.trimEnd_prefix _)
      · exact absurd hend (by simp)

/-! ## Steps and scans -/

/-- **A step leads to the same place in both documents, and from there they look alike again.** -/
theorem step_eq (h : LooksAlike φ lines lines' p) :
    Scan.step lines' (p.renumbered φ) =
        ((Scan.step lines p).1.renumbered φ, (Scan.step lines p).2) ∧
      LooksAlike φ lines lines' (Scan.step lines p).1 := by
  unfold Scan.step
  rcases h.row_cases with ⟨hnone, hnone'⟩ | ⟨line, line', hline, hline', hcut⟩
  · rw [hnone, hnone']
    exact ⟨rfl, h⟩
  · have hbefore : Text.cut line' (p.renumbered φ).column = Text.cut line p.column := hcut
    simp only [hline, hline', hbefore]
    cases (Text.cut line p.column).getLast? with
    | none => exact ⟨rfl, h⟩
    | some c =>
      dsimp only
      split
      · -- A closer: both searches see the same brackets.
        rw [h.findOpener_eq]
        cases hopener : (findOpener lines p).opener with
        | none => exact ⟨rfl, h⟩
        | some q => exact ⟨rfl, h.seek_found (by simp) hopener⟩
      · cases atomEnd (Text.cut line p.column) with
        | none => exact ⟨rfl, h⟩
        | some atom =>
          have hle : Text.width (Text.cut line p.column) - Text.width atom ≤ p.column :=
            Nat.le_trans (Nat.sub_le _ _) (Text.width_cut_le _ _)
          have hstart := h.left hle
          dsimp only
          split
          · have hreceiver := hstart.memberReceiver_eq
            unfold Position.renumbered at hreceiver ⊢
            rw [hreceiver]
            cases hfound : Scan.memberReceiver lines
                ⟨p.row, Text.width (Text.cut line p.column) - Text.width atom⟩ with
            | none => exact ⟨rfl, h⟩
            | some q => exact ⟨rfl, hstart.memberReceiver_found hfound⟩
          · exact ⟨rfl, hstart⟩

/-- Repeated steps lead to the same place in both documents. -/
theorem walk_eq (h : LooksAlike φ lines lines' p) {cap : Nat} {w : Scan.Walk}
    (hw : Scan.walk lines cap p = .ok w) :
    Scan.walk lines' cap (p.renumbered φ) = .ok { w with start := w.start.renumbered φ } := by
  induction cap generalizing p w with
  | zero =>
    obtain rfl := Except.ok.inj hw
    rfl
  | succ cap ih =>
    obtain ⟨hstep, hnext⟩ := h.step_eq
    have hle := (Scan.step_le_and_isPlace lines p).1
    rcases Position.le_iff_lt_or_eq.1 hle with hlt | hstay
    · obtain ⟨rest, hrest, -⟩ := Scan.walk_eq_ok lines cap (Scan.step lines p).1
      rw [Scan.walk_of_step_lt hlt hrest] at hw
      obtain rfl := Except.ok.inj hw
      have hlt' : (Scan.step lines' (p.renumbered φ)).1 < p.renumbered φ := by
        rw [hstep]
        exact Position.renumbered_lt hlt φ
      have hrest' : Scan.walk lines' cap (Scan.step lines' (p.renumbered φ)).1 =
          .ok { rest with start := rest.start.renumbered φ } := by
        rw [hstep]
        exact ih hnext hrest
      rw [Scan.walk_of_step_lt hlt' hrest', hstep]
    · rw [Scan.walk_of_step_eq cap hstay] at hw
      obtain rfl := Except.ok.inj hw
      have hstay' : (Scan.step lines' (p.renumbered φ)).1 = p.renumbered φ := by
        rw [hstep, hstay]
      rw [Scan.walk_of_step_eq cap hstay', hstep]

theorem clamp_eq (h : LooksAlike φ lines lines' p) :
    Scan.clamp lines' (p.renumbered φ) = (Scan.clamp lines p).renumbered φ ∧
      LooksAlike φ lines lines' (Scan.clamp lines p) := by
  unfold Scan.clamp
  rcases h.row_cases with ⟨hnone, hnone'⟩ | ⟨line, line', hline, hline', hcut⟩
  · rw [hnone, hnone']
    exact ⟨rfl, h⟩
  · have hbefore : Text.cut line' (p.renumbered φ).column = Text.cut line p.column := hcut
    simp only [hline, hline', hbefore]
    exact ⟨rfl, h.left (Text.width_cut_le _ _)⟩

/-- **Scans agree on documents that look alike**, up to the numbers of the rows. -/
theorem scan_eq (h : LooksAlike φ lines lines' (p.shiftedLeft 1)) (cap : Nat) :
    ∃ outcome, scan lines p cap = .ok outcome ∧
      scan lines' (p.renumbered φ) cap = .ok (outcome.renumbered φ) := by
  obtain ⟨hclamp, halike⟩ := h.clamp_eq
  have hstop : Scan.clamp lines' ((p.renumbered φ).shiftedLeft 1) =
      (Scan.clamp lines (p.shiftedLeft 1)).renumbered φ := hclamp
  obtain ⟨w, hw, -⟩ := Scan.walk_eq_ok lines cap (Scan.clamp lines (p.shiftedLeft 1))
  have hw' := halike.walk_eq hw
  rw [← hstop] at hw'
  refine ⟨_, Scan.scan_of_walk hw, ?_⟩
  rw [Scan.scan_of_walk hw', hstop]
  rfl

end LooksAlike

/-! ## Comments and what lies right of the place -/

theorem codeAbove_congr {lines lines' : List Text} {row : Nat}
    (h : ∀ n < row, lines[n]?.map codeOf = lines'[n]?.map codeOf) :
    codeAbove lines' row = codeAbove lines row := by
  have htake : (lines'.take row).map codeOf = (lines.take row).map codeOf := by
    apply List.ext_getElem?
    intro n
    simp only [List.getElem?_map, List.getElem?_take]
    split
    · rename_i hlt
      exact (h n hlt).symm
    · rfl
  rw [codeAbove_eq, codeAbove_eq, htake]

/-- Documents with the same rows of code above look alike from a place up to which the row is the
same. -/
theorem looksAlike_of_codeOf_eq {lines lines' : List Text} {p : Position} {line line' : Text}
    (hline : lines[p.row]? = some line) (hline' : lines'[p.row]? = some line')
    (hbefore : Text.cut line p.column = Text.cut line' p.column)
    (habove : ∀ n < p.row, lines[n]?.map codeOf = lines'[n]?.map codeOf) :
    LooksAlike .same lines lines' p := by
  refine ⟨?_, ?_⟩
  · show lines'[p.row]?.map _ = lines[p.row]?.map _
    rw [hline, hline', Option.map_some, Option.map_some, hbefore]
  · intro n hn
    show codeAbove lines' n = (codeAbove lines n).map (Prod.map id id)
    rw [Prod.map_id, List.map_id]
    exact codeAbove_congr fun k hk => habove k (Nat.lt_of_lt_of_le hk hn)

/-- **Comments and the right context have no influence.** The outcome of a scan is the same in any
two documents whose rows above hold the same code and whose starting rows are the same up to one
column left of the place, where the trigger stands. -/
theorem scan_eq_of_codeOf_eq {lines lines' : List Text} {place : Position} {line line' : Text}
    (hline : lines[place.row]? = some line) (hline' : lines'[place.row]? = some line')
    (hbefore : Text.cut line (place.column - 1) = Text.cut line' (place.column - 1))
    (habove : ∀ n < place.row, lines[n]?.map codeOf = lines'[n]?.map codeOf) (cap : Nat) :
    ∃ outcome, scan lines place cap = .ok outcome ∧ scan lines' place cap = .ok outcome := by
  have halike : LooksAlike .same lines lines' (place.shiftedLeft 1) :=
    looksAlike_of_codeOf_eq hline hline' hbefore habove
  exact halike.scan_eq cap

/-- A chain over three rows of a group. -/
def chainRows : List Text :=
  ["f = (load(a)".toList, "  .map(b)".toList, "  .sum.".toList]

/-- The same chain with comments, a carriage return, and more to the right and below. -/
def commentedChainRows : List Text :=
  ["f = (load(a)  # first (".toList, "  .map(b)\r".toList, "  .sum.x) # next".toList, "g".toList]

theorem scan_chainRows :
    scan chainRows ⟨2, 7⟩ 512 = .ok ⟨⟨⟨0, 5⟩, ⟨2, 6⟩⟩, 6, 0, true⟩ :=
  rfl

theorem scan_commentedChainRows :
    scan commentedChainRows ⟨2, 7⟩ 512 = .ok ⟨⟨⟨0, 5⟩, ⟨2, 6⟩⟩, 6, 0, true⟩ := by
  obtain ⟨outcome, hbare, hcommented⟩ :=
    @scan_eq_of_codeOf_eq chainRows commentedChainRows ⟨2, 7⟩ "  .sum.".toList
      "  .sum.x) # next".toList rfl rfl (by decide) (by decide) 512
  rw [hcommented, ← hbare]
  exact scan_chainRows

/-! ## Rows without code -/

/-- A row without code: blanks, possibly followed by a comment. -/
def IsIdle (row : Text) : Prop :=
  ∃ blanks rest, row = blanks ++ rest ∧ (∀ c ∈ blanks, CharClass.isBlank c = true) ∧
    (rest = [] ∨ ∃ comment, rest = '#' :: comment)

theorem IsIdle.codeOf_eq {row : Text} (h : IsIdle row) : codeOf row = [] := by
  obtain ⟨blanks, rest, rfl, hblanks, hrest⟩ := h
  have hcomment : Comment.stripFrom .code rest = [] := by
    rcases hrest with rfl | ⟨comment, rfl⟩
    · rfl
    · rfl
  have hstrip : Comment.strip (blanks ++ rest) = blanks := by
    unfold Comment.strip
    induction blanks with
    | nil => exact hcomment
    | cons c blanks ih =>
      simp only [List.mem_cons, forall_eq_or_imp] at hblanks
      have hhash : c ≠ '#' := by
        rintro rfl
        exact absurd hblanks.1 (by decide)
      rw [List.cons_append,
        Lexeme.stripFrom_cons (not_delimiter_of_isBlank hblanks.1).1 hhash, ih hblanks.2]
  rw [codeOf, hstrip, Text.trimEnd_eq_nil_iff]
  simpa [Text.isBlankText] using hblanks

section Insertion

variable (above below : List Text) {idle : List Text}

theorem codeAbove_of_idle (hidle : ∀ row ∈ idle, IsIdle row) (n : Nat) :
    codeAbove idle n = [] := by
  rw [List.eq_nil_iff_forall_not_mem]
  rintro ⟨number, code⟩ hmem
  obtain ⟨-, hne, row, hrow, rfl⟩ := mem_codeAbove.1 hmem
  exact hne (hidle row (List.mem_of_getElem? hrow)).codeOf_eq

theorem map_insertion_of_lt {first : Nat} (count : Nat) {rows : List (Nat × Text)}
    (h : ∀ numbered ∈ rows, numbered.1 < first) :
    rows.map (Prod.map (Renumbering.insertion first count).number id) = rows := by
  refine (List.map_congr_left ?_).trans (List.map_id rows)
  rintro ⟨number, text⟩ hmem
  have hlt : number < first := h _ hmem
  simp [Renumbering.insertion, hlt]

/-- Rows without code leave the code above every other row as it is, up to its numbers. -/
theorem codeAbove_insert (hidle : ∀ row ∈ idle, IsIdle row) (n : Nat) :
    codeAbove (above ++ (idle ++ below)) ((Renumbering.insertion above.length idle.length).number n)
      = (codeAbove (above ++ below) n).map
          (Prod.map (Renumbering.insertion above.length idle.length).number id) := by
  by_cases hn : n < above.length
  · have hnumber : (Renumbering.insertion above.length idle.length).number n = n := if_pos hn
    rw [hnumber, map_insertion_of_lt]
    · refine codeAbove_congr fun k hk => ?_
      rw [List.getElem?_append_left (by omega), List.getElem?_append_left (by omega)]
    · rintro ⟨number, code⟩ hmem
      exact Nat.lt_trans (mem_codeAbove.1 hmem).1 hn
  · obtain ⟨k, rfl⟩ := Nat.exists_eq_add_of_le (Nat.le_of_not_lt hn)
    have hnumber : ∀ k, (Renumbering.insertion above.length idle.length).number
        (above.length + k) = above.length + (idle.length + k) := by
      intro k
      simp only [Renumbering.insertion]
      rw [if_neg (by omega)]
      omega
    have hstay : (codeAbove above above.length).map
        (Prod.map (Renumbering.insertion above.length idle.length).number id) =
          codeAbove above above.length := by
      refine map_insertion_of_lt _ ?_
      rintro ⟨number, code⟩ hmem
      exact (mem_codeAbove.1 hmem).1
    rw [hnumber, codeAbove_append, codeAbove_append, codeAbove_of_idle hidle, List.append_nil,
      codeAbove_append, List.map_append, hstay]
    simp [hnumber, Function.comp_def, Prod.map]

/-- Rows without code put in above a place leave the document looking alike from there. -/
theorem looksAlike_insert (hidle : ∀ row ∈ idle, IsIdle row) {p : Position}
    (hrow : above.length ≤ p.row) :
    LooksAlike (.insertion above.length idle.length) (above ++ below) (above ++ (idle ++ below))
      p := by
  refine ⟨?_, fun n _ => codeAbove_insert above below hidle n⟩
  have hnumber : (Renumbering.insertion above.length idle.length).number p.row =
      p.row + idle.length := if_neg (by omega)
  rw [hnumber, List.getElem?_append_right (by omega), List.getElem?_append_right (by omega),
    List.getElem?_append_right hrow]
  congr 2
  omega

end Insertion

/-- **Rows without code can be put in anywhere above.** The scan then passes over them: its outcome
is the same, except that the rows from the insertion on have moved down. -/
theorem scan_insert_idle (lines idle : List Text) (first : Nat) (place : Position) (cap : Nat)
    (hfirst : first ≤ place.row) (hlength : first ≤ lines.length)
    (hidle : ∀ row ∈ idle, IsIdle row) :
    ∃ outcome, scan lines place cap = .ok outcome ∧
      scan (lines.take first ++ idle ++ lines.drop first)
          ⟨place.row + idle.length, place.column⟩ cap =
        .ok (outcome.renumbered (.insertion first idle.length)) := by
  have hcount : (lines.take first).length = first := List.length_take_of_le hlength
  have hplace : place.renumbered (.insertion first idle.length) =
      ⟨place.row + idle.length, place.column⟩ := by
    simp only [Position.renumbered, Renumbering.insertion]
    rw [if_neg (by omega)]
  have halike : LooksAlike (.insertion first idle.length) lines
      (lines.take first ++ idle ++ lines.drop first) (place.shiftedLeft 1) := by
    have hinsert := looksAlike_insert (lines.take first) (lines.drop first) hidle
      (p := place.shiftedLeft 1) (by rw [hcount]; exact hfirst)
    rwa [hcount, List.take_append_drop, ← List.append_assoc] at hinsert
  rw [← hplace]
  exact halike.scan_eq cap

/-- A blank row and a comment in the middle of the chain. -/
def idleRows : List Text :=
  [" \t".toList, "   # second )".toList]

theorem isIdle_of_mem_idleRows : ∀ row ∈ idleRows, IsIdle row := by
  intro row hrow
  simp only [idleRows, List.mem_cons, List.not_mem_nil, or_false] at hrow
  rcases hrow with rfl | rfl
  · exact ⟨" \t".toList, [], rfl, List.all_eq_true.1 (by decide), .inl rfl⟩
  · exact ⟨"   ".toList, "# second )".toList, rfl, List.all_eq_true.1 (by decide), .inr ⟨_, rfl⟩⟩

theorem scan_chainRows_insert_idleRows :
    scan (chainRows.take 1 ++ idleRows ++ chainRows.drop 1) ⟨4, 7⟩ 512 =
      .ok ⟨⟨⟨0, 5⟩, ⟨4, 6⟩⟩, 6, 0, true⟩ := by
  obtain ⟨outcome, hbare, hinserted⟩ :=
    scan_insert_idle chainRows idleRows 1 ⟨2, 7⟩ 512 (by decide) (by decide) isIdle_of_mem_idleRows
  obtain rfl := Except.ok.inj (hbare.symm.trans scan_chainRows)
  exact hinserted

end DotTarget
