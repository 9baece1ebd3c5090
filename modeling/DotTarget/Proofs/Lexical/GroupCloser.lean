import DotTarget.Proofs.Lexical.CommentReading
import DotTarget.Proofs.Lexical.EnclosingOpener
import DotTarget.Proofs.Lexical.SearchJournal
import DotTarget.Proofs.Lexical.StepCases

set_option autoImplicit false

/-! # The closer that a group is taken from

A step takes a bracketed group when a closing bracket stands right before its place. The search for
the opener does not start from that bracket but from the code of the row, and the code ends before
the bracket if the bracket stands in a comment (`codeEnd`). So the search pairs the opener that it
finds with the bracket that the step saw, or it does not see that bracket at all and takes a group
that is closed somewhere else (`step_pairs_own_closer_iff`). -/

namespace DotTarget

/-- The closing bracket right before a place in its row. -/
def closerBefore? (lines : List Text) (place : Position) : Option Bracket := do
  let line ← lines[place.row]?
  let before := Text.cut line place.column
  let c ← before.getLast?
  if isCloser c then some ⟨⟨place.row, Text.width before.dropLast⟩, c⟩ else none

/-- Where the code before a place ends in its row: at the place, unless a comment begins before
it. -/
def codeEnd (lines : List Text) (place : Position) : Position :=
  match lines[place.row]? with
  | none => place
  | some line => ⟨place.row, Text.width (Comment.strip (Text.cut line place.column))⟩

section Closer

variable {lines : List Text} {place : Position} {own : Bracket}

theorem closerBefore?_eq_some (h : closerBefore? lines place = some own) :
    ∃ line front, lines[place.row]? = some line ∧
      Text.cut line place.column = front ++ [own.char] ∧ isCloser own.char = true ∧
      own.place = ⟨place.row, Text.width front⟩ := by
  simp only [closerBefore?, bind, Option.bind_eq_some_iff] at h
  obtain ⟨line, hline, c, hlast, h⟩ := h
  split at h
  · rename_i hcloser
    obtain rfl := Option.some.inj h
    obtain ⟨front, hfront⟩ := List.getLast?_eq_some_iff.1 hlast
    exact ⟨line, front, hline, hfront, hcloser, by rw [hfront, List.dropLast_concat]⟩
  · exact absurd h (by simp)

/-- Behind a closing bracket a step searches for the opener. -/
theorem Scan.step_of_closerBefore? (h : closerBefore? lines place = some own) :
    step lines place =
      ((findOpener lines place).opener.getD place, (findOpener lines place).mismatches) := by
  obtain ⟨line, front, hline, hcut, hcloser, -⟩ := closerBefore?_eq_some h
  simp only [step, hline, hcut, List.getLast?_concat, hcloser, if_true]

/-- Such a step moves exactly to the opener that the search finds. -/
theorem Scan.opener_of_closerBefore? (h : closerBefore? lines place = some own) :
    (findOpener lines place).opener =
      if (step lines place).1 = place then none else some (step lines place).1 := by
  rw [step_of_closerBefore? h]
  cases hopener : (findOpener lines place).opener with
  | none => rw [Option.getD_none, if_pos rfl]
  | some p => rw [Option.getD_some, if_neg (Position.ne_of_lt (findOpener_lt hopener))]

/-! ## The code of the row -/

/-- A search reads the code before its place, so it may as well start where the code ends. -/
theorem upward_codeEnd (lines : List Text) (place : Position) :
    upward lines (codeEnd lines place) = upward lines place := by
  unfold codeEnd
  cases hline : lines[place.row]? with
  | none => rfl
  | some line =>
    obtain ⟨rest, hrest⟩ :=
      (Comment.strip_prefix (Text.cut line place.column)).trans (Text.cut_prefix line place.column)
    have hcut : Text.cut line (Text.width (Comment.strip (Text.cut line place.column))) =
        Comment.strip (Text.cut line place.column) := by
      have happend := Text.cut_append_width (Comment.strip (Text.cut line place.column)) rest
      rwa [hrest] at happend
    simp only [upward, hline, hcut, Comment.strip_strip]

theorem findOpener_codeEnd (lines : List Text) (place : Position) :
    findOpener lines (codeEnd lines place) = findOpener lines place := by
  unfold findOpener
  rw [upward_codeEnd]

/-- Everything that a search notes stands in the code before its place. -/
theorem lt_codeEnd_of_mem_bracketEvents {e : BracketEvent} (h : e ∈ bracketEvents lines place) :
    e.bracket.place < codeEnd lines place := by
  have hend : e ∈ bracketEvents lines (codeEnd lines place) := by
    rwa [bracketEvents, searchFrom, upward_codeEnd]
  exact (standsIn_of_mem_bracketEvents hend).2

/-- The last character of the lowest row is fed first. -/
theorem Journal.search_concat {j : Journal} {row : Nat} {front : Text} {c : Char}
    (h : (j.matcher.feed front.reverse c).2 ≠ .balanced) (above : List (Nat × Text)) :
    j.search ((row, front ++ [c]) :: above) =
      (j.feed row front.reverse c).search ((row, front) :: above) := by
  rw [search, search, List.reverse_append, List.reverse_singleton, List.singleton_append, searchRow,
    if_neg h]

/-- The journal of a search that has fed one closer. -/
theorem Journal.feed_closer {c : Char} (h : isCloser c = true) (row : Nat) (left : Text) :
    initial.feed row left c =
      ⟨Matcher.initial.above c, [⟨⟨row, Text.width left⟩, c⟩],
        [.waits ⟨⟨row, Text.width left⟩, c⟩]⟩ := by
  have hfed : (Matcher.initial.feed left c).1 = Matcher.initial.above c := by
    rw [Matcher.feed_closer h]
  show initial.note (Matcher.initial.feed left c).1 _ = _
  rw [hfed]
  exact note_of_closer _ rfl

/-- A closer at the end of the lowest row is noted before anything else. -/
theorem Journal.events_search_closer {c : Char} (h : isCloser c = true) {row : Nat} (front : Text)
    {above : List (Nat × Text)} (habove : ∀ upper ∈ above, upper.1 < row)
    (hrows : above.Pairwise fun lower upper => upper.1 < lower.1) :
    ∃ later, (initial.search ((row, front ++ [c]) :: above)).1.events =
      later ++ [.waits ⟨⟨row, Text.width front⟩, c⟩] := by
  have hfed := Journal.feed_closer h row front.reverse
  have hmore : (initial.matcher.feed front.reverse c).2 ≠ .balanced := by
    simp [initial, Matcher.feed_closer h]
  have hnothing : ∀ e ∈ initial.events,
      (⟨row, Text.width front.reverse⟩ : Position) < e.bracket.place := by
    simp [initial]
  obtain ⟨-, hopen, -⟩ := isOpen_initial.feed c hnothing
  have hleft : ∀ e ∈ (initial.feed row front.reverse c).events, ∀ r ∈ (row, front) :: above,
      (⟨r.1, Text.width r.2⟩ : Position) ≤ e.bracket.place := by
    intro e he r hr
    rw [hfed, Text.width_reverse] at he
    obtain rfl := List.mem_singleton.1 he
    rcases List.mem_cons.1 hr with rfl | hr
    · exact Position.le_refl _
    · exact .inl (habove r hr)
  obtain ⟨⟨new, hnew, -⟩, -⟩ :=
    (hopen hmore).search (List.pairwise_cons.2 ⟨habove, hrows⟩) hleft
  exact ⟨new, by rw [search_concat hmore, hnew, hfed, Text.width_reverse]⟩

/-- A closer in the code right before the place is what a search notes first. -/
theorem bracketEvents_of_code (hown : closerBefore? lines place = some own)
    (hcode : own.place < codeEnd lines place) :
    ∃ later, bracketEvents lines place = .waits own :: later := by
  obtain ⟨line, front, hline, hcut, hcloser, hplace⟩ := closerBefore?_eq_some hown
  have hstrip : Comment.strip (front ++ [own.char]) = front ++ [own.char] := by
    rcases List.prefix_concat_iff.1 (Comment.strip_prefix (front ++ [own.char])) with heq | hshort
    · exact heq
    · have hle := Text.width_le_of_prefix hshort
      simp only [codeEnd, hline, hcut, hplace, Position.lt_def] at hcode
      omega
  obtain ⟨above, hupward⟩ :
      ∃ above, upward lines place = (place.row, front ++ [own.char]) :: above := by
    simp only [upward, hline, hcut, hstrip]
    exact ⟨_, rfl⟩
  have hrows := pairwise_upward lines place
  rw [hupward, List.pairwise_cons] at hrows
  obtain ⟨later, hlater⟩ := Journal.events_search_closer hcloser front hrows.1 hrows.2
  refine ⟨later.reverse, ?_⟩
  rw [bracketEvents, searchFrom, hupward, hlater, ← hplace]
  simp

/-- A closer that is not in the code stands behind the `#` of a comment, where the code ends. -/
theorem comment_of_codeEnd_le (hown : closerBefore? lines place = some own)
    (hcode : codeEnd lines place ≤ own.place) :
    codeEnd lines place < own.place ∧ ∃ code comment,
      lines[place.row]? = some (code ++ '#' :: comment) ∧
      codeEnd lines place = ⟨place.row, Text.width code⟩ := by
  obtain ⟨line, front, hline, hcut, hcloser, hplace⟩ := closerBefore?_eq_some hown
  obtain ⟨after, hafter⟩ := Text.cut_prefix line place.column
  obtain ⟨comment, hsplit, hhash⟩ :=
    Comment.exists_eq_stripFrom_append .code (front ++ [own.char])
  change front ++ [own.char] = Comment.strip (front ++ [own.char]) ++ comment at hsplit
  have hend : codeEnd lines place =
      ⟨place.row, Text.width (Comment.strip (front ++ [own.char]))⟩ := by
    simp only [codeEnd, hline, hcut]
  rcases List.eq_nil_or_concat comment with rfl | ⟨comment, c, rfl⟩
  · have hpos := own.char.utf8Size_pos
    rw [List.append_nil] at hsplit
    rw [hend, ← hsplit, hplace, Position.le_def, Text.width_append, Text.width_cons] at hcode
    dsimp only at hcode
    omega
  · rw [List.concat_eq_append] at hsplit hhash
    rw [← List.append_assoc] at hsplit
    obtain ⟨hfront, hc⟩ := List.append_inj' hsplit rfl
    cases comment with
    | nil =>
      -- The comment would be the closer alone, but it begins with `#`.
      have hclash := hhash c rfl
      rw [← (List.cons.inj hc).1] at hclash
      exact absurd hclash (plain_of_isCloser hcloser).2.1
    | cons d comment =>
      obtain rfl := hhash d rfl
      refine ⟨?_, Comment.strip (front ++ [own.char]), comment ++ own.char :: after, ?_, hend⟩
      · have hwidth : Text.width front =
            Text.width (Comment.strip (front ++ [own.char])) + (1 + Text.width comment) := by
          conv => lhs; rw [hfront]
          rw [Text.width_append, Text.width_cons]
          rfl
        rw [hend, hplace, Position.lt_def]
        dsimp only
        omega
      · rw [hline, ← hafter, hcut]
        conv => lhs; rw [hfront]
        simp

/-! ## The group that a step takes -/

/-- **When a group is taken from the bracket that the step saw.** Suppose that a closing bracket
stands right before the place and that the step moves. Then the search led it to an opener that it
paired, last of all, with the closer that it noted first. This closer is the one before the place
exactly if that one stands in the code of its row. If not, it stands behind the `#` of a comment,
and the search, which does not see it, goes as it would from the end of the code: the closer of the
group that is taken stands in the code, before the comment. -/
theorem step_pairs_own_closer_iff (hown : closerBefore? lines place = some own)
    (hmoved : (Scan.step lines place).1 ≠ place) :
    ∃ first opener middle,
      (findOpener lines place).opener = some (Scan.step lines place).1 ∧
      bracketEvents lines place = .waits first :: (middle ++ [.pairs opener first]) ∧
      opener.place = (Scan.step lines place).1 ∧
      PairedWithin lines ⟨opener.place, codeEnd lines place⟩ opener first ∧
      (first = own ↔ own.place < codeEnd lines place) ∧
      (first ≠ own →
        findOpener lines place = findOpener lines (codeEnd lines place) ∧
        codeEnd lines place < own.place ∧ ∃ code comment,
          lines[place.row]? = some (code ++ '#' :: comment) ∧
          codeEnd lines place = ⟨place.row, Text.width code⟩) := by
  have hfound : (findOpener lines place).opener = some (Scan.step lines place).1 := by
    rw [Scan.opener_of_closerBefore? hown, if_neg hmoved]
  obtain ⟨first, opener, middle, hevents, hplace⟩ := exists_first_of_search hfound
  have hpair : .pairs opener first ∈ bracketEvents lines place := by
    rw [hevents]
    simp
  have hwaits : .waits first ∈ bracketEvents lines place := by
    rw [hevents]
    exact List.mem_cons_self
  have hwithin := pairedWithin_of_found hfound hpair
  have hbehind : first.place < codeEnd lines place := lt_codeEnd_of_mem_bracketEvents hwaits
  have hiff : first = own ↔ own.place < codeEnd lines place := by
    constructor
    · rintro rfl
      exact hbehind
    · intro hcode
      obtain ⟨later, hlater⟩ := bracketEvents_of_code hown hcode
      rw [hevents] at hlater
      exact BracketEvent.waits.inj (List.cons.inj hlater).1
  refine ⟨first, opener, middle, hfound, hevents, hplace, ?_, hiff, ?_⟩
  · exact { hwithin with start_le := Position.le_refl _, closer_lt_stop := hbehind }
  · intro hne
    have hcomment : codeEnd lines place ≤ own.place := by
      by_contra hnot
      exact hne (hiff.2 (Position.lt_iff_not_le.2 hnot))
    exact ⟨(findOpener_codeEnd lines place).symm, comment_of_codeEnd_le hown hcomment⟩

end Closer

/-- A call over four rows. Its closer is of another kind than its opener, and the rows hold brackets
in a literal and in comments. -/
def commentedCallRows : List Text :=
  ["f(g[", "  ')]', # ]", "  1] # )", "]"].map String.toList

/-- At the end of the call the step sees its closer. At the end of the comment above it sees a
bracket in the comment, and takes the list that is closed before it. -/
theorem step_pairs_own_closer_iff_commentedCall :
    (closerBefore? commentedCallRows ⟨3, 1⟩ = some ⟨⟨3, 0⟩, ']'⟩ ∧
      ∃ opener middle, bracketEvents commentedCallRows ⟨3, 1⟩ =
        .waits ⟨⟨3, 0⟩, ']'⟩ :: (middle ++ [.pairs opener ⟨⟨3, 0⟩, ']'⟩]) ∧
        opener.place = ⟨0, 1⟩) ∧
    closerBefore? commentedCallRows ⟨2, 8⟩ = some ⟨⟨2, 7⟩, ')'⟩ ∧
      ∃ first opener middle, bracketEvents commentedCallRows ⟨2, 8⟩ =
        .waits first :: (middle ++ [.pairs opener first]) ∧
        opener.place = ⟨0, 3⟩ ∧ first.place < ⟨2, 5⟩ := by
  have hown : closerBefore? commentedCallRows ⟨3, 1⟩ = some ⟨⟨3, 0⟩, ']'⟩ := by decide
  have hcomment : closerBefore? commentedCallRows ⟨2, 8⟩ = some ⟨⟨2, 7⟩, ')'⟩ := by decide
  have hmoved : (Scan.step commentedCallRows ⟨3, 1⟩).1 = ⟨0, 1⟩ := by decide
  have hmoved' : (Scan.step commentedCallRows ⟨2, 8⟩).1 = ⟨0, 3⟩ := by decide
  refine ⟨⟨hown, ?_⟩, hcomment, ?_⟩
  · obtain ⟨first, opener, middle, -, hevents, hplace, -, hiff, -⟩ :=
      step_pairs_own_closer_iff hown (by rw [hmoved]; decide)
    obtain rfl := hiff.2 (by decide)
    exact ⟨opener, middle, hevents, hplace.trans hmoved⟩
  · obtain ⟨first, opener, middle, -, hevents, hplace, hwithin, -, -⟩ :=
      step_pairs_own_closer_iff hcomment (by rw [hmoved']; decide)
    exact ⟨first, opener, middle, hevents, hplace.trans hmoved', hwithin.closer_lt_stop⟩

/-- A bracket in a comment leads to a group that is closed before the comment, and the scan takes
the comment with it. -/
theorem scan_takes_group_before_comment :
    closerBefore? ["f(x) # ).".toList] ⟨0, 8⟩ = some ⟨⟨0, 7⟩, ')'⟩ ∧
      Scan.step ["f(x) # ).".toList] ⟨0, 8⟩ = (⟨0, 1⟩, 0) ∧
      bracketEvents ["f(x) # ).".toList] ⟨0, 8⟩ =
        [.waits ⟨⟨0, 3⟩, ')'⟩, .pairs ⟨⟨0, 1⟩, '('⟩ ⟨⟨0, 3⟩, ')'⟩] ∧
      scan ["f(x) # ).".toList] ⟨0, 9⟩ 9 = .ok ⟨⟨⟨0, 0⟩, ⟨0, 8⟩⟩, 3, 0, true⟩ := by
  decide

end DotTarget
