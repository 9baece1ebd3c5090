import DotTarget.Proofs.Lexical.ByteLookBehind
import DotTarget.Proofs.Lexical.SteadyMatcher

set_option autoImplicit false

/-! # Every run of a matcher

The bracket searches feed a matcher row by row, each row from its last character to its first, and
end the row behind it. A `Reading` is one row of such a run, with the matcher that it starts with,
and its `Moment`s are the matchers that are about to be fed its characters. A search stops at the
first moment that does what it looks for (`Matcher.seek_eq_find?`).

Whatever the rows are, no run swallows a bracket (`Matcher.run_swallows_nothing`). A character that
is passed over belongs to the triple quote that was recognised last
(`Matcher.Steady.recognised_of_skip`), one that is counted as an escape is a backslash, and both
counters are used up where the row begins. So a bracket acts on the waiting closers unless the
matcher is inside a literal. -/

namespace DotTarget

/-! ## Moments of a run -/

/-- A matcher that is about to be fed a character of a row. -/
structure Moment where
  /-- The number of the row. -/
  row : Nat
  matcher : Matcher
  char : Char
  /-- The characters left of it in the row, nearest first. -/
  left : Text
  deriving DecidableEq, Repr

namespace Moment

/-- The matcher behind the character, and what the character did. -/
def fed (x : Moment) : Matcher × Matcher.Step :=
  x.matcher.feed x.left x.char

/-- Whether the character did what `goal` says. -/
def does (goal : Matcher.Step) (x : Moment) : Bool :=
  x.fed.2 = goal

/-- Where the character stands. -/
def place (x : Moment) : Position :=
  ⟨x.row, Text.width x.left⟩

/-- The character is recognised as the last of a triple quote, which opens a literal or closes
one. -/
structure Recognises (x : Moment) : Prop where
  isQuote_char : isQuote x.char = true
  endsTriple_char : endsTriple x.char x.left = true
  skip_before : x.matcher.skip = 0
  skip_after : x.fed.1.skip = 2
  mode_change : x.matcher.mode = .code ∧ x.fed.1.mode = .triple x.char ∨
    x.matcher.mode = .triple x.char ∧ x.fed.1.mode = .code

/-- The two characters left of a recognised triple quote's last character are its other two. -/
theorem Recognises.char_eq {x : Moment} (h : x.Recognises) {skip : Nat} (hpos : 0 < skip)
    (hle : skip ≤ 2) {c : Char} {left : Text} (hdrop : x.left.drop (2 - skip) = c :: left) :
    c = x.char := by
  obtain ⟨rest, hrest⟩ := prefix_of_endsTriple h.endsTriple_char
  rw [← hrest] at hdrop
  obtain rfl | rfl : skip = 1 ∨ skip = 2 := by omega
  · exact (List.cons.inj hdrop).1.symm
  · exact (List.cons.inj hdrop).1.symm

end Moment

namespace Matcher

/-- The moments of feeding the characters of a row, given from its last to its first. -/
def moments (row : Nat) : Matcher → Text → List Moment
  | _, [] => []
  | m, c :: left => ⟨row, m, c, left⟩ :: moments row (m.feed left c).1 left

section Row

variable {row : Nat} {m : Matcher} {left : Text} {c : Char}

theorem feedAll_cons_nil (m : Matcher) (c : Char) (left : Text) :
    (m.feedAll (c :: left) []).1 = ((m.feed left c).1.feedAll left []).1 := by
  simp [feedAll]

theorem map_char_moments (row : Nat) (m : Matcher) (reversed : Text) :
    (m.moments row reversed).map Moment.char = reversed := by
  induction reversed generalizing m with
  | nil => rfl
  | cons c left ih => rw [moments, List.map_cons, ih]

theorem row_of_mem_moments {reversed : Text} {x : Moment} (h : x ∈ m.moments row reversed) :
    x.row = row := by
  induction reversed generalizing m with
  | nil => simp [moments] at h
  | cons c left ih =>
    rcases List.mem_cons.1 h with rfl | h
    · rfl
    · exact ih h

theorem suffix_of_mem_moments {reversed : Text} {x : Moment} (h : x ∈ m.moments row reversed) :
    x.char :: x.left <:+ reversed := by
  induction reversed generalizing m with
  | nil => simp [moments] at h
  | cons c left ih =>
    rcases List.mem_cons.1 h with rfl | h
    · exact List.suffix_refl _
    · exact (ih h).trans (List.suffix_cons c left)

/-- **A matcher stays steady throughout a row.** -/
theorem Steady.moments {reversed : Text} (h : m.Steady reversed) (row : Nat) :
    (∀ x ∈ m.moments row reversed, x.matcher.Steady (x.char :: x.left)) ∧
      (m.feedAll reversed []).1.Steady [] := by
  induction reversed generalizing m with
  | nil => exact ⟨by simp [Matcher.moments], h⟩
  | cons c left ih =>
    obtain ⟨hmoments, hstop⟩ := ih h.feed
    refine ⟨?_, by rwa [feedAll_cons_nil]⟩
    intro x hx
    rcases List.mem_cons.1 hx with rfl | hx
    · exact h
    · exact hmoments x hx

/-- What is to be passed over grows less, unless a triple quote is recognised. -/
theorem Steady.skip_feed (h : m.Steady (c :: left)) (row : Nat) :
    (m.feed left c).1.skip = m.skip - 1 ∨ Moment.Recognises ⟨row, m, c, left⟩ := by
  have hfed := h.inRow.fed left c
  cases heq : m.feed left c with
  | mk next step =>
    rw [heq] at hfed
    cases hfed with
    | skipped hskip => exact .inl rfl
    | triple hskip hquote htriple hmode =>
      refine .inr ⟨hquote, htriple, hskip, ?_, ?_⟩
      · simp [Moment.fed, heq]
      · simpa [Moment.fed, heq] using hmode
    | closer hout | opener hout | unpaired hout | enters hout | plain hout =>
      exact .inl (by simp [hout.2])
    | leaves hskip | escaped hskip | counted hskip | inside hskip =>
      exact .inl (by simp [hskip])

/-- **Where the characters that are passed over belong.** In a row, such a character belongs to a
triple quote that was recognised one or two characters before, or else it was to be passed over from
the start. -/
theorem Steady.recognised_of_skip {reversed : Text} (h : m.Steady reversed) :
    ∀ x ∈ m.moments row reversed, 0 < x.matcher.skip →
      (∃ y ∈ m.moments row reversed, y.Recognises ∧
        x.matcher.skip ≤ 2 ∧ y.left.drop (2 - x.matcher.skip) = x.char :: x.left) ∨
      x.matcher.skip ≤ m.skip ∧ reversed.drop (m.skip - x.matcher.skip) = x.char :: x.left := by
  induction reversed generalizing m with
  | nil => simp [Matcher.moments]
  | cons c left ih =>
    intro x hx hskip
    rcases List.mem_cons.1 hx with rfl | hx
    · exact .inr ⟨Nat.le_refl _, by simp⟩
    · rcases ih h.feed x hx hskip with ⟨y, hy, hrecognises⟩ | ⟨hle, hdrop⟩
      · exact .inl ⟨y, List.mem_cons_of_mem _ hy, hrecognises⟩
      · rcases h.skip_feed row with hnext | hrecognises
        · right
          rw [hnext] at hle hdrop
          have hone : m.skip - x.matcher.skip = m.skip - 1 - x.matcher.skip + 1 := by omega
          exact ⟨by omega, by rw [hone, List.drop_succ_cons, hdrop]⟩
        · -- The triple quote is recognised right here.
          left
          have htwo : (m.feed left c).1.skip = 2 := hrecognises.skip_after
          rw [htwo] at hle hdrop
          exact ⟨_, List.mem_cons_self, hrecognises, hle, hdrop⟩

end Row

end Matcher

/-! ## Rows of a run -/

/-- A row that is fed to a matcher from its last character to its first. -/
structure Reading where
  /-- The number of the row. -/
  row : Nat
  text : Text
  /-- The matcher before the row. -/
  start : Matcher
  deriving DecidableEq, Repr

namespace Reading

def moments (r : Reading) : List Moment :=
  r.start.moments r.row r.text.reverse

/-- The matcher behind the first character of the row. -/
def stop (r : Reading) : Matcher :=
  (r.start.feedAll r.text.reverse []).1

end Reading

namespace Matcher

/-- The readings of rows that are fed one after the other, given from the lowest upward. -/
def readings : Matcher → List (Nat × Text) → List Reading
  | _, [] => []
  | m, (row, text) :: above =>
    ⟨row, text, m⟩ :: readings (Reading.stop ⟨row, text, m⟩).endLine above

/-- The moments of feeding rows, given from the lowest upward. -/
def run (rows : List (Nat × Text)) : List Moment :=
  (initial.readings rows).flatMap Reading.moments

theorem map_readings (m : Matcher) (rows : List (Nat × Text)) :
    (m.readings rows).map (fun r => (r.row, r.text)) = rows := by
  induction rows generalizing m with
  | nil => rfl
  | cons first above ih => rw [readings, List.map_cons, ih]

/-! ## Searches -/

/-- A search stops a row at the first character that does what it looks for. -/
theorem seekRow_eq_find? (goal : Step) (row : Nat) (m : Matcher) (reversed : Text) :
    m.seekRow goal reversed =
      match (m.moments row reversed).find? (Moment.does goal) with
      | some x => (x.fed.1, some x.place.column)
      | none => ((m.feedAll reversed []).1, none) := by
  induction reversed generalizing m with
  | nil => rfl
  | cons c left ih =>
    rw [seekRow_cons, moments, feedAll_cons_nil]
    by_cases hgoal : (m.feed left c).2 = goal
    · have hdoes : Moment.does goal ⟨row, m, c, left⟩ = true := decide_eq_true hgoal
      rw [if_pos hgoal, List.find?_cons_of_pos hdoes]
      rfl
    · have hdoes : ¬Moment.does goal ⟨row, m, c, left⟩ = true :=
        fun h => hgoal (of_decide_eq_true h)
      rw [if_neg hgoal, List.find?_cons_of_neg hdoes, ih]

/-- **A search stops at the first moment that does what it looks for.** -/
theorem seek_eq_find? (goal : Step) (m : Matcher) (rows : List (Nat × Text)) :
    (m.seek goal rows).2 =
      (((m.readings rows).flatMap Reading.moments).find? (Moment.does goal)).map
        Moment.place := by
  induction rows generalizing m with
  | nil => rfl
  | cons first above ih =>
    obtain ⟨row, text⟩ := first
    rw [seek, seekRow_eq_find? goal row, readings, List.flatMap_cons, List.find?_append,
      Reading.moments]
    cases hfind : (m.moments row text.reverse).find? (Moment.does goal) with
    | none => exact ih _
    | some x =>
      have hrow : x.row = row := row_of_mem_moments (List.mem_of_find?_eq_some hfind)
      simp [Moment.place, hrow]

end Matcher

/-! ## Nothing is swallowed -/

/-- What holds of a character of a reading. -/
structure Moment.SoundIn (r : Reading) (x : Moment) : Prop where
  /-- The bytes before the character tell what the characters before it tell. -/
  fed_eq : x.matcher.feedInBytes r.text x.place.column x.char = x.fed
  /-- Only closers wait for their opener. -/
  isCloser_pending : ∀ c ∈ x.matcher.pending, isCloser c = true
  /-- A character that is passed over is one of the two quotes left of the one at which a triple
  quote was recognised last. -/
  skipped : 0 < x.matcher.skip → ∃ y ∈ r.moments, y.Recognises ∧ x.char = y.char ∧
    x.matcher.skip ≤ 2 ∧ y.left.drop (2 - x.matcher.skip) = x.char :: x.left
  /-- A character that is counted as an escape is a backslash, and as many backslashes stand next as
  are still to be counted. -/
  escaped : ∀ q n, x.matcher.mode = .escape q n →
    x.matcher.skip = 0 ∧ x.char = '\\' ∧ n = escapeRun (x.char :: x.left)
  /-- At most one closer more or less waits afterwards, and only outside literals is it another
  number. -/
  depth_change : x.fed.1.depth ≤ x.matcher.depth + 1 ∧ x.matcher.depth ≤ x.fed.1.depth + 1 ∧
    (x.fed.1.depth ≠ x.matcher.depth → x.matcher.mode = .code ∧ x.matcher.skip = 0)
  /-- A bracket begins to wait, is paired or is found unpaired, unless it stands in a literal. -/
  bracket_cases : isBracket x.char = true → x.matcher.skip = 0 ∧
    ((x.matcher.mode = .code ∧ (x.fed.1.depth ≠ x.matcher.depth ∨ x.fed.2 = .unbalanced)) ∨
      ∃ quote, x.matcher.mode = .string quote ∨ x.matcher.mode = .triple quote)

/-- What holds of a row that is read. -/
structure Reading.Sound (r : Reading) : Prop where
  /-- Every character of the row is fed, from the last to the first. -/
  map_char : r.moments.map Moment.char = r.text.reverse
  soundIn : ∀ x ∈ r.moments, x.SoundIn r
  /-- Behind the row only closers wait, and nothing is left to be passed over or counted. -/
  isCloser_stop : ∀ c ∈ r.stop.pending, isCloser c = true
  skip_stop : r.stop.skip = 0
  mode_stop : ∀ q n, r.stop.mode ≠ .escape q n
  /-- The next row is begun outside literals or inside one in triple quotes. -/
  mode_next : r.stop.endLine.mode = .code ∨ ∃ quote, r.stop.endLine.mode = .triple quote
  skip_next : r.stop.endLine.skip = 0
  pending_next : r.stop.endLine.pending = r.stop.pending

namespace Reading

variable {r : Reading} (hstart : r.start.BetweenRows)
  (hpending : ∀ c ∈ r.start.pending, isCloser c = true)

include hstart hpending

theorem steady_start : r.start.Steady r.text.reverse :=
  .of_betweenRows hstart hpending _

theorem steady_of_mem {x : Moment} (hx : x ∈ r.moments) : x.matcher.Steady (x.char :: x.left) :=
  ((steady_start hstart hpending).moments r.row).1 x hx

theorem steady_stop : r.stop.Steady [] :=
  ((steady_start hstart hpending).moments r.row).2

theorem exists_recognises {x : Moment} (hx : x ∈ r.moments) (hskip : 0 < x.matcher.skip) :
    ∃ y ∈ r.moments, y.Recognises ∧ x.char = y.char ∧ x.matcher.skip ≤ 2 ∧
      y.left.drop (2 - x.matcher.skip) = x.char :: x.left := by
  rcases (steady_start hstart hpending).recognised_of_skip x hx hskip with
    ⟨y, hy, hrecognises, hle, hdrop⟩ | ⟨hle, -⟩
  · exact ⟨y, hy, hrecognises, hrecognises.char_eq hskip hle hdrop, hle, hdrop⟩
  · -- Between two rows nothing is to be passed over.
    rw [hstart.skip_eq] at hle
    omega

theorem soundIn_of_mem {x : Moment} (hx : x ∈ r.moments) : x.SoundIn r := by
  have hsteady := steady_of_mem hstart hpending hx
  have hfed : x.matcher.Fed x.left x.char x.fed := hsteady.inRow.fed x.left x.char
  refine ⟨?_, hsteady.isCloser_pending, exists_recognises hstart hpending hx, ?_,
    hfed.depth_change, hsteady.bracket_cases⟩
  · obtain ⟨right, hright⟩ := Matcher.suffix_of_mem_moments hx
    have htext : r.text = x.left.reverse ++ x.char :: right.reverse := by
      rw [← List.reverse_reverse r.text, ← hright]
      simp
    rw [htext]
    exact hsteady.inRow.feedInBytes_eq x.left right.reverse x.char
  · intro q n hmode
    obtain ⟨hskip, -, hrun⟩ := hsteady.escape_eq q n hmode
    exact ⟨hskip, hsteady.eq_backslash_of_escape hmode, hrun⟩

theorem sound : r.Sound := by
  have hstop := steady_stop hstart hpending
  have hnext := hstop.inRow.endLine
  refine ⟨Matcher.map_char_moments _ _ _, fun x hx => soundIn_of_mem hstart hpending hx,
    hstop.isCloser_pending, ?_, ?_, hnext.mode_eq, hnext.skip_eq, rfl⟩
  · obtain ⟨q, -, hprefix⟩ := hstop.skip_quotes
    simpa using hprefix
  · intro q n hmode
    obtain ⟨-, hpos, hrun⟩ := hstop.escape_eq q n hmode
    rw [hrun] at hpos
    exact absurd hpos (by decide)

end Reading

namespace Matcher

/-- **Every row of a run is read soundly.** -/
theorem sound_of_mem_readings {m : Matcher} (hm : m.BetweenRows)
    (hpending : ∀ c ∈ m.pending, isCloser c = true) {rows : List (Nat × Text)} :
    ∀ r ∈ m.readings rows, r.Sound := by
  induction rows generalizing m with
  | nil => simp [readings]
  | cons first above ih =>
    intro r hr
    rcases List.mem_cons.1 hr with rfl | hr
    · exact Reading.sound hm hpending
    · -- The next row begins where this one ends.
      have hstop := Reading.steady_stop (r := ⟨first.1, first.2, m⟩) hm hpending
      exact ih hstop.inRow.endLine hstop.isCloser_pending r hr

theorem betweenRows_initial : initial.BetweenRows :=
  ⟨inRow_initial, rfl, .inl rfl⟩

/-- **No run of a matcher swallows a bracket.** Feed any rows, each from its last character to its
first with the row ended behind it. A character that is passed over is a quote of the triple quote
that was recognised last; one that is counted as an escape is a backslash, and the count is that of
the backslashes which stand next. Only closers wait, a character changes their number by one at most
and only outside literals, and a bracket that changes nothing is an opener that no closer waits for
or stands in a literal. Behind every row the matcher is outside literals or inside one in triple
quotes, with nothing to pass over. Both bracket searches are such runs, broken off at the first
character that does what they look for. -/
theorem run_swallows_nothing :
    (∀ rows : List (Nat × Text),
      (initial.readings rows).map (fun r => (r.row, r.text)) = rows ∧
        ∀ r ∈ initial.readings rows, r.Sound) ∧
    ∀ (lines : List Text) (place : Position),
      (findOpener lines place).opener =
        ((run (upward lines place)).find? (Moment.does .balanced)).map Moment.place ∧
      enclosingOpener lines place =
        ((run (upward lines place)).find? (Moment.does .unbalanced)).map Moment.place := by
  refine ⟨?_, ?_⟩
  · intro rows
    exact ⟨initial.map_readings rows, sound_of_mem_readings betweenRows_initial (by simp [initial])⟩
  · intro lines place
    exact ⟨seek_eq_find? .balanced initial _, seek_eq_find? .unbalanced initial _⟩

/-- A call over two rows. A triple quote hides a bracket in the first, and an escaped quote behind
two more backslashes hides one in the second. -/
def quotedCall : List Text :=
  ["f('''(é''',", " x['\\\\\\'(é'])"].map String.toList

theorem run_swallows_nothing_quotedCall :
    (∃ r ∈ initial.readings (upward quotedCall ⟨1, 14⟩), r.Sound ∧
      ∃ x ∈ r.moments, x.matcher.mode = .escape '\'' 3) ∧
    (∃ r ∈ initial.readings (upward quotedCall ⟨1, 14⟩), r.Sound ∧
      ∃ x ∈ r.moments, x.matcher.skip = 1) ∧
    (findOpener quotedCall ⟨1, 14⟩).opener = some ⟨0, 1⟩ := by
  obtain ⟨hrows, hsearch⟩ := run_swallows_nothing
  have hsound := (hrows (upward quotedCall ⟨1, 14⟩)).2
  have hescape : ∃ r ∈ initial.readings (upward quotedCall ⟨1, 14⟩),
      ∃ x ∈ r.moments, x.matcher.mode = .escape '\'' 3 := by decide
  have hskip : ∃ r ∈ initial.readings (upward quotedCall ⟨1, 14⟩),
      ∃ x ∈ r.moments, x.matcher.skip = 1 := by decide
  obtain ⟨escaping, hescaping, hmode⟩ := hescape
  obtain ⟨skipping, hskipping, hcount⟩ := hskip
  exact ⟨⟨escaping, hescaping, hsound escaping hescaping, hmode⟩,
    ⟨skipping, hskipping, hsound skipping hskipping, hcount⟩,
    (hsearch quotedCall ⟨1, 14⟩).1.trans (by decide)⟩

end Matcher

end DotTarget
