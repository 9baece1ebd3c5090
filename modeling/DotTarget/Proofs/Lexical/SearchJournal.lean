import DotTarget.Proofs.Lexical.MismatchBound

set_option autoImplicit false

/-! # What a bracket search pairs

A matcher keeps the kinds of the closers that wait for their opener, and counts the pairs of
different kinds. It keeps no places, so neither which closer an opener was paired with nor where the
counted pairs stand can be read off it. A `Journal` runs beside a matcher and notes both. What it
notes follows from how the pending closers change, so it says what the matcher did, and the search
itself goes on as without it (`findOpener_eq_search`).

The entries of a journal come in the order in which the document is read and stand for brackets of
it (`pairwise_bracketEvents`, `standsIn_of_mem_bracketEvents`). A search that finds an opener ends
with the entry that pairs this opener with the closer that was noted first
(`exists_first_of_search`). -/

namespace DotTarget

/-! ## What a character does to the pending closers -/

namespace Matcher

/-- What feeding the character `c` does to the pending closers. -/
inductive FeedCase (m : Matcher) (c : Char) : Matcher × Step → Prop where
  /-- It is no bracket, or stands in a literal, or is an opener that no closer waits for. -/
  | passed {m' : Matcher} {step : Step} (hpending : m'.pending = m.pending)
      (hmismatches : m'.mismatches = m.mismatches) (hstep : step ≠ .balanced) :
      FeedCase m c (m', step)
  | closer {m' : Matcher} (hcloser : isCloser c = true) (hpending : m'.pending = c :: m.pending)
      (hmismatches : m'.mismatches = m.mismatches) : FeedCase m c (m', .more)
  | opener {m' : Matcher} {closer : Char} (hopener : isOpener c = true)
      (hpending : m.pending = closer :: m'.pending)
      (hmismatches : m'.mismatches = m.mismatches + if openerOf? closer = some c then 0 else 1) :
      FeedCase m c (m', if m'.pending.isEmpty then .balanced else .more)

theorem feedCase_code (m : Matcher) (c : Char) (triple : Bool) :
    FeedCase m c (m.feedCode c triple) := by
  unfold feedCode
  split
  · rename_i hcloser
    exact .closer hcloser rfl rfl
  · split
    · rename_i hopener
      unfold feedOpener
      split
      · exact .passed rfl rfl (by simp)
      · rename_i closer rest hpending
        exact .opener hopener hpending rfl
    · split
      · split
        · exact .passed rfl rfl (by simp)
        · exact .passed rfl rfl (by simp)
      · exact .passed rfl rfl (by simp)

/-- **What a fed character can do.** -/
theorem feedCase (m : Matcher) (left : Text) (c : Char) : FeedCase m c (m.feed left c) := by
  unfold feed advance
  split
  · exact .passed rfl rfl (by simp)
  · split
    · exact m.feedCase_code c _
    · split
      · exact .passed rfl rfl (by simp)
      · exact .passed rfl rfl (by simp)
    · split
      · exact .passed rfl rfl (by simp)
      · exact .passed rfl rfl (by simp)
    · exact .passed rfl rfl (by simp)

end Matcher

/-! ## Journals -/

/-- A bracket and the place where it stands. -/
structure Bracket where
  place : Position
  char : Char
  deriving DecidableEq, Repr

/-- What a search does with a bracket that it sees. -/
inductive BracketEvent where
  /-- A closer begins to wait for its opener. -/
  | waits (closer : Bracket)
  /-- An opener is paired with the closer that began to wait last. -/
  | pairs (opener closer : Bracket)
  deriving DecidableEq, Repr

namespace BracketEvent

/-- The bracket at which it happens. -/
def bracket : BracketEvent → Bracket
  | waits closer => closer
  | pairs opener _ => opener

/-- Whether two brackets of different kinds are paired. -/
def isMismatch : BracketEvent → Bool
  | waits _ => false
  | pairs opener closer => openerOf? closer.char ≠ some opener.char

end BracketEvent

/-- A matcher, the closers that it waits for with their places, and what it did so far. -/
structure Journal where
  matcher : Matcher
  /-- The waiting closers, innermost first. -/
  waiting : List Bracket
  /-- What happened, the latest first. -/
  events : List BracketEvent
  deriving DecidableEq, Repr

namespace Journal

/-- The journal before any character. -/
def initial : Journal := ⟨.initial, [], []⟩

/-- Notes what the bracket `b` did when it led to the matcher `m`: it waits if there is one more
pending closer now, and was paired if there is one less. -/
def note (j : Journal) (m : Matcher) (b : Bracket) : Journal :=
  if j.matcher.depth < m.depth then ⟨m, b :: j.waiting, .waits b :: j.events⟩
  else if m.depth < j.matcher.depth then
    match j.waiting with
    | [] => ⟨m, [], j.events⟩
    | closer :: rest => ⟨m, rest, .pairs b closer :: j.events⟩
  else ⟨m, j.waiting, j.events⟩

/-- Feeds the character `c` of a row, which has the characters `left` to its left. -/
def feed (j : Journal) (row : Nat) (left : Text) (c : Char) : Journal :=
  j.note (j.matcher.feed left c).1 ⟨⟨row, Text.width left⟩, c⟩

/-- Feeds the characters of a row from its last to its first until the brackets are balanced. -/
def searchRow (row : Nat) : Journal → Text → Journal × Option Nat
  | j, [] => (j, none)
  | j, c :: left =>
    if (j.matcher.feed left c).2 = .balanced then (j.feed row left c, some (Text.width left))
    else searchRow row (j.feed row left c) left

/-- Feeds rows, given from the lowest upward, until the brackets are balanced. -/
def search : Journal → List (Nat × Text) → Journal × Option Position
  | j, [] => (j, none)
  | j, (row, text) :: above =>
    match searchRow row j text.reverse with
    | (j', some column) => (j', some ⟨row, column⟩)
    | (j', none) => search { j' with matcher := j'.matcher.endLine } above

/-! ## The search goes on as without a journal -/

theorem matcher_note (j : Journal) (m : Matcher) (b : Bracket) : (j.note m b).matcher = m := by
  unfold note
  split
  · rfl
  · split
    · split
      · rfl
      · rfl
    · rfl

theorem matcher_feed (j : Journal) (row : Nat) (left : Text) (c : Char) :
    (j.feed row left c).matcher = (j.matcher.feed left c).1 :=
  j.matcher_note _ _

theorem searchRow_eq (row : Nat) (j : Journal) (reversed : Text) :
    j.matcher.seekRow .balanced reversed =
      ((j.searchRow row reversed).1.matcher, (j.searchRow row reversed).2) := by
  induction reversed generalizing j with
  | nil => rfl
  | cons c left ih =>
    rw [Matcher.seekRow_cons, searchRow]
    split
    · rw [matcher_feed]
    · rw [← matcher_feed j row left c]
      exact ih (j.feed row left c)

theorem search_eq (j : Journal) (rows : List (Nat × Text)) :
    j.matcher.seek .balanced rows = ((j.search rows).1.matcher, (j.search rows).2) := by
  induction rows generalizing j with
  | nil => rfl
  | cons first above ih =>
    obtain ⟨row, text⟩ := first
    rw [Matcher.seek, search, searchRow_eq row j text.reverse]
    cases hrow : j.searchRow row text.reverse with
    | mk reached found =>
      cases found with
      | some column => rfl
      | none => exact ih { reached with matcher := reached.matcher.endLine }

/-! ## One character -/

section Note

variable {j : Journal} {m : Matcher} (b : Bracket)

theorem note_of_passed (h : m.pending = j.matcher.pending) :
    j.note m b = ⟨m, j.waiting, j.events⟩ := by
  simp [note, Matcher.depth, h]

theorem note_of_closer {c : Char} (h : m.pending = c :: j.matcher.pending) :
    j.note m b = ⟨m, b :: j.waiting, .waits b :: j.events⟩ := by
  simp [note, Matcher.depth, h]

theorem note_of_opener {c : Char} (h : j.matcher.pending = c :: m.pending) {closer : Bracket}
    {rest : List Bracket} (hwaiting : j.waiting = closer :: rest) :
    j.note m b = ⟨m, rest, .pairs b closer :: j.events⟩ := by
  simp [note, Matcher.depth, h, hwaiting]

end Note

/-- The events of a search, the latest first, and the closers that wait after them. A search ends
when no closer waits any more, so only its first event can happen while none waits. -/
inductive Traced : List BracketEvent → List Bracket → Prop where
  | nil : Traced [] []
  | waits {events : List BracketEvent} {waiting : List Bracket} {closer : Bracket}
      (h : Traced events waiting) (hcloser : isCloser closer.char = true)
      (hfirst : waiting = [] → events = [])
      (hleft : ∀ e ∈ events, closer.place < e.bracket.place) :
      Traced (.waits closer :: events) (closer :: waiting)
  | pairs {events : List BracketEvent} {waiting : List Bracket} {opener closer : Bracket}
      (h : Traced events (closer :: waiting)) (hopener : isOpener opener.char = true)
      (hleft : ∀ e ∈ events, opener.place < e.bracket.place) :
      Traced (.pairs opener closer :: events) waiting

namespace Traced

variable {events : List BracketEvent} {waiting : List Bracket}

theorem waits_of_mem (h : Traced events waiting) : ∀ b ∈ waiting, .waits b ∈ events := by
  induction h with
  | nil => simp
  | waits h hcloser hfirst hleft ih =>
    intro b hb
    rcases List.mem_cons.1 hb with rfl | hb
    · exact List.mem_cons_self
    · exact List.mem_cons_of_mem _ (ih b hb)
  | pairs h hopener hleft ih =>
    intro b hb
    exact List.mem_cons_of_mem _ (ih b (List.mem_cons_of_mem _ hb))

/-- A closer that is noted is one. -/
theorem isCloser_of_waits (h : Traced events waiting) :
    ∀ closer, .waits closer ∈ events → isCloser closer.char = true := by
  induction h with
  | nil => simp
  | waits h hcloser hfirst hleft ih =>
    intro closer hmem
    rcases List.mem_cons.1 hmem with heq | hmem
    · obtain rfl := BracketEvent.waits.inj heq
      exact hcloser
    · exact ih closer hmem
  | pairs h hopener hleft ih =>
    intro closer hmem
    exact ih closer ((List.mem_cons.1 hmem).resolve_left (by simp))

/-- Every pair consists of an opener and a closer that was noted before it and stands behind it. -/
theorem of_pairs (h : Traced events waiting) :
    ∀ opener closer, .pairs opener closer ∈ events → isOpener opener.char = true ∧
      .waits closer ∈ events ∧ opener.place < closer.place := by
  induction h with
  | nil => simp
  | waits h hcloser hfirst hleft ih =>
    intro opener closer hmem
    obtain ⟨hopener, hwaits, hlt⟩ := ih opener closer ((List.mem_cons.1 hmem).resolve_left (by simp))
    exact ⟨hopener, List.mem_cons_of_mem _ hwaits, hlt⟩
  | pairs h hopener hleft ih =>
    intro opener closer hmem
    rcases List.mem_cons.1 hmem with heq | hmem
    · obtain ⟨rfl, rfl⟩ := BracketEvent.pairs.inj heq
      have hwaits := h.waits_of_mem _ List.mem_cons_self
      exact ⟨hopener, List.mem_cons_of_mem _ hwaits, hleft _ hwaits⟩
    · obtain ⟨hopener, hwaits, hlt⟩ := ih opener closer hmem
      exact ⟨hopener, List.mem_cons_of_mem _ hwaits, hlt⟩

/-- The closer that waits longest is the first bracket that was noted. -/
theorem getLast?_events (h : Traced events waiting) :
    ∀ first ∈ waiting.getLast?, events.getLast? = some (.waits first) := by
  induction h with
  | nil => simp
  | @waits events waiting closer h hcloser hfirst hleft ih =>
    intro first hmem
    rw [List.getLast?_cons] at hmem ⊢
    cases hlast : waiting.getLast? with
    | none =>
      rw [hlast] at hmem
      obtain rfl : closer = first := Option.some.inj hmem
      rw [hfirst (List.getLast?_eq_none_iff.1 hlast)]
      rfl
    | some b =>
      rw [hlast] at hmem
      obtain rfl : b = first := Option.some.inj hmem
      rw [ih b hlast]
      rfl
  | @pairs events waiting opener closer h hopener hleft ih =>
    intro first hmem
    have hlast : (closer :: waiting).getLast? = some first := by
      rw [List.getLast?_cons, hmem]
      rfl
    rw [List.getLast?_cons, ih first hlast]
    rfl

/-- Later events stand further left or above. -/
theorem pairwise (h : Traced events waiting) :
    events.Pairwise fun later earlier => later.bracket.place < earlier.bracket.place := by
  induction h with
  | nil => exact .nil
  | waits h hcloser hfirst hleft ih => exact .cons hleft ih
  | pairs h hopener hleft ih => exact .cons hleft ih

end Traced

/-- A journal that says what its matcher did. -/
structure Sound (j : Journal) : Prop where
  traced : Traced j.events j.waiting
  waiting_eq : j.waiting.map Bracket.char = j.matcher.pending
  mismatches_eq : j.events.countP BracketEvent.isMismatch = j.matcher.mismatches

/-- A journal of a search that goes on: a closer waits, or nothing has happened. -/
structure IsOpen (j : Journal) : Prop extends Sound j where
  events_eq : j.waiting = [] → j.events = []

theorem isOpen_initial : initial.IsOpen :=
  ⟨⟨.nil, rfl, rfl⟩, fun _ => rfl⟩

theorem IsOpen.endLine {j : Journal} (h : j.IsOpen) :
    IsOpen { j with matcher := j.matcher.endLine } :=
  ⟨⟨h.traced, h.waiting_eq, h.mismatches_eq⟩, h.events_eq⟩

/-- A search has ended at `place`: its last event pairs the opener there with the closer that was
noted first. -/
structure ClosedAt (j : Journal) (place : Position) : Prop extends Sound j where
  last_pairs : ∃ opener first earlier, j.events = .pairs opener first :: earlier ∧
    opener.place = place ∧ earlier.getLast? = some (.waits first)

/-- **One character:** a search goes on, or it has ended there. -/
theorem IsOpen.feed {j : Journal} (h : j.IsOpen) {row : Nat} {left : Text} (c : Char)
    (hleft : ∀ e ∈ j.events, (⟨row, Text.width left⟩ : Position) < e.bracket.place) :
    (∃ new, (j.feed row left c).events = new ++ j.events ∧
        ∀ e ∈ new, e.bracket = ⟨⟨row, Text.width left⟩, c⟩) ∧
      ((j.matcher.feed left c).2 ≠ .balanced → (j.feed row left c).IsOpen) ∧
      ((j.matcher.feed left c).2 = .balanced →
        (j.feed row left c).ClosedAt ⟨row, Text.width left⟩) := by
  have hfeed : j.feed row left c =
      j.note (j.matcher.feed left c).1 ⟨⟨row, Text.width left⟩, c⟩ := rfl
  have hcases := j.matcher.feedCase left c
  rw [hfeed]
  generalize j.matcher.feed left c = fed at hcases ⊢
  cases hcases with
  | passed hpending hmismatches hstep =>
    rw [note_of_passed _ hpending]
    refine ⟨⟨[], rfl, by simp⟩, fun _ => ⟨⟨h.traced, ?_, ?_⟩, h.events_eq⟩,
      fun hbalanced => absurd hbalanced hstep⟩
    · rw [hpending]
      exact h.waiting_eq
    · rw [hmismatches]
      exact h.mismatches_eq
  | closer hcloser hpending hmismatches =>
    rw [note_of_closer _ hpending]
    refine ⟨⟨[.waits _], rfl, by simp [BracketEvent.bracket]⟩,
      fun _ => ⟨⟨.waits h.traced hcloser h.events_eq hleft, ?_, ?_⟩, by simp⟩, by simp⟩
    · simp [hpending, h.waiting_eq]
    · simp [BracketEvent.isMismatch, hmismatches, h.mismatches_eq]
  | @opener m' closer hopener hpending hmismatches =>
    have hwaiting := h.waiting_eq
    rw [hpending] at hwaiting
    obtain ⟨b, rest, hb, rfl, hrest⟩ := List.map_eq_cons_iff.1 hwaiting
    have htraced : Traced j.events (b :: rest) := hb ▸ h.traced
    have hsound : Sound ⟨m', rest, .pairs ⟨⟨row, Text.width left⟩, c⟩ b :: j.events⟩ := by
      refine ⟨.pairs htraced hopener hleft, hrest, ?_⟩
      rw [List.countP_cons, h.mismatches_eq, hmismatches]
      by_cases hkind : openerOf? b.char = some c <;> simp [BracketEvent.isMismatch, hkind]
    rw [note_of_opener _ hpending hb]
    refine ⟨⟨[.pairs _ _], rfl, by simp [BracketEvent.bracket]⟩, ?_, ?_⟩
    · intro hmore
      refine ⟨hsound, ?_⟩
      rintro rfl
      simp [← hrest] at hmore
    · intro hbalanced
      have hnil : rest = [] := by
        by_contra hne
        simp [← hrest, hne] at hbalanced
      subst hnil
      exact ⟨hsound, _, _, _, rfl, rfl, htraced.getLast?_events b rfl⟩

/-! ## Rows -/

/-- What a journal says about a search with the given answer. -/
def Answers (j : Journal) : Option Position → Prop
  | none => j.IsOpen
  | some place => j.ClosedAt place

theorem Answers.sound {j : Journal} {answer : Option Position} (h : j.Answers answer) :
    j.Sound := by
  cases answer with
  | none => exact IsOpen.toSound h
  | some place => exact ClosedAt.toSound h

/-- A row adds events at characters of the row. -/
theorem IsOpen.searchRow {j : Journal} (h : j.IsOpen) {row : Nat} {reversed : Text}
    (hleft : ∀ e ∈ j.events, (⟨row, Text.width reversed⟩ : Position) ≤ e.bracket.place) :
    (∃ new, (j.searchRow row reversed).1.events = new ++ j.events ∧
      ∀ e ∈ new, ∃ right left, reversed = right ++ e.bracket.char :: left ∧
        e.bracket.place = ⟨row, Text.width left⟩) ∧
    (j.searchRow row reversed).1.Answers
      ((j.searchRow row reversed).2.map fun column => ⟨row, column⟩) := by
  induction reversed generalizing j with
  | nil => exact ⟨⟨[], rfl, by simp⟩, h⟩
  | cons c left ih =>
    have hbehind : ∀ e ∈ j.events, (⟨row, Text.width left⟩ : Position) < e.bracket.place := by
      intro e he
      have hle := hleft e he
      have hpos := c.utf8Size_pos
      rw [Position.le_def, Text.width_cons] at hle
      rw [Position.lt_def]
      dsimp only at hle ⊢
      omega
    obtain ⟨⟨new, hnew, hplaces⟩, hopen, hclosed⟩ := h.feed c hbehind
    have hfed : ∀ e ∈ new, ∃ right left', c :: left = right ++ e.bracket.char :: left' ∧
        e.bracket.place = ⟨row, Text.width left'⟩ := by
      intro e he
      rw [hplaces e he]
      exact ⟨[], left, rfl, rfl⟩
    rw [Journal.searchRow]
    split
    · rename_i hbalanced
      exact ⟨⟨new, hnew, hfed⟩, hclosed hbalanced⟩
    · rename_i hmore
      have hnext : ∀ e ∈ (j.feed row left c).events,
          (⟨row, Text.width left⟩ : Position) ≤ e.bracket.place := by
        intro e he
        rw [hnew] at he
        rcases List.mem_append.1 he with he | he
        · rw [hplaces e he]
          exact Position.le_refl _
        · exact Position.le_of_lt (hbehind e he)
      obtain ⟨⟨later, hlater, hrest⟩, hanswer⟩ := ih (hopen hmore) hnext
      refine ⟨⟨later ++ new, by rw [hlater, hnew, List.append_assoc], ?_⟩, hanswer⟩
      intro e he
      rcases List.mem_append.1 he with he | he
      · obtain ⟨right, left', hsplit, hplace⟩ := hrest e he
        exact ⟨c :: right, left', by rw [hsplit, List.cons_append], hplace⟩
      · exact hfed e he

/-- A search adds events at characters of its rows. -/
theorem IsOpen.search {j : Journal} (h : j.IsOpen) {rows : List (Nat × Text)}
    (hrows : rows.Pairwise fun lower upper => upper.1 < lower.1)
    (hleft : ∀ e ∈ j.events, ∀ row ∈ rows,
      (⟨row.1, Text.width row.2⟩ : Position) ≤ e.bracket.place) :
    (∃ new, (j.search rows).1.events = new ++ j.events ∧
      ∀ e ∈ new, ∃ front rest, (e.bracket.place.row, front ++ e.bracket.char :: rest) ∈ rows ∧
        Text.width front = e.bracket.place.column) ∧
    (j.search rows).1.Answers (j.search rows).2 := by
  induction rows generalizing j with
  | nil => exact ⟨⟨[], rfl, by simp⟩, h⟩
  | cons lowest above ih =>
    obtain ⟨row, text⟩ := lowest
    obtain ⟨habove, hrows⟩ := List.pairwise_cons.1 hrows
    have hbehind : ∀ e ∈ j.events,
        (⟨row, Text.width text.reverse⟩ : Position) ≤ e.bracket.place := by
      rw [Text.width_reverse]
      exact fun e he => hleft e he _ List.mem_cons_self
    obtain ⟨⟨new, hnew, hplaces⟩, hanswer⟩ := h.searchRow hbehind
    have hfed : ∀ e ∈ new, ∃ front rest,
        (e.bracket.place.row, front ++ e.bracket.char :: rest) ∈ (row, text) :: above ∧
          Text.width front = e.bracket.place.column := by
      intro e he
      obtain ⟨right, left, hreverse, hplace⟩ := hplaces e he
      have htext : text = left.reverse ++ e.bracket.char :: right.reverse := by
        rw [← List.reverse_reverse text, hreverse]
        simp
      refine ⟨left.reverse, right.reverse, ?_, ?_⟩
      · rw [hplace, ← htext]
        exact List.mem_cons_self
      · rw [hplace, Text.width_reverse]
    rw [Journal.search]
    cases hrow : j.searchRow row text.reverse with
    | mk reached found =>
      rw [hrow] at hnew hanswer
      cases found with
      | some column => exact ⟨⟨new, hnew, hfed⟩, hanswer⟩
      | none =>
        have hopen : reached.IsOpen := hanswer
        have hnext : ∀ e ∈ reached.events, ∀ upper ∈ above,
            (⟨upper.1, Text.width upper.2⟩ : Position) ≤ e.bracket.place := by
          intro e he upper hupper
          rw [show reached.events = new ++ j.events from hnew] at he
          rcases List.mem_append.1 he with he | he
          · obtain ⟨-, left, -, hplace⟩ := hplaces e he
            rw [hplace]
            exact .inl (habove upper hupper)
          · exact hleft e he upper (List.mem_cons_of_mem _ hupper)
        obtain ⟨⟨later, hlater, hrest⟩, hanswer⟩ := ih hopen.endLine hrows hnext
        refine ⟨⟨later ++ new, ?_, ?_⟩, hanswer⟩
        · rw [List.append_assoc, ← hnew]
          exact hlater
        · intro e he
          rcases List.mem_append.1 he with he | he
          · obtain ⟨front, rest, hmem, hwidth⟩ := hrest e he
            exact ⟨front, rest, List.mem_cons_of_mem _ hmem, hwidth⟩
          · exact hfed e he

end Journal

/-! ## Searches for an opener -/

theorem pairwise_rowsAbove (lines : List Text) (row : Nat) :
    (rowsAbove lines row).Pairwise fun lower upper => upper.1 < lower.1 := by
  induction row with
  | zero => exact .nil
  | succ row ih =>
    cases hline : lines[row]? with
    | none =>
      rw [rowsAbove_succ_of_none hline]
      exact ih
    | some line =>
      rw [rowsAbove_succ_of_some hline]
      exact .cons (fun upper hupper => (mem_rowsAbove hupper).1) ih

/-- A search reads the rows from the lowest upward. -/
theorem pairwise_upward (lines : List Text) (place : Position) :
    (upward lines place).Pairwise fun lower upper => upper.1 < lower.1 := by
  unfold upward
  split
  · exact .nil
  · refine .cons ?_ ((List.pairwise_map).2 (pairwise_rowsAbove lines place.row))
    rintro upper hupper
    obtain ⟨⟨number, text⟩, hmem, rfl⟩ := List.mem_map.1 hupper
    exact (mem_rowsAbove hmem).1

/-- The search for the opener of the closing bracket before `place`, with its journal. -/
def searchFrom (lines : List Text) (place : Position) : Journal × Option Position :=
  Journal.initial.search (upward lines place)

/-- What the search does at the brackets that it sees, in the order in which it sees them. -/
def bracketEvents (lines : List Text) (place : Position) : List BracketEvent :=
  (searchFrom lines place).1.events.reverse

/-- A bracket is a character of the document. -/
def Bracket.StandsIn (lines : List Text) (b : Bracket) : Prop :=
  ∃ front rest, lines[b.place.row]? = some (front ++ b.char :: rest) ∧
    Text.width front = b.place.column

section Events

variable {lines : List Text} {place : Position}

theorem answers_searchFrom (lines : List Text) (place : Position) :
    (searchFrom lines place).1.Answers (searchFrom lines place).2 :=
  (Journal.isOpen_initial.search (pairwise_upward lines place) (by simp [Journal.initial])).2

/-- **The answer of a search, and its count of mismatches, can be read off its journal.** -/
theorem findOpener_eq_search (lines : List Text) (place : Position) :
    findOpener lines place =
      ⟨(searchFrom lines place).2, (bracketEvents lines place).countP BracketEvent.isMismatch⟩ := by
  have hsearch : Matcher.initial.seek .balanced (upward lines place) =
      ((searchFrom lines place).1.matcher, (searchFrom lines place).2) :=
    Journal.initial.search_eq (upward lines place)
  have hcount := (answers_searchFrom lines place).sound.mismatches_eq
  rw [bracketEvents, List.countP_reverse, hcount, findOpener, hsearch]

/-- A search notes the brackets from the right to the left and upward. -/
theorem pairwise_bracketEvents (lines : List Text) (place : Position) :
    (bracketEvents lines place).Pairwise fun earlier later =>
      later.bracket.place < earlier.bracket.place :=
  List.pairwise_reverse.2 (answers_searchFrom lines place).sound.traced.pairwise

/-- Every bracket that a search notes stands in the rows that it reads. -/
theorem mem_upward_of_mem_bracketEvents {e : BracketEvent} (h : e ∈ bracketEvents lines place) :
    ∃ front rest, (e.bracket.place.row, front ++ e.bracket.char :: rest) ∈ upward lines place ∧
      Text.width front = e.bracket.place.column := by
  obtain ⟨⟨new, hnew, hfed⟩, -⟩ :=
    Journal.isOpen_initial.search (pairwise_upward lines place) (by simp [Journal.initial])
  rw [bracketEvents, List.mem_reverse, searchFrom, hnew, Journal.initial, List.append_nil] at h
  exact hfed e h

theorem standsIn_of_mem_bracketEvents {e : BracketEvent} (h : e ∈ bracketEvents lines place) :
    e.bracket.StandsIn lines ∧ e.bracket.place < place := by
  obtain ⟨front, rest, hmem, hwidth⟩ := mem_upward_of_mem_bracketEvents h
  have hfront : front ++ [e.bracket.char] <+: front ++ e.bracket.char :: rest := ⟨rest, by simp⟩
  obtain ⟨line, hline, ⟨tail, rfl⟩, -⟩ := mem_upward hmem
  refine ⟨⟨front, rest ++ tail, by simpa using hline, hwidth⟩, ?_⟩
  have hle := (isPlace_of_mem_upward hmem hfront).2
  have hpos := e.bracket.char.utf8Size_pos
  rw [Position.le_def, Text.width_append, Text.width_cons] at hle
  rw [Position.lt_def]
  dsimp only at hle
  omega

theorem closedAt_of_found {p : Position} (h : (findOpener lines place).opener = some p) :
    (searchFrom lines place).1.ClosedAt p := by
  have hanswers := answers_searchFrom lines place
  rw [findOpener_eq_search] at h
  rwa [show (searchFrom lines place).2 = some p from h] at hanswers

/-- **The last pair of a successful search.** It consists of the opener that was found and of the
closer that was noted before anything else. -/
theorem exists_first_of_search {p : Position} (h : (findOpener lines place).opener = some p) :
    ∃ first opener middle,
      bracketEvents lines place = .waits first :: (middle ++ [.pairs opener first]) ∧
      opener.place = p := by
  obtain ⟨-, opener, first, earlier, hevents, hplace, hfirst⟩ := closedAt_of_found h
  obtain ⟨middle, rfl⟩ := List.getLast?_eq_some_iff.1 hfirst
  exact ⟨first, opener, middle.reverse, by simp [bracketEvents, hevents], hplace⟩

/-- A successful search sees no bracket beyond the opener that it finds. -/
theorem le_of_mem_bracketEvents {p : Position} (h : (findOpener lines place).opener = some p)
    {e : BracketEvent} (he : e ∈ bracketEvents lines place) : p ≤ e.bracket.place := by
  obtain ⟨hsound, opener, first, earlier, hevents, rfl, -⟩ := closedAt_of_found h
  have hleft := hsound.traced.pairwise
  rw [bracketEvents, List.mem_reverse] at he
  rw [hevents] at hleft he
  rcases List.mem_cons.1 he with rfl | he
  · exact Position.le_refl _
  · exact Position.le_of_lt ((List.pairwise_cons.1 hleft).1 e he)

/-- An opener and a closer behind it that both stand in a span of the document. -/
structure PairedWithin (lines : List Text) (span : Span) (opener closer : Bracket) : Prop where
  isOpener_opener : isOpener opener.char = true
  isCloser_closer : isCloser closer.char = true
  opener_standsIn : opener.StandsIn lines
  closer_standsIn : closer.StandsIn lines
  start_le : span.start ≤ opener.place
  opener_lt_closer : opener.place < closer.place
  closer_lt_stop : closer.place < span.stop

theorem PairedWithin.mono {span span' : Span} {opener closer : Bracket}
    (h : PairedWithin lines span opener closer) (hstart : span'.start ≤ span.start)
    (hstop : span.stop ≤ span'.stop) : PairedWithin lines span' opener closer where
  isOpener_opener := h.isOpener_opener
  isCloser_closer := h.isCloser_closer
  opener_standsIn := h.opener_standsIn
  closer_standsIn := h.closer_standsIn
  start_le := Position.le_trans hstart h.start_le
  opener_lt_closer := h.opener_lt_closer
  closer_lt_stop := Position.lt_of_lt_of_le h.closer_lt_stop hstop

/-- What a search has paired stands before the place where it started. -/
theorem pairedWithin_of_mem {opener closer : Bracket}
    (h : .pairs opener closer ∈ bracketEvents lines place) :
    PairedWithin lines ⟨.origin, place⟩ opener closer := by
  have htraced := (answers_searchFrom lines place).sound.traced
  obtain ⟨hopener, hwaits, hlt⟩ := htraced.of_pairs opener closer (List.mem_reverse.1 h)
  obtain ⟨hstandsIn, hbefore⟩ := standsIn_of_mem_bracketEvents (List.mem_reverse.2 hwaits)
  exact ⟨hopener, htraced.isCloser_of_waits closer hwaits, (standsIn_of_mem_bracketEvents h).1,
    hstandsIn, by simp [Position.le_def, Position.origin]; omega, hlt, hbefore⟩

/-- What a successful search has paired stands between the opener that it found and the place where
it started. -/
theorem pairedWithin_of_found {p : Position} (hp : (findOpener lines place).opener = some p)
    {opener closer : Bracket} (h : .pairs opener closer ∈ bracketEvents lines place) :
    PairedWithin lines ⟨p, place⟩ opener closer := by
  have hwithin := pairedWithin_of_mem h
  exact { hwithin with start_le := le_of_mem_bracketEvents hp h }

end Events

end DotTarget
