import DotTarget.Lexical.Scan
import DotTarget.Proofs.Lexical.AtomEnd
import DotTarget.Proofs.Lexical.BracketSearch

set_option autoImplicit false

/-! # Scanning postfix chains

A postfix chain is a name followed, without gaps, by members `.name` and by groups `( ... )` and
`[ ... ]` that may hold literals, comments and whole rows. Before a trigger, the scan finds such a
chain exactly (`scan_postfixChain`): it moves left over one piece at each step, a group, a run of
members behind a group, or the dotted name at the front, and then it stays. -/

namespace DotTarget

/-! ## Chains -/

/-- A stream whose brackets are properly nested and of matching kinds. -/
inductive Nested : List Lexeme → Prop where
  | nil : Nested []
  | plain {c : Char} {h : isPlain c = true} {s : List Lexeme} (hs : Nested s) :
      Nested (.plain c h :: s)
  | literal {l : Literal} {s : List Lexeme} (hs : Nested s) : Nested (.literal l :: s)
  | rowEnd {comment : Option Text} {s : List Lexeme} (hs : Nested s) : Nested (.rowEnd comment :: s)
  | group {o c : Char} {ho : isBracket o = true} {hc : isBracket c = true} {inner s : List Lexeme}
      (hkind : openerOf? c = some o) (hinner : Nested inner) (hs : Nested s) :
      Nested (.bracket o ho :: (inner ++ .bracket c hc :: s))

theorem isCloser_of_openerOf? {o c : Char} (h : openerOf? c = some o) :
    isCloser c = true ∧ isOpener o = true := by
  unfold openerOf? at h
  split at h
  · obtain rfl := Option.some.inj h
    decide
  · obtain rfl := Option.some.inj h
    decide
  · obtain rfl := Option.some.inj h
    decide
  · exact absurd h (by simp)

/-- A pair of parentheses or square brackets and what stands between them. -/
structure Group where
  opener : Char
  inner : List Lexeme
  closer : Char
  kind : (opener = '(' ∧ closer = ')') ∨ (opener = '[' ∧ closer = ']')
  nested : Nested inner

namespace Group

theorem openerOf?_closer (g : Group) : openerOf? g.closer = some g.opener := by
  rcases g.kind with ⟨ho, hc⟩ | ⟨ho, hc⟩ <;> rw [ho, hc] <;> decide

theorem isOpener_opener (g : Group) : isOpener g.opener = true :=
  (isCloser_of_openerOf? g.openerOf?_closer).2

theorem isCloser_closer (g : Group) : isCloser g.closer = true :=
  (isCloser_of_openerOf? g.openerOf?_closer).1

def stream (g : Group) : List Lexeme :=
  .bracket g.opener (by simp [isBracket, g.isOpener_opener]) ::
    (g.inner ++ [.bracket g.closer (by simp [isBracket, g.isCloser_closer])])

end Group

/-- Plain characters as a stream. -/
def plains (t : Text) (h : ∀ c ∈ t, isPlain c = true) : List Lexeme :=
  t.pmap Lexeme.plain h

namespace Name

theorem isPlain_of_isNamePart {c : Char} (h : CharClass.isNamePart c = true ∨ c = '.') :
    isPlain c = true := by
  rcases h with h | rfl
  · exact isPlain_of (by decide) h
  · decide

def stream (name : Name) : List Lexeme :=
  plains name.text fun c hc => isPlain_of_isNamePart (.inl (name.isNamePart_of_mem_text c hc))

/-- Names with a dot before each of them, as a stream. -/
def members (names : List Name) : List Lexeme :=
  plains (dotted names) fun c hc => isPlain_of_isNamePart (isNamePart_of_mem_dotted names c hc)

theorem members_append (names more : List Name) :
    members (names ++ more) = members names ++ members more := by
  simp [members, plains, dotted, List.pmap_append]

end Name

/-- What can follow an expression without a gap. -/
inductive Postfix where
  | member (name : Name)
  | group (g : Group)

def Postfix.stream : Postfix → List Lexeme
  | member name => Name.members [name]
  | group g => g.stream

/-- A name and what follows it without gaps. -/
structure PostfixChain where
  head : Name
  postfixes : List Postfix

namespace PostfixChain

def stream (e : PostfixChain) : List Lexeme :=
  e.head.stream ++ e.postfixes.flatMap Postfix.stream

/-- The members before the first group. -/
def leadingMembers : List Postfix → List Name
  | .member name :: rest => name :: leadingMembers rest
  | _ => []

/-- The dotted name at the front. -/
def leading (e : PostfixChain) : Text :=
  e.head.text ++ Name.dotted (leadingMembers e.postfixes)

/-- The number of groups and of runs of members behind a group. -/
def laterPieces : List Postfix → Nat
  | [] => 0
  | .member _ :: rest => laterPieces rest
  | .group _ :: rest => laterPieces rest + if (leadingMembers rest).isEmpty then 1 else 2

/-- How many pieces a scan takes the chain apart into. -/
def pieces (e : PostfixChain) : Nat :=
  laterPieces e.postfixes + 1

end PostfixChain

/-! ## Layout -/

/-- Plain characters make the last row longer and change nothing else. -/
theorem layout_append_plains (s : List Lexeme) (t : Text) (h : ∀ c ∈ t, isPlain c = true) :
    layout (s ++ plains t h) = { layout s with row := (layout s).row ++ t } := by
  induction t generalizing s with
  | nil => simp [plains]
  | cons c t ih =>
    have hstep := ih (s ++ [.plain c (h c List.mem_cons_self)])
      fun d hd => h d (List.mem_cons_of_mem _ hd)
    simpa [plains, Layout.push] using hstep

theorem Group.append_stream (g : Group) (s : List Lexeme) :
    s ++ g.stream = s ++ [.bracket g.opener (by simp [isBracket, g.isOpener_opener])] ++ g.inner ++
      [.bracket g.closer (by simp [isBracket, g.isCloser_closer])] := by
  simp [Group.stream]

theorem Group.getLast?_row (g : Group) (s : List Lexeme) :
    (layout (s ++ g.stream)).row.getLast? = some g.closer := by
  rw [g.append_stream, layout_concat]
  simp [Layout.push]

/-! ## Searching past nested brackets -/

/-- While a closer is pending, a search passes over nested brackets and pairs each of them with one
of its kind. -/
theorem Matcher.pair_nested {inner : List Lexeme} (h : Nested inner) (s : List Lexeme)
    {pending : List Char} (hpending : pending ≠ []) (n : Nat) :
    pair .balanced ⟨.code, pending, n, 0⟩ (layout (s ++ inner)).brackets =
      pair .balanced ⟨.code, pending, n, 0⟩ (layout s).brackets := by
  induction h generalizing s pending with
  | nil => rw [List.append_nil]
  | @plain c hc rest _ ih =>
    rw [List.append_cons, ih _ hpending, layout_concat]
    rfl
  | @literal l rest _ ih =>
    rw [List.append_cons, ih _ hpending, layout_concat]
    rfl
  | @rowEnd comment rest _ ih =>
    rw [List.append_cons, ih _ hpending, layout_concat]
    rfl
  | @group o c ho hc inner rest hkind _ _ ihInner ihRest =>
    obtain ⟨hcloser, hopener⟩ := isCloser_of_openerOf? hkind
    have hsplit : s ++ .bracket o ho :: (inner ++ .bracket c hc :: rest) =
        s ++ [.bracket o ho] ++ inner ++ [.bracket c hc] ++ rest := by
      simp
    -- The closer waits on top while what it encloses pairs off; then its opener takes it.
    rw [hsplit, ihRest _ hpending, layout_concat, Layout.push, pair, feedCode_closer hcloser]
    simp only [reduceCtorEq, if_false]
    rw [ihInner _ (by simp), layout_concat, Layout.push, pair, feedCode_opener hopener]
    simp [hkind, hpending]

/-- The opener of a group is found right where the group starts. -/
theorem findOpener_group {lines : List Text} {place : Position} {s : List Lexeme} (g : Group)
    (h : IsLexing lines place (s ++ g.stream)) :
    findOpener lines place = ⟨some (layout s).place, 0⟩ := by
  have hpair : Matcher.initial.seek .balanced (upward lines place) =
      (⟨.code, [], 0, 0⟩, some (layout s).place) := by
    rw [h.upward_eq]
    refine (Matcher.seek_eq_pair (by decide) h.wellLexed [] 0).trans ?_
    rw [g.append_stream, layout_concat, Layout.push, Matcher.pair,
      Matcher.feedCode_closer g.isCloser_closer]
    simp only [reduceCtorEq, if_false]
    rw [Matcher.pair_nested g.nested _ (by simp), layout_concat, Layout.push, Matcher.pair,
      Matcher.feedCode_opener g.isOpener_opener]
    simp [g.openerOf?_closer]
  rw [findOpener, hpair]

/-! ## Single steps -/

theorem Layout.place_lt_push (page : Layout) (l : Lexeme) : page.place < (page.push l).place := by
  rw [Position.lt_def]
  cases l with
  | plain c hc =>
    have := c.utf8Size_pos
    simp [push, place]
    omega
  | bracket c hc =>
    have := c.utf8Size_pos
    simp [push, place]
    omega
  | literal l =>
    have := l.quote.utf8Size_pos
    cases hlong : l.long <;> simp [push, place, Literal.text, Literal.delimiter, hlong] <;> omega
  | rowEnd comment => simp [push, place]

/-- More lexemes lead further right or down. -/
theorem place_lt_append (s : List Lexeme) {t : List Lexeme} (ht : t ≠ []) :
    (layout s).place < (layout (s ++ t)).place := by
  induction t using List.reverseRecOn with
  | nil => exact absurd rfl ht
  | append_singleton t l ih =>
    have hlast := (layout (s ++ t)).place_lt_push l
    rw [← List.append_assoc, layout_concat]
    by_cases hnil : t = []
    · simpa [hnil] using hlast
    · have hmore := ih hnil
      rw [Position.lt_def] at hmore hlast ⊢
      omega

section Steps

variable {lines : List Text} {place : Position} {s : List Lexeme}

theorem IsLexing.clamp_eq (h : IsLexing lines place s) :
    Scan.clamp lines place = (layout s).place := by
  obtain ⟨line, hline, hcut⟩ := h.row_eq
  rw [Scan.clamp, hline]
  simp only [hcut, Layout.place, h.row_eq_length]

/-- Behind a group a step leads to where the group starts. -/
theorem step_group (g : Group) (h : IsLexing lines place (s ++ g.stream)) :
    Scan.step lines place = ((layout s).place, 0) := by
  obtain ⟨line, hline, hcut⟩ := h.row_eq
  simp [Scan.step, hline, hcut, g.getLast?_row s, g.isCloser_closer, findOpener_group g h]

/-- Behind an atom of plain characters a step leads to where the atom starts, or to the receiver if
it is a member. -/
theorem step_plains {t : Text} {ht : ∀ c ∈ t, isPlain c = true}
    (h : IsLexing lines place (s ++ plains t ht)) (hne : t ≠ [])
    (hatom : atomEnd ((layout s).row ++ t) = some t) :
    Scan.step lines place =
      if Scan.isMemberAccess t then
        ((Scan.memberReceiver lines (layout s).place).getD place, 0)
      else ((layout s).place, 0) := by
  have hlayout := layout_append_plains s t ht
  have hrow := h.row_eq_length
  obtain ⟨line, hline, hcut⟩ := h.row_eq
  rw [hlayout] at hcut hrow
  obtain ⟨c, hc⟩ : ∃ c, t.getLast? = some c := by
    cases hlast : t.getLast? with
    | none => exact absurd (List.getLast?_eq_none_iff.1 hlast) hne
    | some c => exact ⟨c, rfl⟩
  have hcloser : isCloser c = false := isCloser_of_isPlain (ht c (List.mem_of_getLast? hc))
  have hlast : ((layout s).row ++ t).getLast? = some c := by
    rw [List.getLast?_append, hc]
    rfl
  have hstart : (⟨place.row, Text.width ((layout s).row ++ t) - Text.width t⟩ : Position) =
      (layout s).place := by
    simp [Layout.place, hrow]
  simp only [Scan.step, hline, hcut, hlast, hcloser, hatom, hstart, Bool.false_eq_true, if_false]

/-- Right behind a closer, a member's scan goes on at its dot. -/
theorem memberReceiver_of_closer (h : IsLexing lines (layout s).place s) {c : Char}
    (hlast : (layout s).row.getLast? = some c) (hcloser : isCloser c = true) :
    Scan.memberReceiver lines (layout s).place = some (layout s).place := by
  simp [Scan.memberReceiver, h.upward_eq, numbered, hlast, hcloser]

/-- Behind members that follow a group a step leads to the end of the group. -/
theorem step_members {names : List Name} (h : IsLexing lines place (s ++ Name.members names))
    (hnames : names ≠ []) {c : Char} (hlast : (layout s).row.getLast? = some c)
    (hcloser : isCloser c = true) :
    Scan.step lines place = ((layout s).place, 0) := by
  have hsturdy : ∀ d ∈ (layout s).row.getLast?, Atom.isSturdy d = false := by
    rw [hlast]
    rintro d hd
    obtain rfl := Option.some.inj hd
    simp only [isCloser, Bool.or_eq_true, decide_eq_true_eq] at hcloser
    rcases hcloser with (rfl | rfl) | rfl <;> decide
  cases names with
  | nil => exact absurd rfl hnames
  | cons name names =>
    have hstep := step_plains h (by simp [Name.dotted]) (atomEnd_members hsturdy (by simp))
    have hmember : Scan.isMemberAccess (Name.dotted (name :: names)) = true :=
      name.isMemberAccess_member (Name.dotted names)
    rw [hstep, if_pos hmember, memberReceiver_of_closer h.of_append hlast hcloser]
    rfl

/-- Behind a dotted name a step leads to where it starts. -/
theorem step_leading (name : Name) {names : List Name}
    (h : IsLexing lines place (s ++ (name.stream ++ Name.members names)))
    (hword : Atom.isKeyword (name.text ++ Name.dotted names) = false)
    (hbefore : ∀ c ∈ (layout s).row.getLast?, Atom.isSturdy c = false) :
    Scan.step lines place = ((layout s).place, 0) := by
  have hplain : ∀ c ∈ name.text ++ Name.dotted names, isPlain c = true := by
    intro c hc
    refine Name.isPlain_of_isNamePart ?_
    rcases List.mem_append.1 hc with hc | hc
    · exact .inl (name.isNamePart_of_mem_text c hc)
    · exact Name.isNamePart_of_mem_dotted names c hc
  have hstream : name.stream ++ Name.members names =
      plains (name.text ++ Name.dotted names) hplain := by
    simp [Name.stream, Name.members, plains, List.pmap_append]
  rw [hstream] at h
  have hstep := step_plains h (by simp [Name.text]) (atomEnd_name hbefore name names hword)
  rw [hstep, if_neg (by simp [name.isMemberAccess_text])]

/-- A step stays where nothing that belongs to an expression precedes. -/
theorem step_stay (h : IsLexing lines place s)
    (hbefore : ∀ c ∈ (layout s).row.getLast?, Atom.isSturdy c = false)
    (hcloser : ∀ c ∈ (layout s).row.getLast?, isCloser c = false) :
    Scan.step lines place = (place, 0) := by
  obtain ⟨line, hline, hcut⟩ := h.row_eq
  cases hlast : (layout s).row.getLast? with
  | none => simp [Scan.step, hline, hcut, hlast]
  | some c =>
    have hc := hcloser c (by simp [hlast])
    simp [Scan.step, hline, hcut, hlast, hc, atomEnd_eq_none hbefore]

end Steps

/-! ## Whole walks -/

/-- Given steps enough, a walk from `place` ends at `start` with its step number `steps`, and meets
no brackets of different kinds. -/
def WalksTo (lines : List Text) (place start : Position) (steps : Nat) : Prop :=
  ∀ cap, steps ≤ cap → Scan.walk lines cap place = .ok ⟨start, steps, 0, true⟩

namespace WalksTo

variable {lines : List Text} {place next start : Position} {steps : Nat}

theorem stay (h : Scan.step lines place = (place, 0)) : WalksTo lines place place 1 := by
  intro cap hcap
  obtain ⟨cap, rfl⟩ : ∃ n, cap = n + 1 := ⟨cap - 1, by omega⟩
  rw [Scan.walk_of_step_eq cap (by rw [h]), h]

theorem move (h : Scan.step lines place = (next, 0)) (hlt : next < place)
    (hnext : WalksTo lines next start steps) : WalksTo lines place start (steps + 1) := by
  intro cap hcap
  obtain ⟨cap, rfl⟩ : ∃ n, cap = n + 1 := ⟨cap - 1, by omega⟩
  have hrest := hnext cap (by omega)
  rw [Scan.walk_of_step_lt (by rw [h]; exact hlt) (by rw [h]; exact hrest), h]
  rfl

end WalksTo

namespace PostfixChain

theorem leadingMembers_members (run : List Name) : leadingMembers (run.map .member) = run := by
  induction run with
  | nil => rfl
  | cons name run ih => simp [leadingMembers, ih]

theorem leadingMembers_append_group (ps : List Postfix) (g : Group) (rest : List Postfix) :
    leadingMembers (ps ++ .group g :: rest) = leadingMembers ps := by
  induction ps with
  | nil => rfl
  | cons p ps ih =>
    cases p with
    | member name => simp [leadingMembers, ih]
    | group g => rfl

theorem laterPieces_members (run : List Name) : laterPieces (run.map .member) = 0 := by
  induction run with
  | nil => rfl
  | cons name run ih => simpa [laterPieces] using ih

/-- A last group with the members behind it adds one or two pieces. -/
theorem laterPieces_append_group (ps : List Postfix) (g : Group) (run : List Name) :
    laterPieces (ps ++ .group g :: run.map .member) =
      laterPieces ps + if run.isEmpty then 1 else 2 := by
  induction ps with
  | nil => simp [laterPieces, leadingMembers_members, laterPieces_members]
  | cons p ps ih =>
    cases p with
    | member name => simpa [laterPieces] using ih
    | group g =>
      simp only [List.cons_append, laterPieces, leadingMembers_append_group, ih]
      omega

/-- A group and the first member behind it stand for all the pieces that the group adds. -/
theorem laterPieces_le (ps : List Postfix) :
    laterPieces ps + (leadingMembers ps).length ≤ ps.length := by
  induction ps with
  | nil => simp [laterPieces, leadingMembers]
  | cons p ps ih =>
    cases p with
    | member name =>
      simp only [laterPieces, leadingMembers, List.length_cons]
      omega
    | group g =>
      simp only [laterPieces, leadingMembers, List.length_nil, List.length_cons]
      cases hmembers : leadingMembers ps with
      | nil =>
        simp only [List.isEmpty_nil, if_true]
        omega
      | cons name names =>
        rw [hmembers, List.length_cons] at ih
        simp only [List.isEmpty_cons, Bool.false_eq_true, if_false]
        omega

theorem pieces_le (e : PostfixChain) : e.pieces ≤ e.postfixes.length + 1 := by
  have := laterPieces_le e.postfixes
  rw [pieces]
  omega

theorem flatMap_stream_members (run : List Name) :
    (run.map Postfix.member).flatMap Postfix.stream = Name.members run := by
  induction run with
  | nil => rfl
  | cons name run ih =>
    rw [List.map_cons, List.flatMap_cons, ih, Postfix.stream, ← Name.members_append]
    rfl

/-- A walk from the end of a chain ends at its front. The chain is given as two parts, of which the
second is a run of members. -/
theorem walksTo_front {lines : List Text} {front : List Lexeme} (head : Name) (ps : List Postfix)
    (run : List Name)
    (h : IsLexing lines (layout (front ++ stream ⟨head, ps ++ run.map .member⟩)).place
      (front ++ stream ⟨head, ps ++ run.map .member⟩))
    (hword : Atom.isKeyword (leading ⟨head, ps ++ run.map .member⟩) = false)
    (hbefore : ∀ c ∈ (layout front).row.getLast?, Atom.isSturdy c = false)
    (hcloser : ∀ c ∈ (layout front).row.getLast?, isCloser c = false) :
    WalksTo lines (layout (front ++ stream ⟨head, ps ++ run.map .member⟩)).place
      (layout front).place (pieces ⟨head, ps ++ run.map .member⟩ + 1) := by
  -- The induction takes the first part apart from its end. A member joins the run behind it, and a
  -- group ends the run, so that the next run is empty.
  induction ps using List.reverseRecOn generalizing run with
  | nil =>
    simp only [stream, leading, pieces, List.nil_append, flatMap_stream_members,
      leadingMembers_members, laterPieces_members] at h hword ⊢
    refine .move (step_leading head h hword hbefore) (place_lt_append _ ?_)
      (.stay (step_stay h.of_append hbefore hcloser))
    simp [Name.stream, Name.text, plains]
  | append_singleton ps p ih =>
    cases p with
    | member name =>
      have heq : ps ++ [.member name] ++ run.map .member = ps ++ (name :: run).map .member := by
        simp
      rw [heq] at h hword ⊢
      exact ih (name :: run) h hword
    | group g =>
      have hstream : front ++ stream ⟨head, ps ++ [.group g] ++ run.map .member⟩ =
          front ++ stream ⟨head, ps⟩ ++ g.stream ++ Name.members run := by
        simp [stream, Postfix.stream, flatMap_stream_members]
      have hpieces : pieces ⟨head, ps ++ [.group g] ++ run.map .member⟩ =
          pieces ⟨head, ps⟩ + if run.isEmpty then 1 else 2 := by
        simp only [pieces, List.append_assoc, List.singleton_append, laterPieces_append_group]
        omega
      have hleading : leading ⟨head, ps ++ [.group g] ++ run.map .member⟩ = leading ⟨head, ps⟩ := by
        simp only [leading, List.append_assoc, List.singleton_append, leadingMembers_append_group]
      rw [hstream] at h ⊢
      rw [hleading] at hword
      rw [hpieces]
      -- From behind the run to behind the group, from there to before it, then on.
      have hfront : WalksTo lines (layout (front ++ stream ⟨head, ps⟩)).place (layout front).place
          (pieces ⟨head, ps⟩ + 1) := by
        have hempty := ih []
        simp only [List.map_nil, List.append_nil] at hempty
        exact hempty h.of_append.of_append hword
      have hgroup : WalksTo lines (layout (front ++ stream ⟨head, ps⟩ ++ g.stream)).place
          (layout front).place (pieces ⟨head, ps⟩ + 1 + 1) :=
        .move (step_group g h.of_append) (place_lt_append _ (by simp [Group.stream])) hfront
      cases run with
      | nil => simpa [Name.members, plains, Name.dotted] using hgroup
      | cons name run =>
        refine .move (step_members h (by simp) (g.getLast?_row _) g.isCloser_closer)
          (place_lt_append _ ?_) hgroup
        simp [Name.members, plains, Name.dotted]

end PostfixChain

/-- **A scan before a trigger finds a postfix chain exactly.** The document up to the trigger ends
with the chain, nothing that could belong to an expression stands before it, and the dotted name at
its front is no bare keyword. Then the scan gives the span of the chain, by itself and without
having met brackets of different kinds, whenever it may take one step more than the chain has
pieces. Those are never more than its names and groups. -/
theorem scan_postfixChain {lines : List Text} {place : Position} {front : List Lexeme}
    (e : PostfixChain) (h : IsLexing lines (place.shiftedLeft 1) (front ++ e.stream))
    (hword : Atom.isKeyword e.leading = false)
    (hbefore : ∀ c ∈ (layout front).row.getLast?, Atom.isSturdy c = false ∧ isCloser c = false) :
    e.pieces ≤ e.postfixes.length + 1 ∧
    ∀ cap, e.pieces < cap → scan lines place cap = .ok
      { span := ⟨(layout front).place, (layout (front ++ e.stream)).place⟩
        iterations := e.pieces + 1
        mismatches := 0
        converged := true } := by
  refine ⟨e.pieces_le, fun cap hcap => ?_⟩
  obtain ⟨head, ps⟩ := e
  have hwalk := PostfixChain.walksTo_front head ps [] (by simpa using h.self) (by simpa using hword)
    (fun c hc => (hbefore c hc).1) (fun c hc => (hbefore c hc).2)
  simp only [List.map_nil, List.append_nil] at hwalk
  have hle : (layout front).place ≤ (layout (front ++ PostfixChain.stream ⟨head, ps⟩)).place := by
    refine Position.le_iff_lt_or_eq.2 (.inl (place_lt_append _ ?_))
    simp [PostfixChain.stream, Name.stream, Name.text, plains]
  rw [scan, h.clamp_eq, hwalk cap hcap]
  simp [bind, Except.bind, pure, Except.pure, Span.ordered, hle]

/-! ## A chain over two rows -/

/-- A chain with two groups, of which the first holds literals and a comment. -/
def chainLines : List Text :=
  ["x = f(\"\\\")\", # ]".toList, "'''('''[0])[1].a.b.".toList]

/-- A name of one character. -/
def letter (c : Char) (h : CharClass.isNameStart c = true) : Name :=
  ⟨c, [], h, by simp⟩

def chainFront : List Lexeme :=
  plains "x = ".toList (List.all_eq_true.1 rfl)

theorem nested_sampleInner : Nested sampleInner :=
  .literal (.plain (.plain (.rowEnd (.literal
    (@Nested.group '[' ']' rfl rfl [.plain '0' rfl] [] rfl (.plain .nil) .nil)))))

def chainGroup : Group where
  opener := '('
  inner := sampleInner
  closer := ')'
  kind := .inl ⟨rfl, rfl⟩
  nested := nested_sampleInner

def chainIndex : Group where
  opener := '['
  inner := [.plain '1' rfl]
  closer := ']'
  kind := .inr ⟨rfl, rfl⟩
  nested := .plain .nil

def sampleChain : PostfixChain where
  head := letter 'f' (by decide)
  postfixes := [.group chainGroup, .group chainIndex, .member (letter 'a' (by decide)),
    .member (letter 'b' (by decide))]

theorem isLexing_sampleChain :
    IsLexing chainLines ⟨1, 18⟩ (chainFront ++ sampleChain.stream) where
  wellLexed := by
    simp [WellLexed, chainFront, sampleChain, PostfixChain.stream, Postfix.stream, Group.stream,
      chainGroup, sampleInner, chainIndex, letter, Name.stream, Name.members, Name.dotted,
      Name.text, plains, Lexeme.MayTouch]
  above_eq := by decide
  row_eq := ⟨_, rfl, by decide⟩

theorem scan_sampleChain :
    scan chainLines ⟨1, 19⟩ 5 = .ok
      { span := ⟨⟨0, 4⟩, ⟨1, 18⟩⟩
        iterations := 5
        mismatches := 0
        converged := true } := by
  have hbefore : ∀ c ∈ (layout chainFront).row.getLast?,
      Atom.isSturdy c = false ∧ isCloser c = false := by
    intro c hc
    obtain rfl : ' ' = c := Option.some.inj hc
    decide
  exact (scan_postfixChain sampleChain isLexing_sampleChain (by decide) hbefore).2 5 (by decide)

end DotTarget
