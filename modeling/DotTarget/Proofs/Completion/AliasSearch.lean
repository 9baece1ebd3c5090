import DotTarget.Completion.Alias
import DotTarget.Proofs.Completion.TriggerSearch
import DotTarget.Proofs.Lexical.AtomEnd
import DotTarget.Proofs.Lexical.EnclosingOpener

set_option autoImplicit false

/-! # The search for an alias target

An `as` clause repeats the name before it. From the word at the cursor the search goes to the left
over blanks, and from the start of the row upward over blank rows; where it meets a word character
first, the name is the word that ends there. `AliasSite` says this by splitting the rows, and the
search finds exactly these sites (`aliasTarget_eq_some_iff`).

`aliasTarget` takes rows apart as lists of characters. `checkedAliasTarget` is the same search over
bytes and machine words, in which every index, sum or slice that does not exist is a `Fault`. None
of these faults happens (`checkedAliasTarget_eq_ok`). Both are put together in
`aliasTarget_exact`. -/

namespace DotTarget

open CharClass (isBlank isWordChar)

/-! ## Sites -/

/-- A name that an `as` clause at the cursor would repeat. The word at the cursor is `typed`. With
its row cut before that word, the document ends with the name and blanks: the `gap` on the row of
the name, and the rows below it. -/
structure AliasSite (lines : List Text) (cursor : Position) where
  line : Text
  typed : Word
  row : Nat
  front : Text
  name : Text
  gap : Text
  line_eq : lines[cursor.row]? = some line
  three_le_width : 3 ≤ Text.width line
  touches : typed.Touches line cursor.column
  head?_eq : typed.word.head? = some 'a'
  row_le : row ≤ cursor.row
  text_eq : (lines.set cursor.row typed.before)[row]? = some (front ++ name ++ gap)
  below_isBlank : ∀ number, row < number → number ≤ cursor.row →
    ∀ text ∈ (lines.set cursor.row typed.before)[number]?, ∀ c ∈ text, isBlank c = true
  gap_isBlank : ∀ c ∈ gap, isBlank c = true
  name_ne_nil : name ≠ []
  name_isWord : ∀ c ∈ name, isWordChar c = true
  front_last : ∀ c ∈ front.getLast?, isWordChar c = false

namespace AliasSite

variable {lines : List Text} {cursor : Position} (site : AliasSite lines cursor)

/-- The span of the name. -/
def span : Span :=
  ⟨⟨site.row, Text.width site.front⟩, ⟨site.row, Text.width (site.front ++ site.name)⟩⟩

/-- A name ends with a word character, which is no blank. -/
theorem last_not_isBlank : ∀ c ∈ (site.front ++ site.name).getLast?, isBlank c = false := by
  intro c hc
  rw [List.getLast?_append_of_ne_nil _ site.name_ne_nil] at hc
  exact CharClass.isBlank_of_isWordChar (site.name_isWord c (List.mem_of_mem_getLast? hc))

end AliasSite

/-! ## The nearest row that is not blank -/

/-- The nearest of the rows above a row that is not blank, without the blanks at its end. -/
def nearestAbove? (lines : List Text) (row : Nat) : Option (Nat × Text) :=
  ((rowsAbove lines row).map fun (row, text) => (row, Text.trimEnd text)).find?
    fun (_, text) => !text.isEmpty

section NearestAbove

variable {lines : List Text} {start row : Nat} {line text : Text}

theorem nearestAbove?_succ_of_blank (h : ∀ line ∈ lines[start]?, Text.trimEnd line = []) :
    nearestAbove? lines (start + 1) = nearestAbove? lines start := by
  cases hline : lines[start]? with
  | none => rw [nearestAbove?, rowsAbove_succ_of_none hline, nearestAbove?]
  | some line =>
    rw [nearestAbove?, rowsAbove_succ_of_some hline, List.map_cons,
      List.find?_cons_of_neg (by simp [h line hline]), nearestAbove?]

theorem nearestAbove?_succ_of_text (h : lines[start]? = some line) (hne : Text.trimEnd line ≠ []) :
    nearestAbove? lines (start + 1) = some (start, Text.trimEnd line) := by
  rw [nearestAbove?, rowsAbove_succ_of_some h, List.map_cons, List.find?_cons_of_pos]
  simpa using hne

/-- The row found is not blank, and all rows between it and the starting row are. -/
theorem nearestAbove?_eq_some_iff :
    nearestAbove? lines start = some (row, text) ↔
      row < start ∧ (∃ line, lines[row]? = some line ∧ Text.trimEnd line = text) ∧ text ≠ [] ∧
        ∀ number, row < number → number < start →
          ∀ line ∈ lines[number]?, Text.trimEnd line = [] := by
  induction start with
  | zero => simp [nearestAbove?, rowsAbove]
  | succ start ih =>
    by_cases hblank : ∀ line ∈ lines[start]?, Text.trimEnd line = []
    · rw [nearestAbove?_succ_of_blank hblank, ih]
      constructor
      · rintro ⟨hlt, hrow, hne, hbetween⟩
        refine ⟨by omega, hrow, hne, fun number hlow hhigh => ?_⟩
        rcases Nat.lt_succ_iff_lt_or_eq.1 hhigh with hlt | rfl
        · exact hbetween number hlow hlt
        · exact hblank
      · rintro ⟨hlt, ⟨line, hline, rfl⟩, hne, hbetween⟩
        have hother : row ≠ start := by
          rintro rfl
          exact hne (hblank line hline)
        exact ⟨by omega, ⟨line, hline, rfl⟩, hne, fun number hlow hhigh =>
          hbetween number hlow (by omega)⟩
    · push Not at hblank
      obtain ⟨line, hline, hne⟩ := hblank
      rw [nearestAbove?_succ_of_text hline hne, Option.some.injEq, Prod.mk.injEq]
      constructor
      · rintro ⟨rfl, rfl⟩
        exact ⟨Nat.lt_succ_self _, ⟨line, hline, rfl⟩, hne, fun number hlow hhigh =>
          absurd hlow (by omega)⟩
      · rintro ⟨hlt, ⟨other, hother, rfl⟩, -, hbetween⟩
        -- Only blank rows lie below the one meant, so it is the row found.
        obtain rfl : row = start := by
          by_contra hdiff
          exact hne (hbetween start (by omega) (Nat.lt_succ_self _) line hline)
        rw [Option.mem_def, hother, Option.some.injEq] at hline
        exact ⟨rfl, by rw [hline]⟩

end NearestAbove

/-! ## The search along the rows -/

/-- The word at the end of a text. -/
theorem Word.around_width (t : Text) :
    Word.around t (Text.width t) = ⟨t.rdropWhile isWordChar, t.rtakeWhile isWordChar, []⟩ := by
  have hcut : Text.cut t (Text.width t) = t := Text.cut_of_width_le (Nat.le_refl _)
  simpa using Word.around_eq (List.append_nil t).symm hcut

/-- The rows that are looked at are those of the document, with the row of the cursor cut before the
word at the cursor. -/
theorem nearestAbove?_set {lines : List Text} {row : Nat} {line : Text}
    (hline : lines[row]? = some line) (before : Text) :
    nearestAbove? (lines.set row before) (row + 1) =
      if (Text.trimEnd before).isEmpty then
        ((rowsAbove lines row).map fun (row, text) => (row, Text.trimEnd text)).find?
          fun (_, text) => !text.isEmpty
      else some (row, Text.trimEnd before) := by
  have hrow : (lines.set row before)[row]? = some before :=
    List.getElem?_set_self (List.getElem?_eq_some_iff.1 hline).1
  split
  · rename_i hblank
    rw [nearestAbove?_succ_of_blank (by simpa [hrow] using hblank), nearestAbove?, rowsAbove_set]
  · rename_i hne
    exact nearestAbove?_succ_of_text hrow (mt List.isEmpty_iff.2 hne)

/-- The span of the word at the end of a text on a row, if there is one. -/
def wordSpan? (row : Nat) (text : Text) : Option Span :=
  if (text.rtakeWhile isWordChar).isEmpty then none
  else
    let start := Text.width (text.rdropWhile isWordChar)
    some ⟨⟨row, start⟩, ⟨row, start + Text.width (text.rtakeWhile isWordChar)⟩⟩

/-- The search in three parts: the word at the cursor, the nearest row, the word at its end. -/
theorem aliasTarget_eq {lines : List Text} {cursor : Position} {line : Text} {typed : Word}
    (hline : lines[cursor.row]? = some line) (htouches : typed.Touches line cursor.column) :
    aliasTarget lines cursor =
      if 3 ≤ Text.width line ∧ typed.word.head? = some 'a' then
        (nearestAbove? (lines.set cursor.row typed.before) (cursor.row + 1)).bind
          fun (row, text) => wordSpan? row text
      else none := by
  obtain rfl := htouches.eq_around
  unfold aliasTarget
  simp only [bind, pure, hline, Option.bind_some, Option.bind_none, Word.around_width, wordSpan?,
    nearestAbove?_set hline]
  by_cases hwidth : Text.width line < 3
  · rw [if_pos hwidth, if_neg (by omega)]
  · by_cases hhead : (Word.around line cursor.column).word.head? = some 'a'
    · rw [if_neg hwidth, if_neg (not_not.2 hhead), if_pos (And.intro (by omega) hhead)]
      cases (Text.trimEnd (Word.around line cursor.column).before).isEmpty <;> rfl
    · rw [if_neg hwidth, if_pos hhead, if_neg fun h => hhead h.2]

theorem wordSpan?_append {front name : Text} (hname : ∀ c ∈ name, isWordChar c = true)
    (hfront : ∀ c ∈ front.getLast?, isWordChar c = false) (row : Nat) :
    wordSpan? row (front ++ name) =
      if name = [] then none
      else some ⟨⟨row, Text.width front⟩, ⟨row, Text.width (front ++ name)⟩⟩ := by
  simp only [wordSpan?, Text.rdropWhile_append_run hname hfront,
    Text.rtakeWhile_append_run hname hfront, List.isEmpty_iff, Text.width_append]

theorem wordSpan?_eq_some_iff {row : Nat} {text : Text} {span : Span} :
    wordSpan? row text = some span ↔ ∃ front name, text = front ++ name ∧ name ≠ [] ∧
      (∀ c ∈ name, isWordChar c = true) ∧ (∀ c ∈ front.getLast?, isWordChar c = false) ∧
      span = ⟨⟨row, Text.width front⟩, ⟨row, Text.width (front ++ name)⟩⟩ := by
  constructor
  · intro h
    obtain ⟨front, name, rfl, hname, hfront⟩ := Text.exists_eq_append_run isWordChar text
    rw [wordSpan?_append hname hfront] at h
    split at h
    · exact absurd h (by simp)
    · rename_i hne
      exact ⟨front, name, rfl, hne, hname, hfront, (Option.some.inj h).symm⟩
  · rintro ⟨front, name, rfl, hne, hname, hfront, rfl⟩
    rw [wordSpan?_append hname hfront, if_neg hne]

/-- **Where the search ends.** -/
theorem aliasTarget_eq_some_iff {lines : List Text} {cursor : Position} {span : Span} :
    aliasTarget lines cursor = some span ↔ ∃ site : AliasSite lines cursor, site.span = span := by
  constructor
  · intro h
    cases hline : lines[cursor.row]? with
    | none => exact absurd h (by simp [aliasTarget, hline])
    | some line =>
      have htouches := Word.around_touches line cursor.column
      rw [aliasTarget_eq hline htouches] at h
      split at h
      · rename_i htyped
        obtain ⟨⟨row, text⟩, hnearest, hspan⟩ := Option.bind_eq_some_iff.1 h
        obtain ⟨hlt, ⟨whole, hwhole, rfl⟩, -, hbelow⟩ := nearestAbove?_eq_some_iff.1 hnearest
        obtain ⟨front, name, hsplit, hne, hname, hfront, rfl⟩ := wordSpan?_eq_some_iff.1 hspan
        obtain ⟨gap, hgap, hblank⟩ := Text.exists_eq_trimEnd_append whole
        rw [hsplit] at hgap
        refine ⟨⟨line, _, row, front, name, gap, hline, htyped.1, htouches, htyped.2,
          Nat.le_of_lt_succ hlt, by rw [hwhole, hgap], ?_, hblank, hne, hname, hfront⟩, rfl⟩
        intro number hlow hhigh text htext
        exact Text.trimEnd_eq_nil_iff_forall.1
          (hbelow number hlow (Nat.lt_succ_of_le hhigh) text htext)
      · exact absurd h (by simp)
  · rintro ⟨site, rfl⟩
    have hnearest : nearestAbove? (lines.set cursor.row site.typed.before) (cursor.row + 1) =
        some (site.row, site.front ++ site.name) := by
      refine nearestAbove?_eq_some_iff.2 ⟨Nat.lt_succ_of_le site.row_le, ⟨_, site.text_eq,
        Text.trimEnd_append site.gap_isBlank site.last_not_isBlank⟩, by simp [site.name_ne_nil], ?_⟩
      intro number hlow hhigh text htext
      exact Text.trimEnd_eq_nil_iff_forall.2
        (site.below_isBlank number hlow (Nat.le_of_lt_succ hhigh) text htext)
    rw [aliasTarget_eq site.line_eq site.touches,
      if_pos ⟨site.three_le_width, site.head?_eq⟩, hnearest]
    exact wordSpan?_eq_some_iff.2
      ⟨site.front, site.name, rfl, site.name_ne_nil, site.name_isWord, site.front_last, rfl⟩

/-! ## Around the name -/

namespace AliasSite

variable {lines : List Text} {cursor : Position} (site : AliasSite lines cursor)

/-- On the row of the cursor, the name and the gap stand before the word. A gap is needed, because
two words that touch are one. -/
theorem before_eq_and_gap_ne_nil (hrow : site.row = cursor.row) :
    site.typed.before = site.front ++ site.name ++ site.gap ∧ site.gap ≠ [] := by
  have hlt := (List.getElem?_eq_some_iff.1 site.line_eq).1
  have hbefore := site.text_eq
  rw [hrow, List.getElem?_set_self hlt, Option.some.injEq] at hbefore
  refine ⟨hbefore, fun hnil => ?_⟩
  have hlast := site.touches.before_last
  rw [hbefore, hnil, List.append_nil, List.getLast?_append_of_ne_nil _ site.name_ne_nil] at hlast
  have hmem := List.getLast_mem site.name_ne_nil
  have hnot := hlast _ (List.getLast?_eq_some_getLast site.name_ne_nil)
  rw [site.name_isWord _ hmem] at hnot
  exact Bool.noConfusion hnot

/-- What follows the name on its row does not go on with it. -/
theorem exists_rest :
    ∃ rest, lines[site.row]? = some (site.front ++ site.name ++ rest) ∧
      (∀ c ∈ rest.head?, isWordChar c = false) ∧
      (site.row = cursor.row → site.gap ≠ [] ∧
        rest = site.gap ++ (site.typed.word ++ site.typed.after)) := by
  have hgapHead : ∀ c ∈ site.gap.head?, isWordChar c = false := fun c hc =>
    CharClass.isWordChar_of_isBlank (site.gap_isBlank c (List.mem_of_mem_head? hc))
  by_cases hrow : site.row = cursor.row
  · obtain ⟨hbefore, hgap⟩ := site.before_eq_and_gap_ne_nil hrow
    refine ⟨site.gap ++ (site.typed.word ++ site.typed.after), ?_, ?_, fun _ => ⟨hgap, rfl⟩⟩
    · rw [hrow, site.line_eq, site.touches.line_eq, hbefore]
      simp
    · rwa [List.head?_append_of_ne_nil _ hgap]
  · have htext := site.text_eq
    rw [List.getElem?_set_ne (Ne.symm hrow)] at htext
    exact ⟨site.gap, htext, hgapHead, fun h => absurd h hrow⟩

theorem start_lt_stop : site.span.start < site.span.stop := by
  have hname : 0 < Text.width site.name :=
    Nat.pos_of_ne_zero (mt (Text.width_eq_zero_iff _).1 site.name_ne_nil)
  refine .inr ⟨rfl, ?_⟩
  simp only [span, Text.width_append]
  omega

end AliasSite

/-! ## The search over bytes -/

namespace Text

/-- The characters of a text with the bytes at which they start. -/
def charBytes (byte : Nat) : Text → List (Nat × Char)
  | [] => []
  | c :: cs => (byte, c) :: charBytes (byte + c.utf8Size) cs

/-- The byte at which the word characters at the end of a text start. -/
def wordStart (t : Text) : Nat :=
  match ((charBytes 0 t).reverse.takeWhile fun (_, c) => isWordChar c).getLast? with
  | none => width t
  | some (byte, _) => byte

/-- The part of a text between two bytes, which must be in order and lie between characters. -/
def checkedSlice (t : Text) (start stop : Nat) : Except Fault Text :=
  match slice? t start stop with
  | some part => .ok part
  | none => .error (.outOfBounds stop (width t))

theorem charBytes_append (byte : Nat) (s t : Text) :
    charBytes byte (s ++ t) = charBytes byte s ++ charBytes (byte + width s) t := by
  induction s generalizing byte with
  | nil => rfl
  | cons c s ih => simp [charBytes, ih, Nat.add_assoc]

theorem map_snd_charBytes (byte : Nat) (t : Text) : (charBytes byte t).map Prod.snd = t := by
  induction t generalizing byte with
  | nil => rfl
  | cons c t ih => rw [charBytes, List.map_cons, ih]

theorem wordStart_append {front word : Text} (hword : ∀ c ∈ word, isWordChar c = true)
    (hfront : ∀ c ∈ front.getLast?, isWordChar c = false) :
    wordStart (front ++ word) = width front := by
  have htake : (charBytes 0 (front ++ word)).reverse.takeWhile (fun (_, c) => isWordChar c) =
      (charBytes (width front) word).reverse := by
    rw [charBytes_append, Nat.zero_add, List.reverse_append]
    refine takeWhile_run_append ?_ ?_
    · intro indexed hmem
      refine hword _ ?_
      rw [← map_snd_charBytes (width front) word]
      exact List.mem_map_of_mem (List.mem_reverse.1 hmem)
    · intro indexed hlast
      rw [List.head?_reverse] at hlast
      refine hfront _ ?_
      rw [← map_snd_charBytes 0 front, List.getLast?_map, hlast]
      rfl
  rw [wordStart, htake, List.getLast?_reverse]
  cases word with
  | nil => simp [charBytes]
  | cons c word => rfl

theorem checkedSlice_append (front part rest : Text) :
    checkedSlice (front ++ (part ++ rest)) (width front) (width (front ++ part)) = .ok part := by
  have hslice : slice? (front ++ (part ++ rest)) (width front) (width (front ++ part)) =
      some part :=
    slice?_eq_some_iff.2 ⟨front, rest, by simp, rfl, by simp⟩
  rw [checkedSlice, hslice]

end Text

/-- The bytes at which the word at a column starts and stops. -/
def Word.checkedBytes (line : Text) (column : Nat) : Except Fault (Nat × Nat) := do
  let before ← Text.checkedCut line column
  let rest ← Text.checkedDrop line (Text.width before)
  let stop ← checkedAdd (Text.width before) (Text.wordBytes rest)
  return (Text.wordStart before, stop)

/-- The nearest of the rows above a row that is not blank, each row read by its number. -/
def checkedNearestAbove? (lines : List Text) : Nat → Except Fault (Option (Nat × Text))
  | 0 => .ok none
  | row + 1 =>
    match lines[row]? with
    | none => .error (.outOfBounds row lines.length)
    | some line =>
      if (Text.trimEnd line).isEmpty then checkedNearestAbove? lines row
      else .ok (some (row, Text.trimEnd line))

/-- The nearest row that is not blank, from what stands before a word upward. -/
def checkedNearest? (lines : List Text) (row : Nat) (before : Text) :
    Except Fault (Option (Nat × Text)) :=
  if (Text.trimEnd before).isEmpty then checkedNearestAbove? lines row
  else .ok (some (row, Text.trimEnd before))

/-- The span of the word at the end of a text on a row, found by its bytes. -/
def checkedWordSpan? (row : Nat) (text : Text) : Except Fault (Option Span) := do
  let (start, stop) ← Word.checkedBytes text (Text.width text)
  if start = stop then return none
  let _ ← Text.checkedSlice text start stop
  return some (← Span.ordered ⟨row, start⟩ ⟨row, stop⟩)

/-- The search for an alias target over bytes, with every sum, index and slice checked. -/
def checkedAliasTarget (lines : List Text) (cursor : Position) : Except Fault (Option Span) := do
  let some line := lines[cursor.row]? | return none
  if Text.width line < 3 then return none
  let (start, stop) ← Word.checkedBytes line cursor.column
  let typed ← Text.checkedSlice line start stop
  if typed.head? ≠ some 'a' then return none
  let before ← Text.checkedTake line start
  let some (row, text) ← checkedNearest? lines cursor.row before | return none
  checkedWordSpan? row text

/-- On a row that fits in memory, the bytes of the word are those at its ends. -/
theorem Word.Touches.checkedBytes_eq_ok {w : Word} {line : Text} {column : Nat}
    (h : w.Touches line column) (hlimit : Text.width line < addressLimit) :
    checkedBytes line column = .ok (Text.width w.before, Text.width (w.before ++ w.word)) := by
  obtain ⟨typed, tail, hword, hcut, hline, htyped, htail⟩ := h.exists_parts
  have hdrop : Text.checkedDrop line (Text.width (w.before ++ typed)) = .ok (tail ++ w.after) := by
    rw [hline, Text.checkedDrop_append_width]
  have hsum : Text.width (w.before ++ typed) + Text.width tail ≤ Text.width line := by
    rw [hline, Text.width_append (w.before ++ typed), Text.width_append tail]
    omega
  have hstop : Text.width (w.before ++ typed) + Text.width tail =
      Text.width (w.before ++ w.word) := by
    rw [hword, ← List.append_assoc, Text.width_append (w.before ++ typed)]
  simp only [checkedBytes, Text.checkedCut_eq_ok, hcut, hdrop, bind, Except.bind,
    Text.wordBytes_append htail h.after_head, Trigger.checkedAdd_of_line hlimit hsum,
    Text.wordStart_append htyped h.before_last, hstop, pure, Except.pure]

theorem checkedNearestAbove?_eq_ok {lines : List Text} {row : Nat} (h : row ≤ lines.length) :
    checkedNearestAbove? lines row = .ok (nearestAbove? lines row) := by
  induction row with
  | zero => rfl
  | succ row ih =>
    have hline : lines[row]? = some lines[row] := List.getElem?_eq_getElem h
    simp only [checkedNearestAbove?, hline]
    split
    · rename_i hblank
      rw [ih (Nat.le_of_succ_le h), nearestAbove?_succ_of_blank]
      simpa [hline] using hblank
    · rename_i hne
      rw [nearestAbove?_succ_of_text hline (mt List.isEmpty_iff.2 hne)]

theorem checkedNearest?_eq_ok {lines : List Text} {row : Nat} {line : Text}
    (hline : lines[row]? = some line) (before : Text) :
    checkedNearest? lines row before = .ok (nearestAbove? (lines.set row before) (row + 1)) := by
  have hle : row ≤ lines.length := Nat.le_of_lt (List.getElem?_eq_some_iff.1 hline).1
  rw [nearestAbove?_set hline, checkedNearest?, checkedNearestAbove?_eq_ok hle]
  split <;> rfl

theorem checkedWordSpan?_eq_ok {text : Text} (hlimit : Text.width text < addressLimit) (row : Nat) :
    checkedWordSpan? row text = .ok (wordSpan? row text) := by
  obtain ⟨front, name, rfl, hname, hfront⟩ := Text.exists_eq_append_run isWordChar text
  have htouches := Word.around_touches (front ++ name) (Text.width (front ++ name))
  have hslice := Text.checkedSlice_append front name []
  have hordered : (⟨row, Text.width front⟩ : Position) ≤ ⟨row, Text.width (front ++ name)⟩ :=
    .inr ⟨rfl, by simp⟩
  rw [Word.around_width, Text.rdropWhile_append_run hname hfront,
    Text.rtakeWhile_append_run hname hfront] at htouches
  rw [List.append_nil] at hslice
  simp only [checkedWordSpan?, wordSpan?_append hname hfront, htouches.checkedBytes_eq_ok hlimit,
    hslice, Span.ordered_of_le hordered, bind, Except.bind]
  by_cases hnil : name = []
  · simp [hnil, pure, Except.pure]
  · have hpos : Text.width name ≠ 0 := mt (Text.width_eq_zero_iff name).1 hnil
    rw [if_neg (by rw [Text.width_append]; omega), if_neg hnil]
    rfl

/-- **The checked search gives what the search gives**, on every document whose rows fit in memory
and for every cursor. -/
theorem checkedAliasTarget_eq_ok {lines : List Text}
    (hlimit : ∀ line ∈ lines, Text.width line < addressLimit) (cursor : Position) :
    checkedAliasTarget lines cursor = .ok (aliasTarget lines cursor) := by
  unfold checkedAliasTarget
  cases hline : lines[cursor.row]? with
  | none => simp [aliasTarget, hline]; rfl
  | some line =>
    have htouches := Word.around_touches line cursor.column
    have hwidth := hlimit line (List.mem_of_getElem? hline)
    rw [aliasTarget_eq hline htouches]
    generalize Word.around line cursor.column = typed at htouches
    have hslice := Text.checkedSlice_append typed.before typed.word typed.after
    have htake := Text.checkedTake_append_width typed.before (typed.word ++ typed.after)
    rw [← htouches.line_eq] at hslice htake
    simp only [htouches.checkedBytes_eq_ok hwidth, hslice, htake, checkedNearest?_eq_ok hline, bind,
      Except.bind, pure, Except.pure]
    by_cases hshort : Text.width line < 3
    · rw [if_pos hshort, if_neg (by omega)]
    · by_cases hhead : typed.word.head? = some 'a'
      · rw [if_neg hshort, if_neg (not_not.2 hhead), if_pos ⟨by omega, hhead⟩]
        cases hfound : nearestAbove? (lines.set cursor.row typed.before) (cursor.row + 1) with
        | none => rfl
        | some found =>
          obtain ⟨-, ⟨whole, hwhole, htrim⟩, -⟩ := nearestAbove?_eq_some_iff.1 hfound
          have hle := Text.width_le_of_prefix (Text.trimEnd_prefix whole)
          rw [htrim] at hle
          refine checkedWordSpan?_eq_ok (Nat.lt_of_le_of_lt hle ?_) found.1
          rcases List.mem_or_eq_of_mem_set (List.mem_of_getElem? hwhole) with hmem | rfl
          · exact hlimit whole hmem
          · rw [htouches.line_eq, Text.width_append] at hwidth
            omega
      · rw [if_neg hshort, if_pos hhead, if_neg fun h => hhead h.2]

/-! ## The search as a whole -/

/-- **The search for an alias target is exact.**

* There is a target exactly if the row of the cursor has three bytes or more, the word at the cursor
  begins with `a`, and a name is the first thing but blanks on the way from that word to the left
  and upward. The target is the span of that name.
* The cursor counts as the longest front part of its row that ends at or before its column. The name
  is not empty, it stands at or above the row of the cursor and between two characters of its row,
  and neither neighbour on its row is a word character. On the row of the cursor at least one blank
  parts it from the word.
* The search over bytes gives the same answer: no index or slice is out of bounds and no sum
  overflows, in any document whose rows fit in memory and for any cursor. -/
theorem aliasTarget_exact (lines : List Text) (cursor : Position) :
    (∀ span, aliasTarget lines cursor = some span ↔
      ∃ site : AliasSite lines cursor, site.span = span) ∧
    (∀ site : AliasSite lines cursor,
      Text.IsLongestFront site.line cursor.column (Text.cut site.line cursor.column) ∧
      site.span.start < site.span.stop ∧ site.row ≤ cursor.row ∧
      (∀ c ∈ site.front.getLast?, isWordChar c = false) ∧
      ∃ rest, lines[site.row]? = some (site.front ++ site.name ++ rest) ∧
        (∀ c ∈ rest.head?, isWordChar c = false) ∧
        Text.IsBoundary (site.front ++ site.name ++ rest) site.span.start.column ∧
        Text.IsBoundary (site.front ++ site.name ++ rest) site.span.stop.column ∧
        Text.slice? (site.front ++ site.name ++ rest) site.span.start.column
          site.span.stop.column = some site.name ∧
        (site.row = cursor.row → site.gap ≠ [] ∧
          rest = site.gap ++ (site.typed.word ++ site.typed.after))) ∧
    ((∀ line ∈ lines, Text.width line < addressLimit) →
      checkedAliasTarget lines cursor = .ok (aliasTarget lines cursor)) := by
  refine ⟨fun span => aliasTarget_eq_some_iff, fun site => ?_,
    fun hlimit => checkedAliasTarget_eq_ok hlimit cursor⟩
  obtain ⟨rest, hrow, hrest, hgap⟩ := site.exists_rest
  refine ⟨Text.isLongestFront_cut _ _, site.start_lt_stop, site.row_le, site.front_last, rest, hrow,
    hrest, ⟨site.front, by simp, rfl⟩, ⟨site.front ++ site.name, by simp, rfl⟩, ?_, hgap⟩
  exact Text.slice?_eq_some_iff.2 ⟨site.front, rest, rfl, rfl, by simp [AliasSite.span]⟩

/-- A name with letters of two bytes and a numeral sign, two rows above the word. -/
def wrappedImportRows : List Text :=
  ["from m import (".toList, "    größe ,Ünï²\t ".toList, " \u3000".toList, "  asx)".toList]

/-- The cursor stands inside the word; one row up it stands in blanks. -/
theorem aliasTarget_exact_wrappedImportRows :
    (∀ line ∈ wrappedImportRows, Text.width line < addressLimit) ∧
      checkedAliasTarget wrappedImportRows ⟨3, 3⟩ = .ok (some ⟨⟨1, 13⟩, ⟨1, 20⟩⟩) ∧
      (∃ site : AliasSite wrappedImportRows ⟨3, 3⟩, site.span = ⟨⟨1, 13⟩, ⟨1, 20⟩⟩) ∧
      checkedAliasTarget wrappedImportRows ⟨2, 3⟩ = .ok none := by
  have hlimit : ∀ line ∈ wrappedImportRows, Text.width line < addressLimit := by decide
  have hfound : aliasTarget wrappedImportRows ⟨3, 3⟩ = some ⟨⟨1, 13⟩, ⟨1, 20⟩⟩ := by decide
  have hnone : aliasTarget wrappedImportRows ⟨2, 3⟩ = none := by decide +kernel
  obtain ⟨hiff, -, hchecked⟩ := aliasTarget_exact wrappedImportRows ⟨3, 3⟩
  obtain ⟨-, -, hcheckedAbove⟩ := aliasTarget_exact wrappedImportRows ⟨2, 3⟩
  exact ⟨hlimit, by rw [hchecked hlimit, hfound], (hiff _).1 hfound,
    by rw [hcheckedAbove hlimit, hnone]⟩

end DotTarget
