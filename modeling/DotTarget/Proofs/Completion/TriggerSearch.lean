import DotTarget.Completion.Trigger
import DotTarget.Proofs.Completion.TouchedWord
import DotTarget.Proofs.Document.EditSplice
import DotTarget.Proofs.Lexical.ScanSafety

set_option autoImplicit false

/-! # The search for a trigger

The cursor keeps a front part of its row. There is a trigger exactly if a dot stands in that part
and only word characters follow the last one; the word then goes on behind the cursor as far as there
are word characters (`SplitsAtTrigger`, `Trigger.isSome_find?_iff`).

`Trigger.find?` takes the row apart as a list of characters. `Trigger.checkedFind?` is the same
search over bytes and machine words: the last dot and the end of the word are looked for by their
byte offsets, which are added up and sliced at, and every sum or slice that does not exist is a
`Fault`. None of these faults happens (`Trigger.checkedFind?_eq_ok`). Both are put together in
`Trigger.find?_exact`. -/

namespace DotTarget

open CharClass (isWordChar)

theorem isWordChar_dot : isWordChar '.' = false := by decide

theorem dot_notMem_of_word {word : Text} (h : ∀ c ∈ word, isWordChar c = true) : '.' ∉ word := by
  intro hmem
  have hdot := h _ hmem
  rw [isWordChar_dot] at hdot
  exact Bool.noConfusion hdot

/-- The last `c` of a text splits it in one way. -/
theorem Text.rest_eq_of_append_cons_eq {c : Char} {front rest front' rest' : Text} (hrest : c ∉ rest)
    (hrest' : c ∉ rest') (h : front ++ c :: rest = front' ++ c :: rest') : rest = rest' := by
  rcases List.append_eq_append_iff.1 h with ⟨between, -, hsplit⟩ | ⟨between, -, hsplit⟩
  · cases between with
    | nil => exact (List.cons.inj hsplit).2
    | cons d between =>
      rw [(List.cons.inj hsplit).2] at hrest
      exact absurd (List.mem_append_right _ List.mem_cons_self) hrest
  · cases between with
    | nil => exact (List.cons.inj hsplit).2.symm
    | cons d between =>
      rw [(List.cons.inj hsplit).2] at hrest'
      exact absurd (List.mem_append_right _ List.mem_cons_self) hrest'

/-! ## Rows split at a trigger -/

/-- A row split at a trigger. The cursor keeps `front`, the dot and what is `typed` of the word; the
word goes on with `tail`. -/
structure SplitsAtTrigger (line : Text) (column : Nat) (front typed tail after : Text) : Prop where
  line_eq : line = front ++ '.' :: (typed ++ (tail ++ after))
  cut_eq : Text.cut line column = front ++ '.' :: typed
  typed_word : ∀ c ∈ typed, isWordChar c = true
  tail_word : ∀ c ∈ tail, isWordChar c = true
  after_head : ∀ c ∈ after.head?, isWordChar c = false

namespace SplitsAtTrigger

variable {line front typed tail after : Text} {column : Nat}

/-- What is typed of the word and its tail are the word at the cursor. -/
theorem touches (h : SplitsAtTrigger line column front typed tail after) :
    (⟨front ++ ['.'], typed ++ tail, after⟩ : Word).Touches line column where
  line_eq := by simp [h.line_eq]
  before_prefix := ⟨typed, by simp [h.cut_eq]⟩
  cut_prefix := ⟨tail, by simp [h.cut_eq]⟩
  word_isWord := List.forall_mem_append.2 ⟨h.typed_word, h.tail_word⟩
  before_last := by simp [isWordChar_dot]
  after_head := h.after_head

/-- **The trigger of a split row.** -/
theorem find?_eq {cursor : Position}
    (h : SplitsAtTrigger line cursor.column front typed tail after) :
    Trigger.find? line cursor = some ⟨⟨cursor.row, Text.width front⟩,
      ⟨⟨cursor.row, Text.width front + 1⟩,
        ⟨cursor.row, Text.width (front ++ '.' :: typed) + Text.width tail⟩⟩⟩ := by
  have hreverse : (front ++ ['.']).reverse = '.' :: front.reverse := by simp
  have hdot : '.'.utf8Size = 1 := by decide
  unfold Trigger.find?
  simp only [← h.touches.eq_around, hreverse, Text.width_reverse, Text.width_append,
    Text.width_cons, hdot, Nat.add_assoc]

end SplitsAtTrigger

/-- Wherever only word characters follow a dot that the cursor keeps, the row is split. -/
theorem exists_splitsAtTrigger {line front typed : Text} {column : Nat}
    (hcut : Text.cut line column = front ++ '.' :: typed)
    (htyped : ∀ c ∈ typed, isWordChar c = true) :
    ∃ tail after, SplitsAtTrigger line column front typed tail after := by
  obtain ⟨back, hback⟩ := Text.cut_prefix line column
  have hsplit : back.takeWhile isWordChar ++ back.dropWhile isWordChar = back :=
    List.takeWhile_append_dropWhile
  refine ⟨back.takeWhile isWordChar, back.dropWhile isWordChar, ?_, hcut, htyped,
    fun c hc => List.all_eq_true.1 List.all_takeWhile c hc, ?_⟩
  · rw [hsplit, ← hback, hcut]
    simp
  · exact fun c hc => Text.eq_false_of_mem_head?_dropWhile hc

namespace Trigger

/-- **When there is a trigger.** -/
theorem isSome_find?_iff {line : Text} {cursor : Position} :
    (find? line cursor).isSome ↔ ∃ front typed,
      Text.cut line cursor.column = front ++ '.' :: typed ∧ ∀ c ∈ typed, isWordChar c = true := by
  constructor
  · intro h
    unfold find? at h
    dsimp only at h
    split at h
    · rename_i front hbefore
      simp only [Word.around, List.reverse_reverse] at hbefore
      refine ⟨front.reverse, ((Text.cut line cursor.column).reverse.takeWhile isWordChar).reverse,
        ?_, fun c hc => List.all_eq_true.1 List.all_takeWhile c (List.mem_reverse.1 hc)⟩
      calc Text.cut line cursor.column
          = ((Text.cut line cursor.column).reverse.takeWhile isWordChar ++
              (Text.cut line cursor.column).reverse.dropWhile isWordChar).reverse := by
            rw [List.takeWhile_append_dropWhile, List.reverse_reverse]
        _ = front.reverse ++
              '.' :: ((Text.cut line cursor.column).reverse.takeWhile isWordChar).reverse := by
            rw [hbefore]
            simp
    · exact absurd h (by simp)
  · rintro ⟨front, typed, hcut, htyped⟩
    obtain ⟨tail, after, hsplit⟩ := exists_splitsAtTrigger hcut htyped
    rw [hsplit.find?_eq]
    rfl

/-- A trigger that is found splits the row. -/
theorem exists_splitsAtTrigger_of_find? {line : Text} {cursor : Position} {trigger : Trigger}
    (h : find? line cursor = some trigger) :
    ∃ front typed tail after, SplitsAtTrigger line cursor.column front typed tail after := by
  have hsome : (find? line cursor).isSome := by
    rw [h]
    rfl
  obtain ⟨front, typed, hcut, htyped⟩ := isSome_find?_iff.1 hsome
  obtain ⟨tail, after, hsplit⟩ := exists_splitsAtTrigger hcut htyped
  exact ⟨front, typed, tail, after, hsplit⟩

/-- A cursor that keeps no dot has no trigger. -/
theorem find?_eq_none_of_free {line : Text} {cursor : Position}
    (hfree : '.' ∉ Text.cut line cursor.column) : find? line cursor = none := by
  rw [← Option.not_isSome_iff_eq_none, isSome_find?_iff]
  rintro ⟨front, typed, hcut, -⟩
  rw [hcut] at hfree
  exact hfree (List.mem_append_right _ List.mem_cons_self)

/-- Only the last dot that the cursor keeps can be that of a trigger. -/
theorem find?_eq_none_of_typed {line front typed : Text} {cursor : Position}
    (hcut : Text.cut line cursor.column = front ++ '.' :: typed) (hfree : '.' ∉ typed)
    (hword : ¬ ∀ c ∈ typed, isWordChar c = true) : find? line cursor = none := by
  rw [← Option.not_isSome_iff_eq_none, isSome_find?_iff]
  rintro ⟨front', typed', hcut', hword'⟩
  have heq := Text.rest_eq_of_append_cons_eq hfree (dot_notMem_of_word hword')
    (hcut.symm.trans hcut')
  exact hword (heq ▸ hword')

end Trigger

/-! ## Byte offsets -/

namespace Text

/-- The byte at which the last `c` of a text stands. -/
def lastByteOf? (c : Char) : Text → Option Nat
  | [] => none
  | d :: t =>
    match lastByteOf? c t with
    | some byte => some (d.utf8Size + byte)
    | none => if d = c then some 0 else none

/-- The byte of the first character of a text that is not a word character, or the width of the
text. -/
def wordBytes : Text → Nat
  | [] => 0
  | d :: t => if isWordChar d then d.utf8Size + wordBytes t else 0

theorem lastByteOf?_eq_none {c : Char} {t : Text} (h : lastByteOf? c t = none) : c ∉ t := by
  induction t with
  | nil => simp
  | cons d t ih =>
    rw [lastByteOf?] at h
    split at h
    · exact absurd h (by simp)
    · rename_i hrest
      split at h
      · exact absurd h (by simp)
      · rename_i hne
        exact List.not_mem_cons_of_ne_of_not_mem (Ne.symm hne) (ih hrest)

theorem lastByteOf?_eq_some {c : Char} {t : Text} {byte : Nat} (h : lastByteOf? c t = some byte) :
    ∃ front rest, t = front ++ c :: rest ∧ c ∉ rest ∧ width front = byte := by
  induction t generalizing byte with
  | nil => exact absurd h (by simp [lastByteOf?])
  | cons d t ih =>
    rw [lastByteOf?] at h
    split at h
    · rename_i later hlater
      obtain rfl := Option.some.inj h
      obtain ⟨front, rest, rfl, hrest, rfl⟩ := ih hlater
      exact ⟨d :: front, rest, rfl, hrest, rfl⟩
    · rename_i hnone
      split at h
      · rename_i heq
        obtain rfl := Option.some.inj h
        exact ⟨[], t, by rw [heq]; rfl, lastByteOf?_eq_none hnone, rfl⟩
      · exact absurd h (by simp)

theorem wordBytes_append {tail after : Text} (htail : ∀ c ∈ tail, isWordChar c = true)
    (hafter : ∀ c ∈ after.head?, isWordChar c = false) :
    wordBytes (tail ++ after) = width tail := by
  induction tail with
  | nil =>
    cases after with
    | nil => rfl
    | cons c rest => simp [wordBytes, hafter c rfl]
  | cons c tail ih =>
    rw [List.forall_mem_cons] at htail
    rw [List.cons_append, wordBytes, if_pos htail.1, ih htail.2, width_cons]

end Text

namespace Trigger

/-- The search for a trigger over bytes, with every sum and slice checked. -/
def checkedFind? (line : Text) (cursor : Position) : Except Fault (Option Trigger) := do
  let before ← Text.checkedCut line cursor.column
  match Text.lastByteOf? '.' before with
  | none => return none
  | some dot =>
    let start ← checkedAdd dot 1
    let typed ← Text.checkedDrop before start
    if typed.all isWordChar then
      let rest ← Text.checkedDrop line (Text.width before)
      let stop ← checkedAdd (Text.width before) (Text.wordBytes rest)
      let word ← Span.ordered ⟨cursor.row, start⟩ ⟨cursor.row, stop⟩
      return some ⟨⟨cursor.row, dot⟩, word⟩
    else return none

/-- Slicing behind a dot gives what is typed. -/
theorem checkedDrop_dot (front typed : Text) :
    Text.checkedDrop (front ++ '.' :: typed) (Text.width front + 1) = .ok typed := by
  have hwidth : Text.width (front ++ ['.']) = Text.width front + 1 := by
    rw [Text.width_append]
    rfl
  have hsplit : front ++ '.' :: typed = front ++ ['.'] ++ typed := by simp
  rw [← hwidth, hsplit, Text.checkedDrop_append_width]

/-- Adding up the parts of a row does not overflow. -/
theorem checkedAdd_of_line {line : Text} (hlimit : Text.width line < addressLimit) {a b : Nat}
    (h : a + b ≤ Text.width line) : checkedAdd a b = .ok (a + b) :=
  if_pos (Nat.lt_of_le_of_lt h hlimit)

/-- **The checked search gives what the search gives**, on every row that fits in memory and for
every cursor. -/
theorem checkedFind?_eq_ok {line : Text} (hlimit : Text.width line < addressLimit)
    (cursor : Position) : checkedFind? line cursor = .ok (find? line cursor) := by
  have hdot : '.'.utf8Size = 1 := by decide
  have hkept := Text.width_le_of_prefix (Text.cut_prefix line cursor.column)
  simp only [checkedFind?, Text.checkedCut_eq_ok, bind, Except.bind]
  cases hlast : Text.lastByteOf? '.' (Text.cut line cursor.column) with
  | none =>
    rw [find?_eq_none_of_free (Text.lastByteOf?_eq_none hlast)]
    rfl
  | some dot =>
    obtain ⟨front, typed, hcut, hfree, rfl⟩ := Text.lastByteOf?_eq_some hlast
    have hstart : Text.width front + 1 ≤ Text.width (front ++ '.' :: typed) := by
      rw [Text.width_append, Text.width_cons, hdot]
      omega
    rw [hcut] at hkept
    simp only [hcut, checkedAdd_of_line hlimit (Nat.le_trans hstart hkept), checkedDrop_dot]
    split
    · rename_i hword
      obtain ⟨tail, after, hsplit⟩ := exists_splitsAtTrigger hcut (List.all_eq_true.1 hword)
      have hline : line = front ++ '.' :: typed ++ (tail ++ after) := by simp [hsplit.line_eq]
      have hrest : Text.checkedDrop line (Text.width (front ++ '.' :: typed)) =
          .ok (tail ++ after) := by
        rw [hline, Text.checkedDrop_append_width]
      have hsum : Text.width (front ++ '.' :: typed) + Text.width tail ≤ Text.width line := by
        rw [hline, Text.width_append (front ++ '.' :: typed), Text.width_append tail]
        omega
      have hordered : (⟨cursor.row, Text.width front + 1⟩ : Position) ≤
          ⟨cursor.row, Text.width (front ++ '.' :: typed) + Text.width tail⟩ :=
        .inr ⟨rfl, Nat.le_add_right_of_le hstart⟩
      simp only [hrest, Text.wordBytes_append hsplit.tail_word hsplit.after_head,
        checkedAdd_of_line hlimit hsum, Span.ordered_of_le hordered, hsplit.find?_eq]
      rfl
    · rename_i hword
      rw [find?_eq_none_of_typed hcut hfree (mt List.all_eq_true.2 hword)]
      rfl

/-- **The search for a trigger is exact.** Let `before` be what the cursor keeps of its row.

* There is a trigger exactly if `before` has a dot with only word characters after its last one.
* The trigger is that dot and the word right behind it. The word reaches at least to the end of
  `before`, it consists of word characters, and the character behind it, if there is one, is no word
  character. All columns stand between two characters of the row.
* The search over bytes gives the same answer: no slice is out of bounds and no sum overflows, on
  any row that fits in memory and for any cursor. -/
theorem find?_exact (line : Text) (cursor : Position) :
    ∃ before, Text.IsLongestFront line cursor.column before ∧
      ((find? line cursor).isSome ↔ ∃ front typed, before = front ++ '.' :: typed ∧
        '.' ∉ typed ∧ ∀ c ∈ typed, isWordChar c = true) ∧
      (∀ trigger, find? line cursor = some trigger → ∃ front typed tail after,
        before = front ++ '.' :: typed ∧ '.' ∉ typed ∧ line = before ++ tail ++ after ∧
        trigger.dot = ⟨cursor.row, Text.width front⟩ ∧
        trigger.word.start = ⟨cursor.row, Text.width front + 1⟩ ∧
        trigger.word.stop = ⟨cursor.row, Text.width before + Text.width tail⟩ ∧
        line.IsBoundary trigger.dot.column ∧ line.IsBoundary trigger.word.start.column ∧
        line.IsBoundary trigger.word.stop.column ∧
        line.slice? trigger.word.start.column trigger.word.stop.column = some (typed ++ tail) ∧
        (∀ c ∈ typed ++ tail, isWordChar c = true) ∧
        ∀ c ∈ after.head?, isWordChar c = false) ∧
      (Text.width line < addressLimit → checkedFind? line cursor = .ok (find? line cursor)) := by
  have hdot : '.'.utf8Size = 1 := by decide
  refine ⟨Text.cut line cursor.column, Text.isLongestFront_cut _ _, ?_, ?_,
    fun hlimit => checkedFind?_eq_ok hlimit cursor⟩
  · rw [isSome_find?_iff]
    constructor
    · rintro ⟨front, typed, hcut, htyped⟩
      exact ⟨front, typed, hcut, dot_notMem_of_word htyped, htyped⟩
    · rintro ⟨front, typed, hcut, -, htyped⟩
      exact ⟨front, typed, hcut, htyped⟩
  · intro trigger htrigger
    obtain ⟨front, typed, tail, after, hsplit⟩ := exists_splitsAtTrigger_of_find? htrigger
    obtain rfl := Option.some.inj (hsplit.find?_eq.symm.trans htrigger)
    obtain ⟨hline, hcut, htyped, htail, hafter⟩ := hsplit
    refine ⟨front, typed, tail, after, hcut, dot_notMem_of_word htyped, ?_, rfl, rfl, ?_,
      ⟨front, ⟨_, hline.symm⟩, rfl⟩, ⟨front ++ ['.'], ⟨typed ++ (tail ++ after), ?_⟩, ?_⟩,
      ⟨front ++ '.' :: (typed ++ tail), ⟨after, ?_⟩, ?_⟩, ?_, ?_, hafter⟩
    · rw [hcut, hline]
      simp
    · rw [hcut]
    · simp [hline]
    · simp [hdot]
    · simp [hline]
    · simp [Nat.add_assoc]
    · refine Text.slice?_eq_some_iff.2 ⟨front ++ ['.'], after, by simp [hline], by simp [hdot], ?_⟩
      simp [hdot, Nat.add_assoc]
    · intro c hc
      exact (List.mem_append.1 hc).elim (htyped c) (htail c)

/-- A row with two dots and letters of two bytes. -/
def accentedRow : Text := "é.a.bß(c".toList

/-- The cursor stands inside a letter of the word, and far behind the end of the row. -/
theorem find?_exact_accentedRow :
    Text.width accentedRow < addressLimit ∧
      checkedFind? accentedRow ⟨3, 7⟩ = .ok (some ⟨⟨3, 4⟩, ⟨⟨3, 5⟩, ⟨3, 8⟩⟩⟩) ∧
      (∃ word, accentedRow.slice? 5 8 = some word ∧ ∀ c ∈ word, isWordChar c = true) ∧
      checkedFind? accentedRow ⟨3, 18446744073709551615⟩ = .ok none := by
  have hlimit : Text.width accentedRow < addressLimit := by decide
  have hfound : find? accentedRow ⟨3, 7⟩ = some ⟨⟨3, 4⟩, ⟨⟨3, 5⟩, ⟨3, 8⟩⟩⟩ := by decide
  have hnone : find? accentedRow ⟨3, 18446744073709551615⟩ = none := by
    rw [find?, Word.around, Text.cut_of_width_le (by decide)]
    decide
  obtain ⟨before, -, -, htrigger, hchecked⟩ := find?_exact accentedRow ⟨3, 7⟩
  obtain ⟨-, -, -, -, hfar⟩ := find?_exact accentedRow ⟨3, 18446744073709551615⟩
  obtain ⟨front, typed, tail, after, -, -, -, -, -, -, -, -, -, hslice, hword, -⟩ :=
    htrigger _ hfound
  exact ⟨hlimit, by rw [hchecked hlimit, hfound], ⟨_, hslice, hword⟩, by rw [hfar hlimit, hnone]⟩

end Trigger

end DotTarget
