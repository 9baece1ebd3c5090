import DotTarget.Proofs.Completion.AliasSearch
import DotTarget.Proofs.Lexical.AtomGrammar
import DotTarget.Proofs.Lexical.ScanSafety

set_option autoImplicit false

/-! # Alias targets that are no names

The search for an alias target takes the word before the `as` clause, whatever the word is. A word
may begin with a digit, it may hold numerals such as `²` and characters that are too new for a name
(`CharClass.isWordOnly`), and it may be a keyword. The search proposes such words as it proposes
names (`aliasTarget_takes_words`). -/

namespace DotTarget

open CharClass (isBlank isWordChar isNamePart isNameStart isLetter)

namespace CharClass

/-! ## Tables that do not meet -/

/-- Whether no interval of the first table meets one of the second. Both are read from the front,
so the check is linear in their lengths. -/
def Ranges.avoids (s : Ranges) : Ranges → Bool
  | [] => true
  | (lo, hi) :: rest =>
    match s.dropWhile fun range => range.2 < lo with
    | [] => true
    | range :: left => hi < range.1 && avoids (range :: left) rest

/-- Intervals that end below a code point do not matter for it. -/
theorem Ranges.covers_dropWhile {s : Ranges} {lo n : Nat} (h : s.covers n = true) (hlo : lo ≤ n) :
    covers (s.dropWhile fun range => range.2 < lo) n = true := by
  induction s with
  | nil => exact h
  | cons range s ih =>
    by_cases hbelow : range.2 < lo
    · rw [List.dropWhile_cons_of_pos (by simpa using hbelow)]
      refine ih ?_
      rw [covers] at h
      split at h
      · exact absurd h Bool.noConfusion
      · rwa [if_neg (by omega)] at h
    · rwa [List.dropWhile_cons_of_neg (by simpa using hbelow)]

theorem Ranges.covers_eq_false_of_avoids {s r : Ranges} {n : Nat} (havoids : s.avoids r = true)
    (hr : r.covers n = true) : s.covers n = false := by
  induction r generalizing s with
  | nil => simp [covers] at hr
  | cons range r ih =>
    obtain ⟨lo, hi⟩ := range
    by_contra hs
    rw [covers] at hr
    split at hr
    · exact absurd hr Bool.noConfusion
    · rename_i hlo
      have hdrop := covers_dropWhile (by simpa using hs) (Nat.le_of_not_lt hlo)
      rw [avoids] at havoids
      split at havoids
      · rename_i hnil
        rw [hnil] at hdrop
        exact absurd hdrop Bool.noConfusion
      · rename_i range left hleft
        rw [hleft] at hdrop
        obtain ⟨hhi, hrest⟩ := Bool.and_eq_true_iff.1 havoids
        split at hr
        · -- The code point lies below everything that is left.
          rw [covers, if_pos (Nat.lt_of_le_of_lt ‹n ≤ hi› (by simpa using hhi))] at hdrop
          exact absurd hdrop Bool.noConfusion
        · exact absurd hdrop (by simp [ih hrest hr])

/-! ## Words and names -/

/-- What a word may hold and a name may not: a numeral that is neither a digit nor a letter, or a
character that is too new. -/
def isWordOnly (c : Char) : Bool :=
  otherNumeralRanges.covers c.toNat || isRecent c

/-- No name has numerals in it other than digits and letters. -/
theorem isNamePart_of_otherNumeral {c : Char} (h : otherNumeralRanges.covers c.toNat = true) :
    isNamePart c = false := by
  have havoids : [letterRanges, letterNumeralRanges, otherAlphabeticRanges, markRanges, digitRanges,
      connectorRanges, joinerRanges].all (·.avoids otherNumeralRanges) = true := by decide +kernel
  have hnone : ∀ table ∈ [letterRanges, letterNumeralRanges, otherAlphabeticRanges, markRanges,
      digitRanges, connectorRanges, joinerRanges], table.covers c.toNat = false :=
    fun table hmem => Ranges.covers_eq_false_of_avoids (List.all_eq_true.1 havoids table hmem) h
  simp only [List.mem_cons, List.not_mem_nil, or_false, forall_eq_or_imp, forall_eq] at hnone
  simp [isNamePart, isAlphabetic, isLetter, isDecimal, hnone]

/-- **Where the two classes differ on a word.** -/
theorem isNamePart_iff_of_isWordChar {c : Char} (h : isWordChar c = true) :
    isNamePart c = true ↔ isWordOnly c = false := by
  cases hnumeral : otherNumeralRanges.covers c.toNat with
  | true => simp [isWordOnly, hnumeral, isNamePart_of_otherNumeral hnumeral]
  | false =>
    have hclass : c = '_' ∨ isAlphabetic c = true ∨ isDecimal c = true := by
      simp only [isWordChar, isAlphanumeric, isNumeral, hnumeral, Bool.or_false, Bool.or_eq_true,
        decide_eq_true_eq] at h
      rcases h with h | h | h | h
      · exact .inl h
      · exact .inr (.inl h)
      · exact .inr (.inr h)
      · exact .inr (.inl (by simp [isAlphabetic, h]))
    rcases hclass with rfl | h | h
    · decide
    · simp [isNamePart, isWordOnly, hnumeral, h]
    · simp [isNamePart, isWordOnly, hnumeral, h]

end CharClass

/-- **Which words are names.** The first character must be an underscore or a letter, and none may
be one that stands in words only. -/
theorem Atom.matches_name_iff_of_isWord {word : Text} (hne : word ≠ [])
    (hword : ∀ c ∈ word, isWordChar c = true) :
    Pattern.Matches name word ↔
      (∀ c ∈ word.head?, c = '_' ∨ isLetter c = true) ∧ word.any CharClass.isWordOnly = false := by
  have hparts : (∀ c ∈ word, isNamePart c = true) ↔ word.any CharClass.isWordOnly = false := by
    rw [List.any_eq_false]
    refine forall₂_congr fun c hc => ?_
    rw [CharClass.isNamePart_iff_of_isWordChar (hword c hc), Bool.not_eq_true]
  obtain ⟨first, rest, rfl⟩ := List.exists_cons_of_ne_nil hne
  rw [matches_name_iff, ← hparts]
  simp only [List.head?_cons, Option.mem_some_iff, forall_eq', List.forall_mem_cons]
  constructor
  · rintro ⟨name, hname⟩
    obtain ⟨rfl, rfl⟩ := List.cons.inj hname
    have hstart := name.first_isNameStart
    refine ⟨?_, isNamePart_of_isNameStart hstart, name.rest_isNamePart⟩
    simp only [isNameStart, Bool.or_eq_true, Bool.and_eq_true, decide_eq_true_eq] at hstart
    exact hstart.imp_right And.left
  · rintro ⟨hclass, hfirst, hrest⟩
    refine ⟨⟨first, rest, ?_, hrest⟩, rfl⟩
    simp only [isNamePart, Bool.and_eq_true] at hfirst
    simpa [isNameStart, hfirst.2] using hclass

/-! ## Proposed words -/

/-- In the text that the rows make up, the target covers the name of its site. -/
theorem AliasSite.slice?_span {lines : List Text} {cursor : Position}
    (site : AliasSite lines cursor) (hfree : ∀ line ∈ lines, '\n' ∉ line) :
    site.span.slice? (Text.ofLines lines) = some site.name := by
  have hne : lines ≠ [] := List.ne_nil_of_mem (List.mem_of_getElem? site.line_eq)
  obtain ⟨rest, hrow, -, -⟩ := site.exists_rest
  have hlines := Text.lines_ofLines hne hfree
  exact Span.slice?_eq_some_iff.2 (Span.covers_row (by rw [hlines]; exact hrow))

/-- A word before a gap on the row of the cursor is a target. -/
theorem aliasTarget_of_gap {lines : List Text} {cursor : Position} {line front word gap : Text}
    {typed : Word} (hline : lines[cursor.row]? = some line)
    (htouches : typed.Touches line cursor.column) (hhead : typed.word.head? = some 'a')
    (hbefore : typed.before = front ++ word ++ gap) (hne : word ≠ [])
    (hword : ∀ c ∈ word, isWordChar c = true) (hfront : ∀ c ∈ front.getLast?, isWordChar c = false)
    (hgapNe : gap ≠ []) (hgap : ∀ c ∈ gap, isBlank c = true) :
    aliasTarget lines cursor =
      some ⟨⟨cursor.row, Text.width front⟩, ⟨cursor.row, Text.width (front ++ word)⟩⟩ := by
  have hwidth {part : Text} (h : part ≠ []) : 0 < Text.width part :=
    Nat.pos_of_ne_zero (mt (Text.width_eq_zero_iff part).1 h)
  have htyped : typed.word ≠ [] := by
    intro hnil
    simp [hnil] at hhead
  have hthree : 3 ≤ Text.width line := by
    have hpos := And.intro (hwidth hne) (And.intro (hwidth hgapNe) (hwidth htyped))
    rw [htouches.line_eq, hbefore]
    simp only [Text.width_append]
    omega
  have hlt := (List.getElem?_eq_some_iff.1 hline).1
  exact aliasTarget_eq_some_iff.2
    ⟨{ line := line, typed := typed, row := cursor.row, front := front, name := word, gap := gap
       line_eq := hline
       three_le_width := hthree
       touches := htouches
       head?_eq := hhead
       row_le := Nat.le_refl _
       text_eq := by rw [List.getElem?_set_self hlt, hbefore]
       below_isBlank := fun number hlow hhigh => absurd hlow (Nat.not_lt_of_le hhigh)
       gap_isBlank := hgap
       name_ne_nil := hne
       name_isWord := hword
       front_last := hfront }, rfl⟩

/-- **The search proposes words, be they names or not.**

* A target covers a word that is not empty. The word is a name exactly if it begins with an
  underscore or a letter and none of its characters is one that stands in words only.
* Neither this nor that the word is no keyword is asked for: on the row of the cursor, every word
  before blanks and a word that begins with `a` is proposed. -/
theorem aliasTarget_takes_words (lines : List Text) (cursor : Position) :
    ((∀ line ∈ lines, '\n' ∉ line) → ∀ span, aliasTarget lines cursor = some span →
      ∃ word, span.slice? (Text.ofLines lines) = some word ∧ word ≠ [] ∧
        (∀ c ∈ word, isWordChar c = true) ∧
        (Pattern.Matches Atom.name word ↔
          (∀ c ∈ word.head?, c = '_' ∨ isLetter c = true) ∧
            word.any CharClass.isWordOnly = false)) ∧
    (∀ (line front word gap : Text) (typed : Word), lines[cursor.row]? = some line →
      typed.Touches line cursor.column → typed.word.head? = some 'a' →
      typed.before = front ++ word ++ gap → word ≠ [] → (∀ c ∈ word, isWordChar c = true) →
      (∀ c ∈ front.getLast?, isWordChar c = false) → gap ≠ [] → (∀ c ∈ gap, isBlank c = true) →
      aliasTarget lines cursor =
        some ⟨⟨cursor.row, Text.width front⟩, ⟨cursor.row, Text.width (front ++ word)⟩⟩) := by
  constructor
  · intro hfree span hspan
    obtain ⟨site, rfl⟩ := aliasTarget_eq_some_iff.1 hspan
    exact ⟨site.name, site.slice?_span hfree, site.name_ne_nil, site.name_isWord,
      Atom.matches_name_iff_of_isWord site.name_ne_nil site.name_isWord⟩
  · intro line front word gap typed hline htouches hhead hbefore hne hword hfront hgapNe hgap
    exact aliasTarget_of_gap hline htouches hhead hbefore hne hword hfront hgapNe hgap

/-- A name above an empty row, and a keyword right before the word. -/
theorem aliasTarget_takes_words_import :
    (∃ word, Span.slice? ⟨⟨0, 14⟩, ⟨0, 20⟩⟩ (Text.ofLines ["from m import größ".toList, [],
        "  as".toList]) = some word ∧ Pattern.Matches Atom.name word) ∧
      aliasTarget ["import a".toList] ⟨0, 8⟩ = some ⟨⟨0, 0⟩, ⟨0, 6⟩⟩ := by
  constructor
  · have hfound : aliasTarget ["from m import größ".toList, [], "  as".toList] ⟨2, 4⟩ =
        some ⟨⟨0, 14⟩, ⟨0, 20⟩⟩ := by decide
    have hslice : Span.slice? ⟨⟨0, 14⟩, ⟨0, 20⟩⟩ (Text.ofLines ["from m import größ".toList, [],
        "  as".toList]) = some "größ".toList := by decide
    obtain ⟨word, hcovered, -, -, hname⟩ := (aliasTarget_takes_words _ _).1 (by decide) _ hfound
    refine ⟨word, hcovered, hname.2 ?_⟩
    obtain rfl := Option.some.inj (hcovered.symm.trans hslice)
    refine ⟨fun c hc => ?_, by decide⟩
    obtain rfl : 'g' = c := Option.some.inj hc
    exact .inr (by decide)
  · have hword : "import".toList.all isWordChar = true := by decide
    have hgap : " ".toList.all isBlank = true := by decide
    exact (aliasTarget_takes_words ["import a".toList] ⟨0, 8⟩).2 _ [] "import".toList " ".toList
      ⟨"import ".toList, ['a'], []⟩ rfl (Word.touches_iff.2 (by decide)) rfl rfl (by decide)
      (List.all_eq_true.1 hword) (by simp) (by decide) (List.all_eq_true.1 hgap)

/-- A keyword, a number and a word with a superscript are proposed. -/
theorem aliasTarget_not_name :
    (aliasTarget ["import a".toList] ⟨0, 8⟩ = some ⟨⟨0, 0⟩, ⟨0, 6⟩⟩ ∧
      Span.slice? ⟨⟨0, 0⟩, ⟨0, 6⟩⟩ "import a".toList = some "import".toList ∧
      Atom.isKeyword "import".toList = true) ∧
    (aliasTarget ["x = 1 a".toList] ⟨0, 7⟩ = some ⟨⟨0, 4⟩, ⟨0, 5⟩⟩ ∧
      Span.slice? ⟨⟨0, 4⟩, ⟨0, 5⟩⟩ "x = 1 a".toList = some "1".toList ∧
      ¬ Pattern.Matches Atom.name "1".toList) ∧
    (aliasTarget ["x² a".toList] ⟨0, 5⟩ = some ⟨⟨0, 0⟩, ⟨0, 3⟩⟩ ∧
      Span.slice? ⟨⟨0, 0⟩, ⟨0, 3⟩⟩ "x² a".toList = some "x²".toList ∧
      ¬ Pattern.Matches Atom.name "x²".toList) := by
  have hnumber : "1".toList.all isWordChar = true := by decide
  have hsuperscript : "x²".toList.all isWordChar = true := by decide
  refine ⟨⟨by decide, by decide, by decide⟩, ⟨by decide, by decide, ?_⟩,
    by decide, by decide, ?_⟩
  · rw [Atom.matches_name_iff_of_isWord (by decide) (List.all_eq_true.1 hnumber)]
    rintro ⟨hfirst, -⟩
    exact absurd (hfirst '1' rfl) (by decide)
  · rw [Atom.matches_name_iff_of_isWord (by decide) (List.all_eq_true.1 hsuperscript)]
    rintro ⟨-, honly⟩
    exact absurd honly (by decide)

end DotTarget
