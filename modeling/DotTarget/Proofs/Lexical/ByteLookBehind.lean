import DotTarget.Proofs.Lexical.BackwardReading
import DotTarget.Proofs.Lexical.CodeRows

set_option autoImplicit false

/-! # Looking behind at bytes

What a quote is shows in the characters to its left. A row is kept in UTF-8, and a reader that
stands at a byte of it looks at the bytes before that one: `escapeRunInBytes` counts backslashes
there, `endsTripleInBytes` compares the two bytes before a quote with it. Backslashes and quotes
have one byte each, and no character of more bytes ends with one of theirs
(`getLast?_utf8EncodeChar`). So at every character of a row the bytes tell what the characters tell,
however many bytes the others have (`Matcher.InRow.feedInBytes_eq`). -/

namespace DotTarget

/-! ## The bytes of a text -/

theorem utf8EncodeChar_of_lt {c : Char} (h : c.toNat < 128) :
    String.utf8EncodeChar c = [c.toUInt8] := by
  have hle : c.val.toNat ≤ 127 := Nat.le_of_lt_succ h
  rw [String.utf8EncodeChar, if_pos hle]
  rfl

/-- A character of more than one byte ends with a byte that is no character of its own. -/
theorem exists_last_byte {c : Char} (h : 128 ≤ c.toNat) :
    ∃ front last, String.utf8EncodeChar c = front ++ [last] ∧ 128 ≤ last.toNat := by
  have hlast : 128 ≤ (UInt8.ofNat (c.val.toNat % 64 + 128)).toNat := by
    rw [UInt8.toNat_ofNat']
    omega
  have hnot : ¬c.val.toNat ≤ 127 := Nat.not_le_of_gt h
  unfold String.utf8EncodeChar
  simp only [if_neg hnot]
  split
  · exact ⟨[_], _, rfl, hlast⟩
  · split
    · exact ⟨[_, _], _, rfl, hlast⟩
    · exact ⟨[_, _, _], _, rfl, hlast⟩

/-- A character ends with the byte of an ASCII character only if it is that character. -/
theorem getLast?_utf8EncodeChar {a : Char} (ha : a.toNat < 128) (c : Char) :
    (String.utf8EncodeChar c).getLast? = some a.toUInt8 ↔ c = a := by
  have hbyte : ∀ {d : Char}, d.toNat < 128 → d.toUInt8.toNat = d.toNat := fun {d} hd =>
    Nat.mod_eq_of_lt (by omega : d.toNat < 256)
  by_cases hc : c.toNat < 128
  · rw [utf8EncodeChar_of_lt hc, List.getLast?_singleton, Option.some.injEq]
    constructor
    · intro heq
      have := congrArg UInt8.toNat heq
      rw [hbyte hc, hbyte ha] at this
      exact Char.toNat_inj.1 this
    · intro heq
      rw [heq]
  · obtain ⟨front, last, hencode, hlast⟩ := exists_last_byte (Nat.le_of_not_lt hc)
    rw [hencode, List.getLast?_append, List.getLast?_singleton, Option.some_or, Option.some.injEq]
    constructor
    · intro heq
      rw [heq, hbyte ha] at hlast
      omega
    · intro heq
      exact absurd (heq ▸ ha) hc

namespace Text

/-- The bytes of the UTF-8 form. -/
def bytes (t : Text) : List UInt8 :=
  t.flatMap String.utf8EncodeChar

@[simp] theorem bytes_cons (c : Char) (t : Text) :
    bytes (c :: t) = String.utf8EncodeChar c ++ bytes t := rfl

@[simp] theorem bytes_append (s t : Text) : bytes (s ++ t) = bytes s ++ bytes t :=
  List.flatMap_append

@[simp] theorem length_bytes (t : Text) : (bytes t).length = width t := by
  induction t with
  | nil => rfl
  | cons c t ih =>
    rw [bytes_cons, List.length_append, String.length_utf8EncodeChar, ih, width_cons]

/-- The bytes before the end of a front part are those of the front part. -/
theorem take_bytes_append (front rest : Text) :
    (bytes (front ++ rest)).take (width front) = bytes front := by
  rw [bytes_append, ← length_bytes front, List.take_left]

/-- The byte right before a place is that of an ASCII character only if this character stands
there. -/
theorem getElem?_bytes_before_iff {a : Char} (ha : a.toNat < 128) (c : Char) (left rest : Text) :
    (bytes ((c :: left).reverse ++ rest))[width (c :: left) - 1]? = some a.toUInt8 ↔ c = a := by
  have hpos := c.utf8Size_pos
  have hindex : width (c :: left) - 1 = (bytes left.reverse).length + (c.utf8Size - 1) := by
    rw [length_bytes, width_reverse, width_cons]
    omega
  have hlast : c.utf8Size - 1 < (String.utf8EncodeChar c).length := by
    rw [String.length_utf8EncodeChar]
    omega
  rw [← getLast?_utf8EncodeChar ha, List.getLast?_eq_getElem?, String.length_utf8EncodeChar, hindex,
    List.reverse_cons, List.append_assoc, bytes_append,
    List.getElem?_append_right (Nat.le_add_right _ _), Nat.add_sub_cancel_left,
    List.singleton_append, bytes_cons, List.getElem?_append_left hlast]

end Text

namespace Matcher

/-! ## Backslashes and quotes before a byte -/

/-- The number of backslashes that end right before byte `n`. -/
def escapeRunInBytes (bytes : List UInt8) (n : Nat) : Nat :=
  ((bytes.take n).reverse.takeWhile (· = '\\'.toUInt8)).length

/-- Whether a quote at byte `n` is the last of an unescaped triple quote. -/
def endsTripleInBytes (bytes : List UInt8) (n : Nat) (quote : Char) : Bool :=
  2 ≤ n && bytes[n - 2]? = some quote.toUInt8 && bytes[n - 1]? = some quote.toUInt8 &&
    escapeRunInBytes bytes (n - 2) % 2 = 0

/-- Feeds the character at a byte of a row, with what the bytes before it tell. -/
def feedInBytes (m : Matcher) (line : Text) (byte : Nat) (c : Char) : Matcher × Step :=
  m.advance c (endsTripleInBytes (Text.bytes line) byte c)
    (escapeRunInBytes (Text.bytes line) byte)

theorem escapeRunInBytes_eq (left rest : Text) :
    escapeRunInBytes (Text.bytes (left.reverse ++ rest)) (Text.width left) = escapeRun left := by
  rw [escapeRunInBytes, ← Text.width_reverse, Text.take_bytes_append]
  induction left with
  | nil => rfl
  | cons c left ih =>
    rw [List.reverse_cons, Text.bytes_append, List.reverse_append]
    by_cases hc : c = '\\'
    · subst hc
      rw [escapeRun_backslash, ← ih]
      rfl
    · -- The last byte of `c` is met first and ends the run.
      obtain ⟨front, last, hencode⟩ :=
        (List.eq_nil_or_concat' (String.utf8EncodeChar c)).resolve_left String.utf8EncodeChar_ne_nil
      have hlast : last ≠ '\\'.toUInt8 := by
        intro heq
        apply hc
        rw [← getLast?_utf8EncodeChar (by decide) c, hencode, heq]
        simp
      simp [escapeRun_cons_of_ne hc, hencode, hlast]

/-- The two bytes before a quote are compared with it as the two characters before it are. -/
theorem endsTripleInBytes_eq {quote : Char} (hquote : isQuote quote = true) (left rest : Text) :
    endsTripleInBytes (Text.bytes (left.reverse ++ rest)) (Text.width left) quote =
      endsTriple quote left := by
  obtain ⟨hascii, hsize⟩ : quote.toNat < 128 ∧ quote.utf8Size = 1 := by
    simp only [isQuote, Bool.or_eq_true, decide_eq_true_eq] at hquote
    rcases hquote with rfl | rfl <;> decide
  have hbefore := fun c left rest => Text.getElem?_bytes_before_iff hascii c left rest
  cases left with
  | nil => rfl
  | cons a left =>
    by_cases ha : a = quote
    · subst ha
      cases left with
      | nil => simp [endsTripleInBytes, endsTriple, hsize]
      | cons b left =>
        have hrow : (a :: b :: left).reverse ++ rest = (b :: left).reverse ++ a :: rest := by simp
        have hwidth : Text.width (a :: b :: left) = Text.width (b :: left) + 1 := by
          rw [Text.width_cons, hsize, Nat.add_comm]
        have htwo : 2 ≤ Text.width (b :: left) + 1 := by
          have hpos := b.utf8Size_pos
          rw [Text.width_cons]
          omega
        have hnear := (hbefore a (b :: left) rest).2 rfl
        rw [hrow, hwidth] at hnear
        rw [endsTripleInBytes, hrow, hwidth, decide_eq_true htwo, decide_eq_true hnear,
          Nat.add_sub_add_right _ 1 1]
        by_cases hb : b = a
        · subst hb
          -- Both have one byte, so the run is counted from right before them.
          have hrun : escapeRunInBytes (Text.bytes ((b :: left).reverse ++ b :: rest))
              (Text.width (b :: left) - 1) = escapeRun left := by
            rw [Text.width_cons, hsize, Nat.add_sub_cancel_left, List.reverse_cons,
              List.append_assoc]
            exact escapeRunInBytes_eq left _
          rw [decide_eq_true ((hbefore b left _).2 rfl), hrun]
          simp [endsTriple]
        · rw [decide_eq_false (mt (hbefore b left _).1 hb), endsTriple_cons_cons_of_ne hb]
          rfl
    · rw [endsTripleInBytes, decide_eq_false (mt (hbefore a left rest).1 ha),
        endsTriple_cons_of_ne ha]
      simp only [Bool.and_false, Bool.false_and]

/-- Only at quotes does it matter whether a triple quote ends. -/
theorem InRow.advance_congr {m : Matcher} (h : m.InRow) {c : Char} {triple triple' : Bool}
    (htriple : isQuote c = true → triple = triple') (run : Nat) :
    m.advance c triple run = m.advance c triple' run := by
  by_cases hquote : isQuote c = true
  · rw [htriple hquote]
  · unfold advance
    split
    · rfl
    · split
      · simp [Matcher.feedCode, hquote]
      · rename_i quote hmode
        have hne : c ≠ quote := by
          intro heq
          exact hquote (heq ▸ h quote hmode)
        simp [hne]
      · rfl
      · rfl

/-- **At every character of a row the bytes before it tell what the characters before it tell.** -/
theorem InRow.feedInBytes_eq {m : Matcher} (h : m.InRow) (left right : Text) (c : Char) :
    m.feedInBytes (left.reverse ++ c :: right) (Text.width left) c = m.feed left c := by
  unfold feedInBytes Matcher.feed
  rw [escapeRunInBytes_eq]
  exact h.advance_congr (fun hquote => endsTripleInBytes_eq hquote left (c :: right)) _

end Matcher

end DotTarget
