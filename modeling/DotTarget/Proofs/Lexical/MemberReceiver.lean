import DotTarget.Proofs.Document.CoveredRows
import DotTarget.Proofs.Lexical.CommentReading
import DotTarget.Proofs.Lexical.MismatchBound
import DotTarget.Proofs.Lexical.ScanCaps
import DotTarget.Proofs.Lexical.StepCases

set_option autoImplicit false

/-! # Members and their receivers

A step over a member leads to the end of its receiver, and the next step is to take the receiver.
It may refuse to, because only the end of the receiver was looked at: a closing bracket may have no
opener, a quote may end no literal, and a member may itself have no receiver. Then the scan ends
between the two.

So the text that a scan finds begins with an operand that was taken, or it leads to a member whose
receiver was refused (`scan_operand_or_refused`). -/

namespace DotTarget

/-! ## What stands behind the code of a row -/

/-- Behind the code of a row stand blanks or a comment. -/
theorem exists_eq_codeOf_append (row : Text) :
    ∃ tail, row = codeOf row ++ tail ∧ ∀ c ∈ tail.head?, CharClass.isBlank c = true ∨ c = '#' := by
  obtain ⟨comment, hcomment, hhash⟩ := Comment.exists_eq_stripFrom_append .code row
  obtain ⟨blanks, hblanks, hall⟩ := Text.exists_eq_trimEnd_append (Comment.strip row)
  refine ⟨blanks ++ comment, ?_, ?_⟩
  · rw [← List.append_assoc, codeOf, ← hblanks]
    exact hcomment
  · intro c hc
    cases blanks with
    | nil => exact .inr (hhash c hc)
    | cons d blanks =>
      obtain rfl : d = c := Option.some.inj hc
      exact .inl (hall d List.mem_cons_self)

/-- Behind the code that a backslash joins to the next row stand blanks and the backslash. -/
theorem exists_eq_append_of_joins {row code : Text} (h : codeOf row = code ++ ['\\']) :
    ∃ blanks tail, row = Text.trimEnd code ++ (blanks ++ '\\' :: tail) ∧
      ∀ c ∈ blanks, CharClass.isBlank c = true := by
  obtain ⟨tail, htail, -⟩ := exists_eq_codeOf_append row
  obtain ⟨blanks, hblanks, hall⟩ := Text.exists_eq_trimEnd_append code
  refine ⟨blanks, tail, ?_, hall⟩
  rw [← List.append_assoc, ← hblanks, htail, h]
  simp

namespace Scan

/-- Whether a text begins with a member or with something that may stand between a receiver and its
member: a blank, a comment, or a backslash that joins two rows. -/
def leadsToMember (t : Text) : Bool :=
  isMemberAccess t || t.head?.any fun c => CharClass.isBlank c || c = '#' || c = '\\'

/-- A text that begins with an opening bracket, or with an atom that is not a member. -/
inductive BeginsWithOperand : Text → Prop where
  | bracket {c : Char} {rest : Text} (h : isOpener c = true) : BeginsWithOperand (c :: rest)
  | atom {atom rest : Text} (h : Atom.IsAtom atom) (hmember : isMemberAccess atom = false) :
      BeginsWithOperand (atom ++ rest)

theorem BeginsWithOperand.append {part : Text} (h : BeginsWithOperand part) (more : Text) :
    BeginsWithOperand (part ++ more) := by
  cases h with
  | bracket h => exact .bracket h
  | atom h hmember =>
    rw [List.append_assoc]
    exact .atom h hmember

theorem leadsToMember_append {part : Text} (h : leadsToMember part = true) (more : Text) :
    leadsToMember (part ++ more) = true := by
  simp only [leadsToMember, Bool.or_eq_true] at h ⊢
  rcases h with h | h
  · left
    unfold isMemberAccess at h
    split at h
    · simpa [isMemberAccess] using h
    · simp at h
  · right
    cases part with
    | nil => simp at h
    | cons c part => exact h

theorem leadsToMember_of_head? {t : Text} {c : Char} (hc : t.head? = some c)
    (h : CharClass.isBlank c = true ∨ c = '#' ∨ c = '\\') : leadsToMember t = true := by
  simp only [leadsToMember, hc, Option.any_some, Bool.or_eq_true, decide_eq_true_eq]
  tauto

/-! ## The first character of an operand -/

/-- What an atom begins with. -/
theorem exists_cons_of_isHead {head : Text} (h : Atom.IsHead head) :
    (∃ c more, head = c :: more ∧ (isQuote c = true ∨ CharClass.isNamePart c = true)) ∨
      (∃ d more, head = '.' :: d :: more ∧ Atom.isDigit d = true) ∨
      ∃ name : Name, head = '.' :: name.text := by
  have hdigit {d : Char} (hd : Atom.isDigit d = true) : CharClass.isNamePart d = true := by
    have hall : "0123456789".toList.all CharClass.isNamePart = true := by decide
    exact List.all_eq_true.1 hall d (Atom.mem_digits_iff.2 hd)
  cases h with
  | quotations first rest =>
    left
    cases hletters : first.letters with
    | nil =>
      obtain ⟨more, hmore⟩ := first.quoted_eq_cons
      exact ⟨first.quote, more ++ SpacedQuotation.texts rest,
        by simp [Quotation.text, hletters, hmore], .inl first.quote_isQuote⟩
    | cons c more =>
      have hall : literalLetters.all CharClass.isNamePart = true := by decide
      exact ⟨c, more ++ first.quoted ++ SpacedQuotation.texts rest,
        by simp [Quotation.text, hletters],
        .inr (List.all_eq_true.1 hall c (first.mem_of_mem_letters c (by simp [hletters])))⟩
  | number h =>
    cases h with
    | hexadecimal h | octal h | binary h =>
      obtain ⟨mark, rest, rfl, -⟩ := h
      exact .inl ⟨'0', _, rfl, .inr (by decide)⟩
    | decimal hm =>
      cases hm with
      | whole h =>
        obtain ⟨d, rest, rfl, hd, -⟩ := h
        exact .inl ⟨d, _, rfl, .inr (hdigit hd)⟩
      | fraction h =>
        obtain ⟨d, rest, rfl, hd, -⟩ := h
        exact .inl ⟨d, _, rfl, .inr (hdigit hd)⟩
      | point h =>
        obtain ⟨d, rest, rfl, hd, -⟩ := h
        exact .inr (.inl ⟨d, _, rfl, hd⟩)
  | name name =>
    exact .inl ⟨name.first, name.rest, rfl,
      .inr (Atom.isNamePart_of_isNameStart name.first_isNameStart)⟩
  | member name => exact .inr (.inr ⟨name, rfl⟩)

/-- A text that begins with an operand does not lead to a member. -/
theorem BeginsWithOperand.leadsToMember_eq {t : Text} (h : BeginsWithOperand t) :
    leadsToMember t = false := by
  -- Anything but a dot that a gap cannot begin with will do.
  have hother {c : Char} {rest : Text} (hdot : c ≠ '.') (hblank : CharClass.isBlank c = false)
      (hhash : c ≠ '#') (hjoin : c ≠ '\\') : leadsToMember (c :: rest) = false := by
    have haccess : isMemberAccess (c :: rest) = false :=
      isMemberAccess_of_head?_ne (by simpa using hdot)
    simp [leadsToMember, haccess, hblank, hhash, hjoin]
  cases h with
  | bracket h =>
    simp only [isOpener, Bool.or_eq_true, decide_eq_true_eq] at h
    rcases h with (rfl | rfl) | rfl <;>
      exact hother (by decide) (by decide) (by decide) (by decide)
  | @atom atom rest hatom hmember =>
    obtain ⟨head, names, rfl, hhead⟩ := hatom
    obtain ⟨c, more, rfl, hc⟩ | ⟨d, more, rfl, hd⟩ | ⟨name, rfl⟩ := exists_cons_of_isHead hhead
    · have hsturdy : Atom.isSturdy c = true := by
        rcases hc with hc | hc <;> simp [Atom.isSturdy, hc]
      have hne {d : Char} (hd : isQuote d = false ∧ CharClass.isNamePart d = false) : c ≠ d := by
        rintro rfl
        simp [hd] at hc
      have hblank : CharClass.isBlank c = false := by
        by_contra hblank
        rw [Atom.isSturdy_of_isBlank (by simpa using hblank)] at hsturdy
        exact Bool.noConfusion hsturdy
      exact hother (hne (by decide)) hblank (hne (by decide)) (hne (by decide))
    · have hdigits : "0123456789".toList.all
          (fun d => decide (d ≠ '_') && !CharClass.isAlphabetic d) = true := by decide
      obtain ⟨hunderscore, halphabetic⟩ : d ≠ '_' ∧ CharClass.isAlphabetic d = false := by
        simpa using List.all_eq_true.1 hdigits d (Atom.mem_digits_iff.2 hd)
      have hdot : CharClass.isBlank '.' = false := by decide
      simp [leadsToMember, isMemberAccess, hunderscore, halphabetic, hdot]
    · rw [List.cons_append, name.isMemberAccess_member] at hmember
      exact Bool.noConfusion hmember

/-! ## One step -/

/-- What stands between a receiver and its member leads to the member, if there is anything. -/
theorem ReceiverCase.exists_gap {t front rest : Text} {dot next : Position}
    (h : ReceiverCase (Text.lines t) dot front next)
    (hline : (Text.lines t)[dot.row]? = some (front ++ rest))
    (hdot : dot = ⟨dot.row, Text.width front⟩) :
    ∃ gap, Span.Covers t ⟨next, dot⟩ gap ∧ (gap = [] ∨ leadsToMember gap = true) := by
  have hplace : IsPlace (Text.lines t) dot :=
    ⟨_, front, hline, List.prefix_append _ _, by rw [hdot]⟩
  -- A receiver above is followed by the end of its row.
  have habove {row : Nat} {code tail : Text} (hrow : row < dot.row)
      (hcode : (Text.lines t)[row]? = some (code ++ tail))
      (htail : leadsToMember (tail ++ ['\n']) = true) :
      ∃ gap, Span.Covers t ⟨⟨row, Text.width code⟩, dot⟩ gap ∧
        (gap = [] ∨ leadsToMember gap = true) := by
    obtain ⟨hlength, -⟩ := List.getElem?_eq_some_iff.1 hline
    have hend : (⟨row + 1, 0⟩ : Position) ≤ dot := by
      rw [Position.le_def]
      dsimp only
      omega
    obtain ⟨more, hmore⟩ :=
      Span.exists_covers_append (Span.covers_rowEnd hcode (by omega)) hplace hend
    exact ⟨_, hmore, .inr (leadsToMember_append htail more)⟩
  cases h with
  | closer =>
    refine ⟨[], ?_, .inl rfl⟩
    rw [hdot]
    have hnone : Span.Covers t _ [] := Span.covers_row (List.append_nil front ▸ hline)
    rwa [List.append_nil] at hnone
  | near =>
    obtain ⟨tail, htail, hhead⟩ := exists_eq_codeOf_append front
    refine ⟨tail, ?_, ?_⟩
    · have hcovers := Span.covers_row (htail ▸ hline)
      rw [← htail] at hcovers
      rw [hdot]
      exact hcovers
    · cases hfirst : tail.head? with
      | none => exact .inl (List.head?_eq_none_iff.1 hfirst)
      | some c => exact .inr (leadsToMember_of_head? hfirst ((hhead c hfirst).imp_right .inl))
  | @above row line hrow hcode =>
    obtain ⟨tail, htail, hhead⟩ := exists_eq_codeOf_append line
    refine habove hrow (htail ▸ hcode) ?_
    cases tail with
    | nil => decide
    | cons c tail => exact leadsToMember_of_head? rfl ((hhead c rfl).imp_right .inl)
  | @joined row line rest' hrow hcode hjoin =>
    obtain ⟨blanks, tail, hsplit, hall⟩ := exists_eq_append_of_joins hjoin
    refine habove hrow (hsplit ▸ hcode) ?_
    cases blanks with
    | nil => exact leadsToMember_of_head? rfl (.inr (.inr rfl))
    | cons c blanks => exact leadsToMember_of_head? rfl (.inl (hall c (by simp)))

/-- The text from `start` to `stop` begins with an operand, or leads to a member whose receiver was
found to end at `start`. -/
def OperandOrMember (t : Text) (start stop : Position) : Prop :=
  ∃ part, Span.Covers t ⟨start, stop⟩ part ∧ (BeginsWithOperand part ∨
    leadsToMember part = true ∧
      ∃ dot, IsPlace (Text.lines t) dot ∧ start ≤ dot ∧ dot < stop ∧
        memberReceiver (Text.lines t) dot = some start)

/-- **A step that moves passes over an operand, or over a member and what leads to it.** -/
theorem StepCase.operandOrMember {t : Text} {place next : Position}
    (h : StepCase (Text.lines t) place next) (hplace : IsPlace (Text.lines t) place)
    (hmoved : next ≠ place) : OperandOrMember t next place := by
  obtain ⟨whole, before, hwhole, ⟨rest, rfl⟩, hwidth⟩ := hplace
  have hplace' : IsPlace (Text.lines t) place := ⟨_, before, hwhole, List.prefix_append _ _, hwidth⟩
  -- An atom at the end of what stands before the place is covered from its first character on.
  have hcovers {line atom : Text} (hline : (Text.lines t)[place.row]? = some line)
      (hatom : atomEnd (Text.cut line place.column) = some atom) :
      ∃ front, (Text.lines t)[place.row]? = some (front ++ (atom ++ rest)) ∧
        Text.width (Text.cut line place.column) - Text.width atom = Text.width front ∧
        Span.Covers t ⟨⟨place.row, Text.width front⟩, place⟩ atom ∧
        Text.width front < place.column := by
    obtain rfl := Option.some.inj (hwhole.symm.trans hline)
    rw [← hwidth, Text.cut_append_width] at hatom ⊢
    obtain ⟨front, rfl, hstart⟩ := atomEnd_eq_some hatom
    refine ⟨front, by rw [hwhole, List.append_assoc], hstart, ?_, ?_⟩
    · have hrow := Span.covers_row hwhole
      rwa [hwidth] at hrow
    · rw [← hstart]
      exact width_sub_lt_of_atomEnd hatom
  cases h with
  | outside | nothing | unmatched | orphan => exact absurd rfl hmoved
  | group hopener =>
    obtain ⟨front, c, behind, hline, hp, hc, hle⟩ := findOpener_at hopener
    obtain ⟨more, hmore⟩ := Span.exists_covers_append (Span.covers_row hline) hplace' hle
    rw [← hp] at hmore
    exact ⟨_, hmore, .inl (.bracket hc)⟩
  | @atom line atom hline hatom hmember =>
    obtain ⟨front, -, hstart, hatomCovers, -⟩ := hcovers hline hatom
    rw [hstart]
    refine ⟨_, hatomCovers, .inl ?_⟩
    rw [← List.append_nil atom]
    exact .atom (isAtom_of_atomEnd hatom).1 hmember
  | member hline hatom hmember hreceiver =>
    obtain ⟨front, hrow, hstart, hatomCovers, hlt⟩ := hcovers hline hatom
    rw [hstart] at hreceiver
    have hcase : ReceiverCase _ ⟨place.row, Text.width front⟩ _ next := receiverCase hrow hreceiver
    rw [Text.cut_append_width] at hcase
    obtain ⟨gap, hgap, hleads⟩ := hcase.exists_gap hrow rfl
    obtain ⟨-, hdot, hle⟩ := Span.exists_covers_iff.1 ⟨gap, hgap⟩
    refine ⟨gap ++ _, hgap.append hatomCovers, .inr ⟨?_, _, hdot, hle, .inr ⟨rfl, hlt⟩, hreceiver⟩⟩
    rcases hleads with rfl | hleads
    · simp [leadsToMember, hmember]
    · exact leadsToMember_append hleads _

/-! ## Whole walks -/

/-- **What a walk has passed over begins as what its last move passed over.** -/
theorem walk_operandOrMember {t : Text} {cap : Nat} {place : Position} {w : Walk}
    (hplace : IsPlace (Text.lines t) place) (h : walk (Text.lines t) cap place = .ok w) :
    w.start = place ∨ OperandOrMember t w.start place := by
  induction cap generalizing place w with
  | zero =>
    obtain rfl := Except.ok.inj h
    exact .inl rfl
  | succ cap ih =>
    obtain ⟨-, rfl⟩ | ⟨hlt, rest, hrest, rfl⟩ := walk_succ_cases h
    · exact .inl rfl
    · right
      have hnext := (step_le_and_isPlace _ _).2 hplace
      obtain ⟨part, hpart, hfirst⟩ :=
        (stepCase (Text.lines t) place).operandOrMember hplace (Position.ne_of_lt hlt)
      rcases ih (w := rest) hnext hrest with hstart | ⟨part', hpart', hrun⟩
      · rw [hstart]
        exact ⟨part, hpart, hfirst⟩
      · refine ⟨_, hpart'.append hpart, ?_⟩
        rcases hrun with hoperand | ⟨hleads, dot, hdot, hle, hless, hreceiver⟩
        · exact .inl (hoperand.append part)
        · exact .inr ⟨leadsToMember_append hleads part, dot, hdot, hle,
            Position.lt_trans hless hlt, hreceiver⟩

/-! ## Refused receivers -/

/-- Why a receiver that ends at a place is not taken. -/
inductive Refused (lines : List Text) (place : Position) : Prop where
  /-- It ends with a closing bracket that has no opener. -/
  | closer {line : Text} {c : Char} (hline : lines[place.row]? = some line)
      (hlast : (Text.cut line place.column).getLast? = some c) (hcloser : isCloser c = true)
      (hopener : (findOpener lines place).opener = none)
  /-- It ends with a quote that ends no literal. -/
  | quote {line : Text} {q : Char} (hline : lines[place.row]? = some line)
      (hlast : (Text.cut line place.column).getLast? = some q) (hquote : isQuote q = true)
      (hatom : atomEnd (Text.cut line place.column) = none)
  /-- It is a member without a receiver. -/
  | member {line atom : Text} (hline : lines[place.row]? = some line)
      (hatom : atomEnd (Text.cut line place.column) = some atom)
      (hmember : isMemberAccess atom = true)
      (hreceiver : memberReceiver lines
        ⟨place.row, Text.width (Text.cut line place.column) - Text.width atom⟩ = none)
  /-- It ends before a comment that the place is in. -/
  | comment {line : Text} (hline : lines[place.row]? = some line)
      (hcomment : Comment.strip (Text.cut line place.column) ≠ Text.cut line place.column)

/-- Where a step stays, something is refused or nothing to be taken ends there. -/
theorem StepCase.refused_or_nothing {lines : List Text} {place next : Position}
    (h : StepCase lines place next) (hstay : next = place) {before rest : Text}
    (hline : lines[place.row]? = some (before ++ rest))
    (hwidth : Text.width before = place.column) :
    Refused lines place ∨
      (atomEnd before = none ∧ ∀ c ∈ before.getLast?, isCloser c = false) := by
  have hcut : Text.cut (before ++ rest) place.column = before := by
    rw [← hwidth, Text.cut_append_width]
  have hlt {line atom : Text} (hatom : atomEnd (Text.cut line place.column) = some atom) :
      Text.width (Text.cut line place.column) - Text.width atom < place.column :=
    (width_sub_lt_of_atomEnd hatom).trans_le (Text.width_cut_le line place.column)
  cases h with
  | outside hnone =>
    rw [hline] at hnone
    exact absurd hnone (by simp)
  | nothing hline' hatom hcloser =>
    obtain rfl := Option.some.inj (hline.symm.trans hline')
    rw [hcut] at hatom hcloser
    exact .inr ⟨hatom, hcloser⟩
  | unmatched hline' hlast hcloser hopener => exact .inl (.closer hline' hlast hcloser hopener)
  | group hopener => exact absurd hstay (Position.ne_of_lt (findOpener_lt hopener))
  | atom hline' hatom =>
    exact absurd hstay (Position.ne_of_lt (.inr ⟨rfl, hlt hatom⟩))
  | orphan hline' hatom hmember hreceiver => exact .inl (.member hline' hatom hmember hreceiver)
  | @member line atom _ hline' hatom hmember hreceiver =>
    obtain ⟨front, hsplit, hstart⟩ := atomEnd_eq_some hatom
    have hdot : IsPlace lines
        ⟨place.row, Text.width (Text.cut line place.column) - Text.width atom⟩ :=
      ⟨line, front, hline', (List.prefix_append front atom).trans
        (hsplit ▸ Text.cut_prefix line place.column), hstart.symm⟩
    have hle := (memberReceiver_eq_some hdot hreceiver).2
    rw [hstay, Position.le_def] at hle
    have hless := hlt hatom
    dsimp only at hle
    omega

/-- A receiver that a step does not take is refused. -/
theorem ReceiverCase.refused {lines : List Text} {dot p : Position} {front rest : Text}
    (h : ReceiverCase lines dot front p) (hline : lines[dot.row]? = some (front ++ rest))
    (hdot : dot = ⟨dot.row, Text.width front⟩) (hstay : (step lines p).1 = p) :
    Refused lines p := by
  -- What can have members ends with a closer, a quote or an atom.
  have hoperand {row : Nat} {receiver tail : Text}
      (hrow : lines[row]? = some (receiver ++ tail)) (hends : endsOperand receiver = true)
      (hstay : (step lines ⟨row, Text.width receiver⟩).1 = ⟨row, Text.width receiver⟩) :
      Refused lines ⟨row, Text.width receiver⟩ := by
    obtain hrefused | ⟨hatom, hcloser⟩ :=
      (stepCase lines ⟨row, Text.width receiver⟩).refused_or_nothing hstay hrow rfl
    · exact hrefused
    · unfold endsOperand at hends
      split at hends
      · simp at hends
      · rename_i c hlast
        rw [hcloser c hlast, hatom] at hends
        refine .quote hrow ?_ (by simpa using hends) ?_
        · rw [Text.cut_append_width, hlast]
        · rw [Text.cut_append_width, hatom]
  cases h with
  | closer hlast hcloser =>
    by_cases hstrip : Comment.strip front = front
    · rw [hstrip] at hlast
      obtain hrefused | ⟨-, hnot⟩ :=
        (stepCase lines dot).refused_or_nothing hstay hline (by rw [hdot])
      · exact hrefused
      · rw [hnot _ hlast] at hcloser
        exact Bool.noConfusion hcloser
    · refine .comment hline ?_
      rwa [hdot, Text.cut_append_width]
  | near hends =>
    obtain ⟨tail, htail, -⟩ := exists_eq_codeOf_append front
    have hrow : lines[dot.row]? = some (codeOf front ++ (tail ++ rest)) := by
      rw [← List.append_assoc, ← htail, hline]
    exact hoperand hrow hends hstay
  | @above row line hrow hcode hends =>
    obtain ⟨tail, htail, -⟩ := exists_eq_codeOf_append line
    exact hoperand (htail ▸ hcode) hends hstay
  | @joined row line rest' hrow hcode hjoin hends =>
    obtain ⟨blanks, tail, hsplit, -⟩ := exists_eq_append_of_joins hjoin
    exact hoperand (hsplit ▸ hcode) hends hstay

end Scan

/-- **A scan finds an operand, or a member whose receiver is refused.** Let a scan of a text
converge and find something. The text found begins with an operand, which is a bracketed group or an
atom that is not a member, exactly if it does not begin with a member or with what may stand before
one. If it does, the scan went over a member, its start is where the receiver of that member was
found to end, and the receiver is refused. -/
theorem scan_operand_or_refused {t : Text} {place : Position} {cap : Nat} {outcome : Scan.Outcome}
    (hscan : scan (Text.lines t) place cap = .ok outcome) (hconverged : outcome.converged = true)
    (hne : outcome.span.isEmpty = false) :
    ∃ covered, outcome.span.slice? t = some covered ∧
      (Scan.BeginsWithOperand covered ↔ Scan.leadsToMember covered = false) ∧
      (Scan.leadsToMember covered = true →
        (∃ dot, outcome.span.contains dot = true ∧
          Scan.memberReceiver (Text.lines t) dot = some outcome.span.start) ∧
        Scan.Refused (Text.lines t) outcome.span.start) := by
  obtain ⟨w, hw, -⟩ :=
    Scan.walk_eq_ok (Text.lines t) cap (Scan.clamp (Text.lines t) (place.shiftedLeft 1))
  obtain rfl := Except.ok.inj ((Scan.scan_of_walk hw).symm.trans hscan)
  have hmoved : w.start ≠ Scan.clamp (Text.lines t) (place.shiftedLeft 1) := by
    simpa [Span.isEmpty] using hne
  have hstop : IsPlace (Text.lines t) (Scan.clamp (Text.lines t) (place.shiftedLeft 1)) := by
    cases hline : (Text.lines t)[place.row]? with
    | none =>
      -- In a row that does not exist the walk would have stayed.
      refine absurd (Scan.start_of_step_eq hw ?_) hmoved
      simp [Scan.step, Scan.clamp, Position.shiftedLeft, hline]
    | some line =>
      refine ⟨line, Text.cut line (place.column - 1), ?_, Text.cut_prefix _ _, ?_⟩ <;>
        simp [Scan.clamp, Position.shiftedLeft, hline]
  obtain ⟨covered, hcovered, hbegins⟩ := (Scan.walk_operandOrMember hstop hw).resolve_left hmoved
  refine ⟨covered, Span.slice?_eq_some_iff.2 hcovered, ?_, ?_⟩
  · refine ⟨Scan.BeginsWithOperand.leadsToMember_eq, ?_⟩
    intro hnot
    rcases hbegins with hoperand | ⟨hleads, -⟩
    · exact hoperand
    · rw [hnot] at hleads
      exact Bool.noConfusion hleads
  · intro hleads
    rcases hbegins with hoperand | ⟨-, dot, hdot, hle, hlt, hreceiver⟩
    · rw [hoperand.leadsToMember_eq] at hleads
      exact Bool.noConfusion hleads
    · refine ⟨⟨dot, by simp [Span.contains, hle, hlt], hreceiver⟩, ?_⟩
      obtain ⟨_, front, hline, ⟨rest, rfl⟩, hwidth⟩ := hdot
      have hcase := Scan.receiverCase hline hreceiver
      rw [← hwidth, Text.cut_append_width] at hcase
      exact hcase.refused hline (by rw [hwidth]) (Scan.step_start_of_converged hw hconverged)

/-! ## Receivers taken and refused -/

theorem scan_operand_or_refused_samples :
    (∃ covered, Span.slice? ⟨⟨0, 0⟩, ⟨0, 7⟩⟩ "f(x) .a.".toList = some covered ∧
      Scan.BeginsWithOperand covered) ∧
    Scan.Refused (Text.lines ".a .b.".toList) ⟨0, 2⟩ := by
  have htaken : scan (Text.lines "f(x) .a.".toList) ⟨0, 8⟩ 9 =
      .ok ⟨⟨⟨0, 0⟩, ⟨0, 7⟩⟩, 4, 0, true⟩ := by decide
  have hrefused : scan (Text.lines ".a .b.".toList) ⟨0, 6⟩ 9 =
      .ok ⟨⟨⟨0, 2⟩, ⟨0, 5⟩⟩, 2, 0, true⟩ := by decide
  have hgroup : Span.slice? ⟨⟨0, 0⟩, ⟨0, 7⟩⟩ "f(x) .a.".toList = some "f(x) .a".toList := by decide
  have hgap : Span.slice? ⟨⟨0, 2⟩, ⟨0, 5⟩⟩ ".a .b.".toList = some " .b".toList := by decide
  obtain ⟨covered, hcovered, hoperand, -⟩ := scan_operand_or_refused htaken rfl (by decide)
  obtain ⟨covered', hcovered', -, hmember⟩ := scan_operand_or_refused hrefused rfl (by decide)
  obtain rfl := Option.some.inj (hgroup.symm.trans hcovered)
  obtain rfl := Option.some.inj (hgap.symm.trans hcovered')
  exact ⟨⟨_, hcovered, hoperand.2 (by decide)⟩, (hmember (by decide)).2⟩

/-- Scans that converge on a text that begins with a blank or with a member. -/
theorem scan_takes_member_alone :
    (scan (Text.lines ".a .b.".toList) ⟨0, 6⟩ 9 = .ok ⟨⟨⟨0, 2⟩, ⟨0, 5⟩⟩, 2, 0, true⟩ ∧
      Span.slice? ⟨⟨0, 2⟩, ⟨0, 5⟩⟩ ".a .b.".toList = some " .b".toList) ∧
    scan (Text.lines ").foo.".toList) ⟨0, 6⟩ 9 = .ok ⟨⟨⟨0, 1⟩, ⟨0, 5⟩⟩, 2, 0, true⟩ ∧
      Span.slice? ⟨⟨0, 1⟩, ⟨0, 5⟩⟩ ").foo.".toList = some ".foo".toList := by
  decide

end DotTarget
