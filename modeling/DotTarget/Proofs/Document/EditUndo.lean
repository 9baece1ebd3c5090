import DotTarget.Proofs.Document.Offsets

set_option autoImplicit false

/-! # Edits and the texts they lead to

The descriptor of an edit is computed from the text before the edit and from what is written, and
not from the text that it leads to. Its bounds fit that text all the same: the end of what was
written has the same offset and position there (`Edit.replace_reversed`). So the edit can be
described from the other side, as the one that writes back what was taken out, and this is the same
descriptor with its two ends swapped (`Edit.reversed`).

Both descriptors are seen on a text cut into three parts, of which the middle one is exchanged
(`Edit.between`). -/

namespace DotTarget

/-- A place of a text has an offset in machine words. -/
theorem offset_advance {front t : Text} (h : front <+: t) (hlimit : Text.width t < addressLimit) :
    (LineIndex.ofText t).offset (Position.origin.advance front) = .ok (some (Text.width front)) :=
  LineIndex.offset_eq_ok_of_offset?_eq_some (offset?_advance h)
    (Nat.lt_of_le_of_lt (Text.width_le_of_prefix h) hlimit)

theorem position_width {front t : Text} (h : front <+: t) :
    (LineIndex.ofText t).position (Text.width front) = .ok (Position.origin.advance front) :=
  LineIndex.position_of_offset?_eq_some (offset?_advance h)

namespace Edit

/-- The edit seen from the text that it leads to: what it wrote is taken out, and what it took out
is written. -/
def reversed (e : Edit) : Edit :=
  { e with
    oldEndByte := e.newEndByte
    newEndByte := e.oldEndByte
    oldEnd := e.newEnd
    newEnd := e.oldEnd }

/-- What an edit takes out of a text. -/
def removed? (e : Edit) (t : Text) : Option Text :=
  Text.slice? t e.startByte e.oldEndByte

/-- The text that an edit leads to: what stands before its start, what it writes, and what stands
behind its old end. There is none when one of these offsets is not between two characters of the
text. -/
def textAfter? (e : Edit) (t written : Text) : Option Text := do
  let (front, _) ← Text.splitAt? t e.startByte
  let (_, back) ← Text.splitAt? t e.oldEndByte
  return front ++ written ++ back

/-! ## An exchange behind a front part -/

/-- The edit that exchanges one text for another behind a front part. -/
def between (front removed written : Text) : Edit where
  startByte := Text.width front
  oldEndByte := Text.width (front ++ removed)
  newEndByte := Text.width (front ++ written)
  start := Position.origin.advance front
  oldEnd := Position.origin.advance (front ++ removed)
  newEnd := Position.origin.advance (front ++ written)

theorem reversed_between (front removed written : Text) :
    (between front removed written).reversed = between front written removed :=
  rfl

variable {front removed back t : Text}

theorem removed?_between (ht : t = front ++ removed ++ back) (written : Text) :
    (between front removed written).removed? t = some removed :=
  Text.slice?_eq_some_iff.2 ⟨front, back, ht, rfl, (Text.width_append front removed).symm⟩

theorem textAfter?_between (ht : t = front ++ removed ++ back) (written : Text) :
    (between front removed written).textAfter? t written = some (front ++ written ++ back) := by
  have hstart : Text.splitAt? t (Text.width front) = some (front, removed ++ back) :=
    Text.splitAt?_eq_some_iff.2 ⟨by rw [ht, List.append_assoc], rfl⟩
  have hstop : Text.splitAt? t (Text.width (front ++ removed)) = some (front ++ removed, back) :=
    Text.splitAt?_eq_some_iff.2 ⟨ht, rfl⟩
  simp only [textAfter?, between, hstart, hstop, bind, Option.bind_some, pure]

/-- Replacing the middle part of a text is such an exchange. -/
theorem replace_between (ht : t = front ++ removed ++ back) (written : Text)
    (hlimit : Text.width t < addressLimit) :
    replace t ⟨Position.origin.advance front, Position.origin.advance (front ++ removed)⟩ written =
      .ok (some (between front removed written)) := by
  have hfront : front <+: t := ⟨removed ++ back, by rw [ht, List.append_assoc]⟩
  have hstartByte := offset_advance hfront hlimit
  have hstopByte := offset_advance ⟨back, ht.symm⟩ hlimit
  have hbyte : Text.width front + Text.width written = Text.width (front ++ written) :=
    (Text.width_append front written).symm
  have hend : (Position.origin.advance front).advance written =
      Position.origin.advance (front ++ written) :=
    (Position.advance_append Position.origin front written).symm
  simp only [replace, hstartByte, hstopByte, bind, Except.bind, pure, Except.pure, hbyte, hend]
  rfl

/-- Two places of a text in order cut it into three parts. -/
theorem exists_parts {s : Span} (hle : s.start ≤ s.stop) (hstart : IsPlace (Text.lines t) s.start)
    (hstop : IsPlace (Text.lines t) s.stop) :
    ∃ front removed back, t = front ++ removed ++ back ∧
      s = ⟨Position.origin.advance front, Position.origin.advance (front ++ removed)⟩ := by
  obtain ⟨front, hfront, hstartEq⟩ := exists_front_of_isPlace hstart
  obtain ⟨whole, hwhole, hstopEq⟩ := exists_front_of_isPlace hstop
  have hprefix : front <+: whole := by
    refine Position.prefix_of_advance_le hfront hwhole ?_
    rwa [hstartEq, hstopEq]
  obtain ⟨removed, rfl⟩ := hprefix
  obtain ⟨back, rfl⟩ := hwhole
  refine ⟨front, removed, back, rfl, ?_⟩
  rw [hstartEq, hstopEq]

/-- **An edit fits the text that it leads to, and can be taken back.** Take a span between two
places of a text, in order, and any text to be written there. There is an edit; it takes out a text
and leads to a new one, and in the new text the end of what was written has the byte and the
position that the edit says. The edit that takes this back is the same one with its ends swapped,
and it leads to the old text. -/
theorem replace_reversed {t : Text} {s : Span} (hle : s.start ≤ s.stop)
    (hstart : IsPlace (Text.lines t) s.start) (hstop : IsPlace (Text.lines t) s.stop)
    (hlimit : Text.width t < addressLimit) (written : Text) :
    ∃ e removed new, replace t s written = .ok (some e) ∧
      e.removed? t = some removed ∧ e.textAfter? t written = some new ∧
      (LineIndex.ofText new).position e.newEndByte = .ok e.newEnd ∧
      e.reversed.textAfter? new removed = some t ∧
      (Text.width new < addressLimit →
        (LineIndex.ofText new).offset e.newEnd = .ok (some e.newEndByte) ∧
        replace new ⟨e.start, e.newEnd⟩ removed = .ok (some e.reversed)) := by
  obtain ⟨front, removed, back, ht, rfl⟩ := exists_parts hle hstart hstop
  have hnew : front ++ written <+: front ++ written ++ back := List.prefix_append _ _
  refine ⟨between front removed written, removed, front ++ written ++ back,
    replace_between ht written hlimit, removed?_between ht written, textAfter?_between ht written,
    position_width hnew, ?_, ?_⟩
  · rw [reversed_between, ht]
    exact textAfter?_between rfl removed
  · intro hnewLimit
    exact ⟨offset_advance hnew hnewLimit, replace_between rfl removed hnewLimit⟩

/-- Three rows, the last one empty. Both row breaks and a letter of two bytes are to be replaced. -/
def editedText : Text :=
  "a\nbé\n".toList

theorem replace_reversed_editedText :
    IsPlace (Text.lines editedText) ⟨0, 1⟩ ∧ IsPlace (Text.lines editedText) ⟨2, 0⟩ ∧
      replace editedText ⟨⟨0, 1⟩, ⟨2, 0⟩⟩ "(\né".toList =
        .ok (some ⟨1, 6, 5, ⟨0, 1⟩, ⟨2, 0⟩, ⟨1, 2⟩⟩) ∧
      (LineIndex.ofText "a(\né".toList).position 5 = .ok ⟨1, 2⟩ ∧
      replace "a(\né".toList ⟨⟨0, 1⟩, ⟨1, 2⟩⟩ "\nbé\n".toList =
        .ok (some ⟨1, 5, 6, ⟨0, 1⟩, ⟨1, 2⟩, ⟨2, 0⟩⟩) := by
  have hstart : IsPlace (Text.lines editedText) ⟨0, 1⟩ := by decide
  have hstop : IsPlace (Text.lines editedText) ⟨2, 0⟩ := by decide
  obtain ⟨e, removed, new, he, hremoved, hnew, hposition, -, hundo⟩ :=
    replace_reversed (s := ⟨⟨0, 1⟩, ⟨2, 0⟩⟩) (by decide) hstart hstop (by decide) "(\né".toList
  have hedit : replace editedText ⟨⟨0, 1⟩, ⟨2, 0⟩⟩ "(\né".toList =
      .ok (some ⟨1, 6, 5, ⟨0, 1⟩, ⟨2, 0⟩, ⟨1, 2⟩⟩) := by decide
  obtain rfl := Option.some.inj (Except.ok.inj (hedit.symm.trans he))
  obtain rfl : "\nbé\n".toList = removed := Option.some.inj hremoved
  obtain rfl : "a(\né".toList = new := Option.some.inj hnew
  exact ⟨hstart, hstop, hedit, hposition, (hundo (by decide)).2⟩

end Edit

end DotTarget
