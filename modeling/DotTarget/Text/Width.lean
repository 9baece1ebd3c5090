set_option autoImplicit false

/-! # Text measured in bytes

A text is a list of characters. Columns and offsets count the bytes of its UTF-8 form:
`Text.width` is the number of bytes, `Text.cut` the longest front part of at most so many bytes
that ends between two characters, and `Text.splitAt?` cuts at an exact byte, which must lie
between two characters. -/

namespace DotTarget

/-- A text, as the list of its characters. -/
abbrev Text := List Char

namespace Text

/-- The number of bytes of the UTF-8 form. -/
def width : Text → Nat
  | [] => 0
  | c :: cs => c.utf8Size + width cs

/-- The longest front part of at most `n` bytes that does not split a character. -/
def cut : Text → Nat → Text
  | [], _ => []
  | c :: cs, n => if c.utf8Size ≤ n then c :: cut cs (n - c.utf8Size) else []

/-- The two parts of a text before and after byte `n`. There are none when `n` lies behind the
end or inside a character. -/
def splitAt? : Text → Nat → Option (Text × Text)
  | cs, 0 => some ([], cs)
  | [], _ + 1 => none
  | c :: cs, n + 1 =>
    if c.utf8Size ≤ n + 1 then
      (splitAt? cs (n + 1 - c.utf8Size)).map fun (front, back) => (c :: front, back)
    else none

/-- The part of a text between two byte offsets, which must be in order and lie between
characters. -/
def slice? (t : Text) (start stop : Nat) : Option Text :=
  if start ≤ stop then do
    let (front, _) ← splitAt? t stop
    let (_, back) ← splitAt? front start
    return back
  else none

@[simp] theorem width_nil : width [] = 0 := rfl

@[simp] theorem width_cons (c : Char) (cs : Text) : width (c :: cs) = c.utf8Size + width cs := rfl

@[simp] theorem width_append (s t : Text) : width (s ++ t) = width s + width t := by
  induction s with
  | nil => simp
  | cons c cs ih => simp [ih, Nat.add_assoc]

theorem width_reverse (t : Text) : width t.reverse = width t := by
  induction t with
  | nil => rfl
  | cons c t ih => simp [ih, Nat.add_comm]

theorem width_le_of_prefix {s t : Text} (h : s <+: t) : width s ≤ width t := by
  obtain ⟨rest, rfl⟩ := h
  simp

/-- Cutting keeps at most as many bytes as allowed. -/
theorem width_cut_le (t : Text) (n : Nat) : width (cut t n) ≤ n := by
  induction t generalizing n with
  | nil => simp [cut]
  | cons c cs ih =>
    rw [cut]
    split
    · have := ih (n - c.utf8Size)
      simp only [width_cons]
      omega
    · simp

/-- What cutting keeps is a front part of the text. -/
theorem cut_prefix (t : Text) (n : Nat) : cut t n <+: t := by
  induction t generalizing n with
  | nil => simp [cut]
  | cons c cs ih =>
    rw [cut]
    split
    · exact (List.prefix_cons_inj c).2 (ih _)
    · exact List.nil_prefix

theorem length_le_width (t : Text) : t.length ≤ width t := by
  induction t with
  | nil => simp
  | cons c cs ih =>
    have := c.utf8Size_pos
    simp only [width_cons, List.length_cons]
    omega

theorem width_eq_zero_iff (t : Text) : width t = 0 ↔ t = [] := by
  constructor
  · intro h
    have := length_le_width t
    exact List.eq_nil_of_length_eq_zero (by omega)
  · rintro rfl
    rfl

/-- A text that fits is not cut. -/
theorem cut_of_width_le {t : Text} {n : Nat} (h : width t ≤ n) : cut t n = t := by
  induction t generalizing n with
  | nil => rfl
  | cons c cs ih =>
    rw [width_cons] at h
    rw [cut, if_pos (by omega), ih (by omega)]

/-- Cutting at the end of a front part gives that part. -/
theorem cut_append_width (s t : Text) : cut (s ++ t) (width s) = s := by
  induction s with
  | nil =>
    cases t with
    | nil => rfl
    | cons c cs =>
      have := c.utf8Size_pos
      simp only [List.nil_append, width_nil, cut]
      rw [if_neg (by omega)]
  | cons c cs ih =>
    simp only [List.cons_append, width_cons, cut]
    rw [if_pos (by omega), Nat.add_sub_cancel_left, ih]

/-- Cutting behind a front part keeps it whole. -/
theorem cut_append_add (s t : Text) (n : Nat) : cut (s ++ t) (width s + n) = s ++ cut t n := by
  induction s with
  | nil => simp
  | cons c cs ih =>
    have hwidth : c.utf8Size + width cs + n - c.utf8Size = width cs + n := by omega
    rw [List.cons_append, width_cons, cut, if_pos (by omega), hwidth, ih, List.cons_append]

/-- Of two cuts the shorter one counts. -/
theorem cut_cut {n m : Nat} (h : m ≤ n) (t : Text) : cut (cut t n) m = cut t m := by
  induction t generalizing n m with
  | nil => rfl
  | cons c cs ih =>
    by_cases hm : c.utf8Size ≤ m
    · rw [cut, if_pos (by omega), cut, if_pos hm, cut, if_pos hm, ih (by omega)]
    · have hcut : cut (c :: cs) m = [] := by rw [cut, if_neg hm]
      rw [hcut, cut]
      split
      · rw [cut, if_neg hm]
      · rfl

/-- Cutting inside a front part is cutting the front part. -/
theorem cut_of_prefix {front t : Text} (h : front <+: t) {n : Nat} (hn : n ≤ width front) :
    cut t n = cut front n := by
  obtain ⟨rest, rfl⟩ := h
  rw [← cut_cut hn, cut_append_width]

/-- Splitting succeeds exactly at the ends of front parts. -/
theorem splitAt?_eq_some_iff {t front back : Text} {n : Nat} :
    splitAt? t n = some (front, back) ↔ t = front ++ back ∧ width front = n := by
  induction t generalizing n front with
  | nil =>
    cases n with
    | zero =>
      simp only [splitAt?, Option.some.injEq, Prod.mk.injEq, width_eq_zero_iff]
      constructor
      · rintro ⟨rfl, rfl⟩
        exact ⟨rfl, rfl⟩
      · rintro ⟨h, rfl⟩
        exact ⟨rfl, h⟩
    | succ n =>
      simp only [splitAt?, reduceCtorEq, false_iff, not_and]
      intro h
      rw [(List.append_eq_nil_iff.1 h.symm).1]
      simp
  | cons c cs ih =>
    have hc := c.utf8Size_pos
    cases n with
    | zero =>
      simp only [splitAt?, Option.some.injEq, Prod.mk.injEq, width_eq_zero_iff]
      constructor
      · rintro ⟨rfl, rfl⟩
        exact ⟨rfl, rfl⟩
      · rintro ⟨h, rfl⟩
        exact ⟨rfl, h⟩
    | succ n =>
      rw [splitAt?]
      split
      · rename_i hle
        simp only [Option.map_eq_some_iff, Prod.mk.injEq, Prod.exists]
        constructor
        · rintro ⟨front, back, h, rfl, rfl⟩
          obtain ⟨rfl, hw⟩ := ih.1 h
          exact ⟨rfl, by rw [width_cons]; omega⟩
        · rintro ⟨h, hw⟩
          cases front with
          | nil => simp at hw
          | cons d front =>
            obtain ⟨rfl, rfl⟩ := List.cons.inj h
            rw [width_cons] at hw
            exact ⟨front, back, ih.2 ⟨rfl, by omega⟩, rfl, rfl⟩
      · rename_i hle
        simp only [reduceCtorEq, false_iff, not_and]
        intro h hw
        cases front with
        | nil => simp at hw
        | cons d front =>
          obtain ⟨rfl, rfl⟩ := List.cons.inj h
          rw [width_cons] at hw
          omega

/-- The part between two offsets is what remains between a front part and an end part. -/
theorem slice?_eq_some_iff {t part : Text} {start stop : Nat} :
    slice? t start stop = some part ↔
      ∃ front back, t = front ++ part ++ back ∧ width front = start ∧
        width front + width part = stop := by
  unfold slice?
  split
  · simp only [bind, Option.bind_eq_some_iff, Prod.exists, splitAt?_eq_some_iff, pure,
      Option.some.injEq]
    constructor
    · rintro ⟨_, back, ⟨rfl, rfl⟩, front, _, ⟨rfl, rfl⟩, rfl⟩
      exact ⟨front, back, by simp, rfl, by simp⟩
    · rintro ⟨front, back, rfl, rfl, rfl⟩
      exact ⟨front ++ part, back, ⟨rfl, by simp⟩, front, part, ⟨rfl, rfl⟩, rfl⟩
  · rename_i h
    simp only [reduceCtorEq, false_iff, not_exists, not_and]
    rintro front back - rfl rfl
    omega

end Text

end DotTarget
