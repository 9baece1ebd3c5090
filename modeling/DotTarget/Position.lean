set_option autoImplicit false

/-! # Positions

A place in a document: a row and a column, both counted from zero. The column counts the bytes
of the UTF-8 form of the row's text. Positions are ordered as they stand in the document, by row
and then by column (`Position.lt_def`, `Position.le_def`). -/

namespace DotTarget

/-- A place in a document, counted from zero; the column counts bytes. -/
structure Position where
  row : Nat
  column : Nat
  deriving DecidableEq, Repr, Inhabited

namespace Position

/-- The first place of a document. -/
def origin : Position := ⟨0, 0⟩

instance : LT Position where
  lt p q := p.row < q.row ∨ (p.row = q.row ∧ p.column < q.column)

instance : LE Position where
  le p q := p.row < q.row ∨ (p.row = q.row ∧ p.column ≤ q.column)

theorem lt_def (p q : Position) :
    p < q ↔ p.row < q.row ∨ (p.row = q.row ∧ p.column < q.column) :=
  Iff.rfl

theorem le_def (p q : Position) :
    p ≤ q ↔ p.row < q.row ∨ (p.row = q.row ∧ p.column ≤ q.column) :=
  Iff.rfl

theorem le_refl (p : Position) : p ≤ p :=
  .inr ⟨rfl, Nat.le_refl _⟩

theorem le_trans {p q r : Position} (hpq : p ≤ q) (hqr : q ≤ r) : p ≤ r := by
  rw [le_def] at hpq hqr ⊢
  omega

theorem lt_trans {p q r : Position} (hpq : p < q) (hqr : q < r) : p < r := by
  rw [lt_def] at hpq hqr ⊢
  omega

theorem lt_of_lt_of_le {p q r : Position} (hpq : p < q) (hqr : q ≤ r) : p < r := by
  rw [le_def] at hqr
  rw [lt_def] at hpq ⊢
  omega

theorem le_of_lt {p q : Position} (h : p < q) : p ≤ q := by
  rw [lt_def] at h
  rw [le_def]
  omega

theorem le_antisymm {p q : Position} (hpq : p ≤ q) (hqp : q ≤ p) : p = q := by
  rw [le_def] at hpq hqp
  cases p
  cases q
  simp only [mk.injEq] at hpq hqp ⊢
  omega

theorem lt_iff_not_le {p q : Position} : p < q ↔ ¬ q ≤ p := by
  rw [lt_def, le_def]
  omega

theorem le_iff_lt_or_eq {p q : Position} : p ≤ q ↔ p < q ∨ p = q := by
  constructor
  · intro h
    by_cases hq : q ≤ p
    · exact .inr (le_antisymm h hq)
    · exact .inl (lt_iff_not_le.2 hq)
  · rintro (h | rfl)
    · exact le_of_lt h
    · exact le_refl p

instance (p q : Position) : Decidable (p < q) :=
  decidable_of_iff _ (lt_def p q).symm

instance (p q : Position) : Decidable (p ≤ q) :=
  decidable_of_iff _ (le_def p q).symm

/-- How `p` stands to `q`: the order of rows, then of columns. -/
def order (p q : Position) : Ordering :=
  (compare p.row q.row).then (compare p.column q.column)

/-- The place `n` columns to the left on the same row, but never left of column zero. -/
def shiftedLeft (p : Position) (n : Nat) : Position :=
  ⟨p.row, p.column - n⟩

/-- The written form `row:column`. -/
def display (p : Position) : String :=
  s!"{p.row}:{p.column}"

end Position

end DotTarget
