import DotTarget.Lexical.Comment

set_option autoImplicit false

/-! # Reading a row for its comment

What is stripped from a row is nothing, or begins with the `#` of its comment
(`Comment.exists_eq_stripFrom_append`). A row is read with two characters of lookahead, for triple
quotes only. So a text behind it that does not begin with a quote changes nothing about how the row
itself is read (`Comment.State.Delimited.next_append`): a row without a comment can be made longer
(`Comment.strip_concat`), and a row without its comment has no other one (`Comment.strip_strip`). -/

namespace DotTarget

namespace Comment

/-- Behind the part of a text before its comment stands nothing or the comment. -/
theorem exists_eq_stripFrom_append (state : State) (t : Text) :
    ∃ comment, t = stripFrom state t ++ comment ∧ ∀ c ∈ comment.head?, c = '#' := by
  induction t generalizing state with
  | nil => exact ⟨[], by simp [stripFrom]⟩
  | cons c ahead ih =>
    rw [stripFrom]
    split
    · rename_i hhash
      exact ⟨c :: ahead, by simp [hhash.2]⟩
    · obtain ⟨comment, hcomment, hhead⟩ := ih (state.next c ahead)
      exact ⟨comment, by rw [List.cons_append, ← hcomment], hhead⟩

/-! ## Lookahead -/

/-- The literal that is being read, if there is one, is delimited by quotes. -/
def State.Delimited : State → Prop
  | .code => True
  | .closing _ => True
  | .opening quote _ => isQuote quote = true
  | .quoted quote _ => isQuote quote = true
  | .escaped quote _ => isQuote quote = true

theorem State.Delimited.next {state : State} (h : state.Delimited) (c : Char) (ahead : Text) :
    (state.next c ahead).Delimited := by
  cases state with
  | code =>
    rw [State.next]
    split
    · rename_i hquote
      split
      · exact hquote
      · exact hquote
    · trivial
  | opening quote left =>
    rw [State.next]
    split
    · exact h
    · exact h
  | quoted quote long =>
    rw [State.next]
    split
    · exact h
    · split
      · split
        · trivial
        · split
          · trivial
          · exact h
      · exact h
  | escaped quote long => exact h
  | closing left =>
    rw [State.next]
    split
    · trivial
    · trivial

/-- Only quotes complete a triple quote. -/
theorem completesTriple_append {quote : Char} (hquote : isQuote quote = true) (ahead : Text)
    {more : Text} (hmore : ∀ c ∈ more.head?, isQuote c = false) :
    completesTriple quote (ahead ++ more) = completesTriple quote ahead := by
  cases more with
  | nil => rw [List.append_nil]
  | cons c more =>
    have hne : c ≠ quote := by
      rintro rfl
      rw [hmore c rfl] at hquote
      exact Bool.noConfusion hquote
    match ahead with
    | [] => simp [completesTriple, hne]
    | [a] => simp [completesTriple, hne]
    | a :: b :: ahead => simp [completesTriple]

/-- What follows a text does not change how it is read, unless it begins with a quote. -/
theorem State.Delimited.next_append {state : State} (h : state.Delimited) (first : Char)
    (ahead : Text) {more : Text} (hmore : ∀ c ∈ more.head?, isQuote c = false) :
    state.next first (ahead ++ more) = state.next first ahead := by
  cases state with
  | code =>
    rw [State.next, State.next]
    split
    · rename_i hquote
      rw [completesTriple_append hquote ahead hmore]
    · rfl
  | quoted quote long => rw [State.next, State.next, completesTriple_append h ahead hmore]
  | opening quote left => rfl
  | escaped quote long => rfl
  | closing left => rfl

/-! ## Rows without a comment -/

/-- A text without a comment stays so when a character is put behind it that starts none. -/
theorem stripFrom_concat {state : State} (h : state.Delimited) {c : Char} (hc : isQuote c = false)
    (hhash : c ≠ '#') {t : Text} (hcode : stripFrom state t = t) :
    stripFrom state (t ++ [c]) = t ++ [c] := by
  induction t generalizing state with
  | nil =>
    rw [List.nil_append, stripFrom, if_neg (fun hand => hhash hand.2), stripFrom]
  | cons first ahead ih =>
    rw [stripFrom] at hcode
    split at hcode
    · exact absurd hcode (by simp)
    · rename_i hnot
      rw [List.cons_append, stripFrom, if_neg hnot, h.next_append first ahead (by simpa using hc),
        ih (h.next first ahead) (List.cons.inj hcode).2]

theorem strip_concat {c : Char} (hc : isQuote c = false) (hhash : c ≠ '#') {row : Text}
    (hcode : strip row = row) : strip (row ++ [c]) = row ++ [c] :=
  stripFrom_concat (show State.code.Delimited from trivial) hc hhash hcode

theorem stripFrom_stripFrom {state : State} (h : state.Delimited) (t : Text) :
    stripFrom state (stripFrom state t) = stripFrom state t := by
  induction t generalizing state with
  | nil => rfl
  | cons c ahead ih =>
    rw [stripFrom]
    split
    · rfl
    · rename_i hnot
      -- The comment begins with `#`, so without it the next state is the same.
      obtain ⟨comment, hahead, hhash⟩ := exists_eq_stripFrom_append (state.next c ahead) ahead
      have hnext : state.next c (stripFrom (state.next c ahead) ahead) = state.next c ahead := by
        have hmore : ∀ d ∈ comment.head?, isQuote d = false := by
          intro d hd
          rw [hhash d hd]
          decide
        rw [← h.next_append c _ hmore, ← hahead]
      rw [stripFrom, if_neg hnot, hnext, ih (h.next c ahead)]

/-- A row without its comment has no other one. -/
theorem strip_strip (row : Text) : strip (strip row) = strip row :=
  stripFrom_stripFrom (show State.code.Delimited from trivial) row

end Comment

end DotTarget
