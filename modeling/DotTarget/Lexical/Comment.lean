import DotTarget.Text.Width

set_option autoImplicit false

/-! # Comments

`Comment.strip` removes the comment of a row: everything from the first `#` that stands outside
a string literal. Each row is read on its own, so a literal left open runs to the end of the
row.

The row is read left to right by a machine whose `State` says what the next character belongs
to. A triple quote is recognised at its first character by looking two characters ahead; its
other two are then passed over in the states `opening` and `closing`. -/

namespace DotTarget

/-- The two characters that delimit string literals. -/
def isQuote (c : Char) : Bool :=
  c = '\'' || c = '"'

namespace Comment

/-- What the next character of a row belongs to. -/
inductive State where
  /-- Program text outside literals. -/
  | code
  /-- The last `left` quotes of a triple quote that opens a literal. -/
  | opening (quote : Char) (left : Nat)
  /-- The inside of a literal; `long` ones are delimited by triple quotes. -/
  | quoted (quote : Char) (long : Bool)
  /-- The character right behind a backslash inside a literal. -/
  | escaped (quote : Char) (long : Bool)
  /-- The last `left` quotes of a triple quote that closes a literal. -/
  | closing (left : Nat)
  deriving DecidableEq, Repr

/-- Whether the two characters ahead complete a triple quote. -/
def completesTriple (quote : Char) (ahead : Text) : Bool :=
  ahead.take 2 = [quote, quote]

/-- The state behind the character `c`, when the text `ahead` follows it. -/
def State.next (c : Char) (ahead : Text) : State → State
  | .code =>
    if isQuote c then if completesTriple c ahead then .opening c 2 else .quoted c false
    else .code
  | .opening quote left => if left ≤ 1 then .quoted quote true else .opening quote (left - 1)
  | .quoted quote long =>
    if c = '\\' then .escaped quote long
    else if c = quote then
      if !long then .code
      else if completesTriple quote ahead then .closing 2
      else .quoted quote long
    else .quoted quote long
  | .escaped quote long => .quoted quote long
  | .closing left => if left ≤ 1 then .code else .closing (left - 1)

/-- The part of a text before its comment, when reading starts in a given state. -/
def stripFrom : State → Text → Text
  | _, [] => []
  | state, c :: ahead =>
    if state = .code ∧ c = '#' then [] else c :: stripFrom (state.next c ahead) ahead

/-- The part of a row before its comment. -/
def strip (row : Text) : Text :=
  stripFrom .code row

theorem stripFrom_prefix (state : State) (t : Text) : stripFrom state t <+: t := by
  induction t generalizing state with
  | nil => simp [stripFrom]
  | cons c ahead ih =>
    rw [stripFrom]
    split
    · exact List.nil_prefix
    · exact (List.prefix_cons_inj c).2 (ih _)

end Comment

end DotTarget
