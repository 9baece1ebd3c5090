import DotTarget.Fault
import DotTarget.Json.Encode
import DotTarget.Text.Decimal

set_option autoImplicit false

/-! # Reading values of the library from JSON

A structure is read from an object, whose fields may come in any order and among others, or from
an array with exactly the fields in their order. An enumeration is read from the name of a
member, alone or as the only field of an object with the value `null`. -/

namespace DotTarget.Json

/-- A machine word: an integer below `addressLimit`, written without sign, fraction or exponent. -/
def word? : Json → Option Nat
  | .number literal => do
    let n ← Text.decimal? literal
    if n < addressLimit then some n else none
  | _ => none

/-- The value of a field. Of two fields of one name the later counts. -/
def field? (name : String) (fields : List (String × Json)) : Option Json :=
  (fields.reverse.find? fun field => field.1 = name).map Prod.snd

/-- The values of the named fields of a structure, in their order. -/
def fields? (names : List String) : Json → Option (List Json)
  | .object fields => names.mapM fun name => field? name fields
  | .array items => if items.length = names.length then some items else none
  | _ => none

/-- A place. -/
def position? (value : Json) : Option Position := do
  match ← fields? ["row", "column"] value with
  | [row, column] => return ⟨← row.word?, ← column.word?⟩
  | _ => none

/-- A span; its bounds need not be in order. -/
def span? (value : Json) : Option Span := do
  match ← fields? ["start", "end"] value with
  | [start, stop] => return ⟨← start.position?, ← stop.position?⟩
  | _ => none

/-- An edit. -/
def edit? (value : Json) : Option Edit := do
  let names := ["start_byte", "old_end_byte", "new_end_byte", "start", "old_end", "new_end"]
  match ← fields? names value with
  | [startByte, oldEndByte, newEndByte, start, oldEnd, newEnd] =>
    return ⟨← startByte.word?, ← oldEndByte.word?, ← newEndByte.word?, ← start.position?,
      ← oldEnd.position?, ← newEnd.position?⟩
  | _ => none

/-- A member of an enumeration, found by its name. -/
def member? {α : Type} (ofName? : String → Option α) : Json → Option α
  | .string name => ofName? (String.ofList name)
  | .object [(name, .null)] => ofName? name
  | _ => none

/-- A node kind. -/
def nodeKind? : Json → Option NodeKind :=
  member? NodeKind.ofName?

/-- A strategy. -/
def strategy? : Json → Option Strategy :=
  member? Strategy.ofName?

/-- A pruning. -/
def pruning? : Json → Option Pruning :=
  member? Pruning.ofName?

end DotTarget.Json
