import DotTarget.Text.Decimal

set_option autoImplicit false

/-! # JSON values

A JSON value, with numbers kept as they are written: whether a number is an integer shows in its
literal only. `Json.pretty` writes a value over several rows, indented by two blanks a level. -/

namespace DotTarget

/-- A JSON value. -/
inductive Json where
  | null
  | bool (value : Bool)
  | number (literal : Text)
  | string (value : Text)
  | array (items : List Json)
  | object (fields : List (String × Json))
  deriving Repr, Inhabited

namespace Json

/-- A natural number as a JSON value. -/
def ofNat (n : Nat) : Json :=
  .number (Text.ofNat n)

/-- A string as a JSON value. -/
def ofString (s : String) : Json :=
  .string s.toList

/-- A value that may be missing, as `null` when it is. -/
def ofOption {α : Type} (encode : α → Json) : Option α → Json
  | none => .null
  | some a => encode a

/-! ## Writing strings -/

/-- A digit in base sixteen. -/
def hexDigit (n : Nat) : Char :=
  "0123456789abcdef".toList.getD n '0'

/-- How a character is written inside a JSON string. Only quotes, backslashes and control
characters are escaped. -/
def escape (c : Char) : Text :=
  if c = '"' then ['\\', '"']
  else if c = '\\' then ['\\', '\\']
  else if c = '\n' then ['\\', 'n']
  else if c = '\r' then ['\\', 'r']
  else if c = '\t' then ['\\', 't']
  else if c.toNat = 8 then ['\\', 'b']
  else if c.toNat = 12 then ['\\', 'f']
  else if c.toNat < 32 then
    ['\\', 'u', '0', '0', hexDigit (c.toNat / 16), hexDigit (c.toNat % 16)]
  else [c]

/-- A JSON string. -/
def quote (t : Text) : Text :=
  '"' :: t.flatMap escape ++ ['"']

/-! ## Writing values -/

/-- A new row at a level of indentation. -/
def newRow (level : Nat) : Text :=
  '\n' :: List.replicate (2 * level) ' '

mutual

/-- A value whose first row is already indented. -/
def prettyAt (level : Nat) : Json → Text
  | .null => "null".toList
  | .bool value => (if value then "true" else "false").toList
  | .number literal => literal
  | .string value => quote value
  | .array [] => "[]".toList
  | .array (item :: rest) =>
    '[' :: newRow (level + 1) ++ prettyAt (level + 1) item ++ prettyItems (level + 1) rest
      ++ newRow level ++ [']']
  | .object [] => ['\x7b', '\x7d']
  | .object ((name, value) :: rest) =>
    '\x7b' :: newRow (level + 1) ++ quote name.toList ++ [':', ' '] ++ prettyAt (level + 1) value
      ++ prettyFields (level + 1) rest ++ newRow level ++ ['\x7d']

/-- The items of an array after the first. -/
def prettyItems (level : Nat) : List Json → Text
  | [] => []
  | item :: rest => ',' :: newRow level ++ prettyAt level item ++ prettyItems level rest

/-- The fields of an object after the first. -/
def prettyFields (level : Nat) : List (String × Json) → Text
  | [] => []
  | (name, value) :: rest =>
    ',' :: newRow level ++ quote name.toList ++ [':', ' '] ++ prettyAt level value
      ++ prettyFields level rest

end

/-- A value over several rows, each level indented by two blanks. -/
def pretty (value : Json) : Text :=
  prettyAt 0 value

end Json

end DotTarget
