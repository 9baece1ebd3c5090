import DotTarget.Text.Decimal
import DotTarget.Text.Quoted
import DotTarget.Tree.Node

set_option autoImplicit false

/-! # Writing a tree

`Node.dump` writes the named nodes of a tree, one to a row, indented by two blanks a level. A kind
that a completion can wrap is marked with `*`. A node without named children shows its text. -/

namespace DotTarget

/-- What is written for a node whose bytes are not a text of their own. -/
def unreadable : Text := "<invalid utf8>".toList

/-- `*` for a kind that a completion can wrap. -/
def kindMark (kind : String) : Text :=
  if (NodeKind.ofName? kind).isSome then ['*'] else []

namespace Node

/-- The place of a node, in brackets. -/
def spanMark (info : NodeInfo) : Text :=
  " [".toList ++ (Span.mk info.start info.stop).display.toList ++ [']']

/-- The front of a node's row: indentation, role, kind. -/
def head (depth : Nat) (info : NodeInfo) (field : Option String) : Text :=
  let role := match field with
    | none => []
    | some name => name.toList ++ [':', ' ']
  List.replicate (2 * depth) ' ' ++ role ++ '(' :: info.kind.toList ++ kindMark info.kind

/-- The text that a node covers. -/
def sourceText (source : Text) (info : NodeInfo) : Text :=
  (Text.slice? source info.startByte info.stopByte).getD unreadable

mutual

/-- The rows of a node that holds a given role and stands at a level of indentation. -/
def dumpAt (source : Text) (spans : Bool) (depth : Nat) (field : Option String) : Node → Text
  | mk info children =>
    let place := if spans then spanMark info else []
    if children.any fun child => child.info.named then
      head depth info field ++ place ++ dumpChildren source spans (depth + 1) children ++ [')']
    else
      head depth info field ++ ' ' :: Text.quoted (sourceText source info) ++ ')' :: place

/-- The rows of the named nodes among some children, each on a new row. -/
def dumpChildren (source : Text) (spans : Bool) (depth : Nat) : List Node → Text
  | [] => []
  | child :: rest =>
    if child.info.named then
      '\n' :: dumpAt source spans depth child.info.field child
        ++ dumpChildren source spans depth rest
    else dumpChildren source spans depth rest

end

/-- The rows of a tree, with the places of its nodes if asked for. -/
def dump (root : Node) (source : Text) (spans : Bool) : Text :=
  dumpAt source spans 0 none root

end Node

end DotTarget
