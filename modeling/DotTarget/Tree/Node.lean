import DotTarget.NodeKind
import DotTarget.Span

set_option autoImplicit false

/-! # Syntax trees

A syntax tree as a parser delivers it: each node has a kind, a place in the text, and children in
document order. Punctuation and keywords are nodes too; those are not `named`. A node may hold a
named role in its parent, its `field`.

`Located` is a node together with the kind of its parent. Searches work on located nodes because
a node does not know its parent. -/

namespace DotTarget

/-- What a syntax node says about itself. -/
structure NodeInfo where
  kind : String
  named : Bool
  /-- The role of the node in its parent. -/
  field : Option String
  start : Position
  stop : Position
  startByte : Nat
  stopByte : Nat
  deriving DecidableEq, Repr, Inhabited

/-- A syntax node with its children in document order. -/
inductive Node where
  | mk (info : NodeInfo) (children : List Node)
  deriving Repr, Inhabited

namespace Node

def info : Node → NodeInfo
  | mk info _ => info

def children : Node → List Node
  | mk _ children => children

def kind (n : Node) : String :=
  n.info.kind

/-- The kind as a possible target; none for a kind that is only walked through. -/
def accepted? (n : Node) : Option NodeKind :=
  NodeKind.ofName? n.kind

/-- The children that are named, in document order. -/
def namedChildren (n : Node) : List Node :=
  n.children.filter fun child => child.info.named

mutual

/-- The number of nodes of a tree. -/
def size : Node → Nat
  | mk _ children => 1 + sizeAll children

/-- The number of nodes of several trees. -/
def sizeAll : List Node → Nat
  | [] => 0
  | n :: rest => n.size + sizeAll rest

end

theorem size_eq (n : Node) : n.size = 1 + sizeAll n.children := by
  cases n
  simp [size, children]

theorem sizeAll_append (ms ns : List Node) : sizeAll (ms ++ ns) = sizeAll ms + sizeAll ns := by
  induction ms with
  | nil => simp [sizeAll]
  | cons m ms ih => simp [sizeAll, ih, Nat.add_assoc]

theorem sizeAll_filter_le (keep : Node → Bool) (ns : List Node) :
    sizeAll (ns.filter keep) ≤ sizeAll ns := by
  induction ns with
  | nil => simp [sizeAll]
  | cons n ns ih =>
    rw [List.filter_cons]
    split
    · simpa [sizeAll] using ih
    · simp only [sizeAll]
      omega

theorem size_le_sizeAll {n : Node} {ns : List Node} (h : n ∈ ns) : n.size ≤ sizeAll ns := by
  induction ns with
  | nil => simp at h
  | cons m ms ih =>
    rcases List.mem_cons.1 h with rfl | h
    · simp [sizeAll]
    · have := ih h
      simp only [sizeAll]
      omega

/-- A child is smaller than its parent. -/
theorem size_child_lt {child n : Node} (h : child ∈ n.children) : child.size < n.size := by
  have := size_le_sizeAll h
  have := size_eq n
  omega

end Node

/-- A parsed text. -/
structure SyntaxTree where
  root : Node
  /-- Whether the parser met text that it could not make sense of. -/
  hasError : Bool
  /-- The length of the parsed text in bytes. -/
  length : Nat
  deriving Repr, Inhabited

/-- A node and the kind of its parent. -/
structure Located where
  node : Node
  parent : Option String
  deriving Repr, Inhabited

namespace Located

/-- The root of a tree, which has no parent. -/
def root (n : Node) : Located := ⟨n, none⟩

/-- A child of a located node. -/
def child (l : Located) (n : Node) : Located := ⟨n, some l.node.kind⟩

/-- The child with a given role, or else the last child. -/
def fieldOrLast (l : Located) (field : String) : Option Located :=
  ((l.node.children.find? fun child => child.info.field = some field).or
    l.node.children.getLast?).map l.child

theorem size_fieldOrLast_lt {l found : Located} {field : String}
    (h : l.fieldOrLast field = some found) : found.node.size < l.node.size := by
  simp only [fieldOrLast, Option.map_eq_some_iff, Option.or_eq_some_iff] at h
  obtain ⟨n, hn, rfl⟩ := h
  refine Node.size_child_lt (n := l.node) ?_
  rcases hn with hn | ⟨-, hn⟩
  · exact List.mem_of_find?_eq_some hn
  · exact List.mem_of_getLast? hn

end Located

end DotTarget
