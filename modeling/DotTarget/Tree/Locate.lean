import DotTarget.Tree.Node

set_option autoImplicit false

/-! # Locating the node that ends at a place

`locate` looks for the node that ends exactly at a target place. Nodes are visited before their
children, and later children before earlier ones, so that of all nodes that end at the target an
outermost one is met first. It is then unwrapped to the expression meant (`extract`): of an
assignment its right-hand side, of a keyword argument its value.

The search can leave out parts of the tree that are unlikely to hold the node (`Pruning`). -/

namespace DotTarget

/-- Which subtrees the search leaves out. -/
inductive Pruning where
  /-- Those that end on a row above the target or start in a column right of it. The second part
  can leave out a node of several rows that does end at the target. -/
  | heuristic
  /-- None. -/
  | exhaustive
  deriving DecidableEq, Repr, Inhabited

namespace Pruning

/-- Whether the search leaves out a node and everything below it. -/
def skips (pruning : Pruning) (target : Position) (n : Node) : Bool :=
  match pruning with
  | .exhaustive => false
  | .heuristic => n.info.stop.row < target.row || target.column < n.info.start.column

end Pruning

namespace Locate

/-- The kind of a node that ends at the target and can be a target. -/
def candidate? (target : Position) (n : Node) : Option NodeKind :=
  if n.info.stop = target then n.accepted? else none

/-- The nodes still to be visited, the next one first, have together so many nodes below them. -/
def weight (pending : List Located) : Nat :=
  Node.sizeAll (pending.map Located.node)

/-- The named children of a node in the order in which they are visited: from last to first. -/
def visits (l : Located) : List Located :=
  (l.node.namedChildren.map l.child).reverse

theorem sizeAll_reverse (ns : List Node) : Node.sizeAll ns.reverse = Node.sizeAll ns := by
  induction ns with
  | nil => rfl
  | cons n ns ih =>
    simp only [List.reverse_cons, Node.sizeAll_append, Node.sizeAll, ih]
    omega

theorem weight_visits_lt (l : Located) (rest : List Located) :
    weight (visits l ++ rest) < weight (l :: rest) := by
  have hmap : (visits l).map Located.node = l.node.namedChildren.reverse := by
    simp [visits, Located.child, Function.comp_def]
  have hle : Node.sizeAll l.node.namedChildren ≤ Node.sizeAll l.node.children :=
    Node.sizeAll_filter_le _ _
  simp only [weight, List.map_append, hmap, Node.sizeAll_append, sizeAll_reverse, List.map_cons,
    Node.sizeAll, Node.size_eq l.node]
  omega

/-- The first candidate among the pending nodes and what lies below them. -/
def search (pruning : Pruning) (target : Position) :
    List Located → Option (Located × NodeKind)
  | [] => none
  | l :: rest =>
    if pruning.skips target l.node then search pruning target rest
    else
      match candidate? target l.node with
      | some kind => some (l, kind)
      | none => search pruning target (visits l ++ rest)
termination_by pending => weight pending
decreasing_by
  · simp only [weight, List.map_cons, Node.sizeAll, Node.size_eq l.node]
    omega
  · exact weight_visits_lt l rest

theorem search_of_candidate {pruning : Pruning} {target : Position} {l : Located}
    {rest : List Located} {kind : NodeKind} (hskip : pruning.skips target l.node = false)
    (h : candidate? target l.node = some kind) :
    search pruning target (l :: rest) = some (l, kind) := by
  rw [search, if_neg (by simp [hskip])]
  simp only [h]

theorem search_of_no_candidate {pruning : Pruning} {target : Position} {l : Located}
    {rest : List Located} (hskip : pruning.skips target l.node = false)
    (h : candidate? target l.node = none) :
    search pruning target (l :: rest) = search pruning target (visits l ++ rest) := by
  rw [search, if_neg (by simp [hskip])]
  simp only [h]

/-- The value that an assignment assigns, also through a chain of assignments. -/
def assigned (l : Located) : Option Located :=
  match _h : l.fieldOrLast "right" with
  | none => none
  | some right =>
    if right.node.accepted? = some .assignment then assigned right else some right
termination_by l.node.size
decreasing_by exact Located.size_fieldOrLast_lt _h

theorem assigned_of_some {l right : Located} (h : l.fieldOrLast "right" = some right) :
    assigned l =
      if right.node.accepted? = some .assignment then assigned right else some right := by
  rw [assigned]
  split
  · rename_i hnone
    rw [h] at hnone
    exact absurd hnone (by simp)
  · rename_i found hfound
    rw [Option.some.inj (h.symm.trans hfound)]

/-- The expression that a candidate of a given kind stands for. -/
def extract (l : Located) : NodeKind → Option Located
  | .expressionStatement =>
    match l.node.namedChildren.head? with
    | some inner =>
      if inner.accepted? = some .assignment then assigned (l.child inner) else some (l.child inner)
    | none => l.node.children.head?.map l.child
  | .assignment => assigned l
  | .keywordArgument => l.fieldOrLast "value"
  | _ => some l

end Locate

/-- The expression that ends at a place of a tree. -/
def locate (pruning : Pruning) (root : Node) (target : Position) : Option Located := do
  let (found, kind) ← Locate.search pruning target [Located.root root]
  Locate.extract found kind

/-- A located node as it is reported. -/
structure NodeSummary where
  kind : String
  /-- The kind as a possible target; none when unwrapping led to a node of another kind. -/
  accepted : Option NodeKind
  span : Span
  parent : Option String
  deriving DecidableEq, Repr

/-- The report on a located node, whose bounds must be in order. -/
def Located.summary (l : Located) : Except Fault NodeSummary := do
  let span ← Span.ordered l.node.info.start l.node.info.stop
  return ⟨l.node.kind, l.node.accepted?, span, l.parent⟩

end DotTarget
