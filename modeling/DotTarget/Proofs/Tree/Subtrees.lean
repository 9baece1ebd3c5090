import DotTarget.Tree.Node
import Mathlib.Tactic.MkIffOfInductiveProp

set_option autoImplicit false

/-! # The nodes of a tree

`Node.IsIn` says which nodes a tree has. `Node.subtrees` lists them (`Node.mem_subtrees_iff`), so
whatever can be decided of one node can be decided of all nodes of a tree. In particular it can be
decided whether a tree is nested: `Node.WellNested` goes down the tree, and it holds if every node
fits around its children (`Node.wellNested_iff`). -/

namespace DotTarget

namespace Node

/-- A node of the tree with a given root: the root itself or a node below it. -/
inductive IsIn (root : Node) : Node → Prop where
  | root : IsIn root root
  | child {n c : Node} (hn : IsIn root n) (hc : c ∈ n.children) : IsIn root c

/-- What holds of a node when it holds of its children holds of every node. -/
@[elab_as_elim]
theorem childInduction {P : Node → Prop} (step : ∀ n, (∀ child ∈ n.children, P child) → P n)
    (n : Node) : P n := by
  induction hsize : n.size using Nat.strongRecOn generalizing n with
  | ind size ih =>
    refine step n fun child hchild => ih child.size ?_ child rfl
    rw [← hsize]
    exact size_child_lt hchild

theorem IsIn.of_child {n c m : Node} (hc : c ∈ n.children) (h : c.IsIn m) : n.IsIn m := by
  induction h with
  | root => exact .child .root hc
  | child _ hmem ih => exact .child ih hmem

/-! ## Listing the nodes -/

mutual

/-- The nodes of a tree, a node before its children. -/
def subtrees : Node → List Node
  | mk info children => mk info children :: subtreesAll children

/-- The nodes of several trees. -/
def subtreesAll : List Node → List Node
  | [] => []
  | n :: rest => n.subtrees ++ subtreesAll rest

end

theorem subtreesAll_eq_flatMap (ns : List Node) : subtreesAll ns = ns.flatMap subtrees := by
  induction ns with
  | nil => rfl
  | cons n ns ih => rw [subtreesAll, ih, List.flatMap_cons]

theorem subtrees_eq (n : Node) : n.subtrees = n :: n.children.flatMap subtrees := by
  cases n
  rw [subtrees, subtreesAll_eq_flatMap, children]

theorem mem_subtrees_child {n m c : Node} (hm : m ∈ n.subtrees) (hc : c ∈ m.children) :
    c ∈ n.subtrees := by
  induction n using childInduction with
  | step n ih =>
    rw [subtrees_eq, List.mem_cons, List.mem_flatMap] at hm ⊢
    rcases hm with rfl | ⟨child, hchild, hm⟩
    · exact .inr ⟨c, hc, by rw [subtrees_eq]; exact List.mem_cons_self⟩
    · exact .inr ⟨child, hchild, ih child hchild hm⟩

/-- **The listed nodes are those of the tree.** -/
theorem mem_subtrees_iff {n m : Node} : m ∈ n.subtrees ↔ n.IsIn m := by
  constructor
  · intro h
    induction n using childInduction with
    | step n ih =>
      rw [subtrees_eq, List.mem_cons, List.mem_flatMap] at h
      rcases h with rfl | ⟨child, hchild, hm⟩
      · exact .root
      · exact .of_child hchild (ih child hchild hm)
  · intro h
    induction h with
    | root =>
      rw [subtrees_eq]
      exact List.mem_cons_self
    | child _ hc ih => exact mem_subtrees_child ih hc

instance instDecidableForallIsIn (n : Node) (P : Node → Prop) [DecidablePred P] :
    Decidable (∀ m, n.IsIn m → P m) :=
  decidable_of_iff (∀ m ∈ n.subtrees, P m)
    (forall_congr' fun _ => imp_congr_left mem_subtrees_iff)

/-! ## Nested trees -/

/-- A tree whose nodes are nested: the bounds of every node are in order, children lie inside their
parent, and earlier children end at or before later ones start. -/
inductive WellNested : Node → Prop where
  | mk {info : NodeInfo} {children : List Node} (bounds : info.start ≤ info.stop)
      (inside : ∀ c ∈ children, info.start ≤ c.info.start ∧ c.info.stop ≤ info.stop)
      (ordered : children.Pairwise fun a b => a.info.stop ≤ b.info.start)
      (below : ∀ c ∈ children, c.WellNested) : WellNested (.mk info children)

/-- What nesting asks of a node and its children. -/
@[mk_iff]
structure FitsAround (n : Node) : Prop where
  bounds : n.info.start ≤ n.info.stop
  inside : ∀ c ∈ n.children, n.info.start ≤ c.info.start ∧ c.info.stop ≤ n.info.stop
  ordered : n.children.Pairwise fun a b => a.info.stop ≤ b.info.start

theorem WellNested.of_isIn {n m : Node} (h : n.WellNested) (hm : n.IsIn m) : m.WellNested := by
  induction hm with
  | root => exact h
  | child _ hc ih =>
    obtain ⟨-, -, -, hbelow⟩ := ih
    exact hbelow _ hc

/-- **A tree is nested if every node fits around its children.** -/
theorem wellNested_iff {n : Node} : n.WellNested ↔ ∀ m, n.IsIn m → m.FitsAround := by
  constructor
  · intro h m hm
    obtain ⟨hbounds, hinside, hordered, -⟩ := h.of_isIn hm
    exact ⟨hbounds, hinside, hordered⟩
  · intro h
    induction n using childInduction with
    | step n ih =>
      obtain ⟨hbounds, hinside, hordered⟩ := h n .root
      have hbelow : ∀ c ∈ n.children, c.WellNested := by
        intro c hc
        exact ih c hc fun m hm => h m (.of_child hc hm)
      cases n
      exact .mk hbounds hinside hordered hbelow

instance instDecidableFitsAround (n : Node) : Decidable n.FitsAround :=
  decidable_of_iff' _ (fitsAround_iff n)

instance instDecidableWellNested (n : Node) : Decidable n.WellNested :=
  decidable_of_iff' _ wellNested_iff

/-! ## Trees of a single row -/

/-- A node on the first row, where columns are offsets. -/
def onFirstRow (kind : String) (named : Bool) (field : Option String) (start stop : Nat)
    (children : List Node) : Node :=
  mk ⟨kind, named, field, ⟨0, start⟩, ⟨0, stop⟩, start, stop⟩ children

end Node

end DotTarget
