import DotTarget.Proofs.Tree.VisitingOrder

set_option autoImplicit false

/-! # Paths through named children

A node that is reached from another one through named children has a path: the numbers of the
children on the way (`Node.descend?`). `Node.paths` lists the paths of all such nodes
(`Node.mem_paths_iff`). Sorted as words, paths are in pre-order: a node comes before what is below
it, and that comes before what is below the next sibling (`Node.pairwise_paths`). -/

namespace DotTarget

namespace Node

/-- The node at the end of a path. A path goes from a node to one of its named children, given by
its number, and on from there. -/
def descend? (n : Node) : List Nat → Option Node
  | [] => some n
  | i :: path => n.namedChildren[i]?.bind fun child => child.descend? path

mutual

/-- The paths from a node to all nodes that can be reached, a node before its children and these
from left to right. -/
def paths : Node → List (List Nat)
  | mk _ children => [] :: pathsFrom 0 children

/-- The paths through several children, of which the first named one has the given number. -/
def pathsFrom (i : Nat) : List Node → List (List Nat)
  | [] => []
  | child :: rest =>
    if child.info.named then child.paths.map (i :: ·) ++ pathsFrom (i + 1) rest
    else pathsFrom i rest

end

theorem paths_eq (n : Node) : n.paths = [] :: pathsFrom 0 n.children := by
  cases n
  rw [paths, children]

theorem descend?_cons_of_some {n child : Node} {i : Nat} (h : n.namedChildren[i]? = some child)
    (path : List Nat) : n.descend? (i :: path) = child.descend? path := by
  rw [descend?, h, Option.bind_some]

theorem mem_pathsFrom_iff {i : Nat} {ns : List Node} {path : List Nat} :
    path ∈ pathsFrom i ns ↔
      ∃ j child tail, (ns.filter fun n => n.info.named)[j]? = some child ∧ tail ∈ child.paths ∧
        path = (i + j) :: tail := by
  induction ns generalizing i with
  | nil => simp [pathsFrom]
  | cons n ns ih =>
    rw [pathsFrom]
    cases hnamed : n.info.named with
    | false => simp [hnamed, ih]
    | true =>
      simp only [if_true, List.mem_append, List.mem_map, ih, List.filter_cons, hnamed]
      constructor
      · rintro (⟨tail, htail, rfl⟩ | ⟨j, child, tail, hchild, htail, rfl⟩)
        · exact ⟨0, n, tail, rfl, htail, rfl⟩
        · exact ⟨j + 1, child, tail, hchild, htail, by rw [Nat.add_assoc, Nat.add_comm 1]⟩
      · rintro ⟨j, child, tail, hchild, htail, rfl⟩
        cases j with
        | zero =>
          obtain rfl : n = child := by simpa using hchild
          exact .inl ⟨tail, htail, rfl⟩
        | succ j =>
          exact .inr ⟨j, child, tail, hchild, htail, by rw [Nat.add_assoc, Nat.add_comm 1]⟩

/-- **The paths are those that lead to a node.** -/
theorem mem_paths_iff {n : Node} {path : List Nat} :
    path ∈ n.paths ↔ ∃ node, n.descend? path = some node := by
  induction path generalizing n with
  | nil => simp [paths_eq, descend?]
  | cons i path ih =>
    rw [paths_eq, List.mem_cons, mem_pathsFrom_iff, descend?]
    constructor
    · rintro (h | ⟨j, child, tail, hchild, htail, h⟩)
      · exact absurd h (by simp)
      · obtain ⟨rfl, rfl⟩ := List.cons.inj h
        rw [Nat.zero_add, namedChildren, hchild]
        exact ih.1 htail
    · rintro ⟨node, h⟩
      obtain ⟨child, hchild, hnode⟩ := Option.bind_eq_some_iff.1 h
      exact .inr ⟨i, child, path, hchild, ih.2 ⟨node, hnode⟩, by rw [Nat.zero_add]⟩

theorem pairwise_pathsFrom {ns : List Node} (h : ∀ n ∈ ns, n.paths.Pairwise (· < ·)) (i : Nat) :
    (pathsFrom i ns).Pairwise (· < ·) := by
  induction ns generalizing i with
  | nil => exact .nil
  | cons n ns ih =>
    rw [List.forall_mem_cons] at h
    rw [pathsFrom]
    split
    · refine List.pairwise_append.2 ⟨?_, ih h.2 (i + 1), ?_⟩
      · exact List.Pairwise.map _ (fun _ _ hlt => List.cons_lt_cons_self.2 hlt) h.1
      · intro path hpath other hother
        obtain ⟨tail, -, rfl⟩ := List.mem_map.1 hpath
        obtain ⟨j, child, tail', -, -, rfl⟩ := mem_pathsFrom_iff.1 hother
        exact List.cons_lt_cons_iff.2 (.inl (by omega))
    · exact ih h.2 i

/-- **The paths are in pre-order.** -/
theorem pairwise_paths (n : Node) : n.paths.Pairwise (· < ·) := by
  induction n using childInduction with
  | step n ih =>
    rw [paths_eq, List.pairwise_cons]
    refine ⟨fun path hpath => ?_, pairwise_pathsFrom ih 0⟩
    obtain ⟨j, child, tail, -, -, rfl⟩ := mem_pathsFrom_iff.1 hpath
    exact List.nil_lt_cons _ _

theorem pathsFrom_eq_nil_iff {n : Node} {i : Nat} :
    pathsFrom i n.children = [] ↔ n.namedChildren = [] := by
  rw [namedChildren, List.filter_eq_nil_iff]
  induction n.children generalizing i with
  | nil => simp [pathsFrom]
  | cons child rest ih =>
    rw [pathsFrom, List.forall_mem_cons]
    cases hnamed : child.info.named with
    | false => simp [ih]
    | true => simp [paths_eq]

end Node

end DotTarget
