import DotTarget.Proofs.Tree.PrunedSearch

set_option autoImplicit false

/-! # The node that an exhaustive search stops at

The search that leaves nothing out works with a list of nodes still to be visited. What it finds is
said here by recursion on the tree alone: `Node.trails` lists every node that named children lead to
from the root (`Node.mem_trails_iff`), a node before its named children and the last of these first,
and the search stops at the first candidate of that list (`Locate.search_of_stop?`).

In a nested tree the nodes that end at one place lie on one way down from the root, as long as the
first of them is not empty. So the search stops at the outermost candidate, and all other candidates
lie below it (`locate_exhaustive_outermost`). -/

namespace DotTarget

/-- A node that ends at the target and whose kind can be a target. -/
def Node.IsCandidate (target : Position) (n : Node) : Prop :=
  n.info.stop = target ∧ ∃ kind, n.accepted? = some kind

theorem Locate.isCandidate_iff {target : Position} {n : Node} :
    n.IsCandidate target ↔ ∃ kind, candidate? target n = some kind := by
  constructor
  · rintro ⟨hstop, kind, hkind⟩
    exact ⟨kind, (if_pos hstop).trans hkind⟩
  · rintro ⟨kind, h⟩
    obtain ⟨hstop, hkind⟩ := candidate?_eq_some h
    exact ⟨hstop, kind, hkind⟩

/-! ## Ways through named children -/

/-- The second trail is the first one, or leads on from its end through named children. -/
inductive Trail.LeadsTo (t : Trail) : Trail → Prop where
  | refl : LeadsTo t t
  | child {u : Trail} {c : Node} (hu : LeadsTo t u) (hc : c ∈ u.node.namedChildren) :
      LeadsTo t ⟨c, u.nodes⟩

theorem Trail.LeadsTo.trans {t u v : Trail} (h : t.LeadsTo u) (h' : u.LeadsTo v) :
    t.LeadsTo v := by
  induction h' with
  | refl => exact h
  | child _ hc ih => exact ih.child hc

/-- A trail that passes through the end of another one leads on from a child of that end. -/
theorem Trail.LeadsTo.exists_child {root : Node} {t u : Trail}
    (hu : (⟨root, []⟩ : Trail).LeadsTo u) (h : t.nodes <:+ u.above) :
    ∃ c ∈ t.node.namedChildren, (⟨c, t.nodes⟩ : Trail).LeadsTo u := by
  induction hu with
  | refl => exact absurd (List.suffix_nil.1 h) (List.cons_ne_nil _ _)
  | @child v c hv hc ih =>
    rcases List.suffix_cons_iff.1 h with heq | hsuffix
    · -- The way from `t` to the new end is a single step.
      obtain ⟨hnode, habove⟩ := List.cons.inj heq
      obtain rfl : t = v := by
        cases t
        cases v
        congr
      exact ⟨c, hc, .refl⟩
    · obtain ⟨first, hfirst, hlead⟩ := ih hsuffix
      exact ⟨first, hfirst, hlead.child hc⟩

namespace Node

theorem mem_trails_self (n : Node) (above : List Node) : (⟨n, above⟩ : Trail) ∈ n.trails above := by
  rw [trails_eq]
  exact List.mem_cons_self

/-- With a node its named children are visited. -/
theorem mem_trails_child {n c : Node} {above : List Node} {t : Trail} (ht : t ∈ n.trails above)
    (hc : c ∈ t.node.namedChildren) : (⟨c, t.nodes⟩ : Trail) ∈ n.trails above := by
  induction n using childInduction generalizing above with
  | step n ih =>
    rw [trails_eq, List.mem_cons, List.mem_flatMap] at ht ⊢
    rcases ht with rfl | ⟨child, hchild, ht⟩
    · exact .inr ⟨c, List.mem_reverse.2 hc, mem_trails_self c _⟩
    · exact .inr ⟨child, hchild, ih child (mem_children_of_mem_reverse hchild) ht⟩

/-- **The visited nodes are those that named children lead to.** -/
theorem mem_trails_iff {n : Node} {above : List Node} {u : Trail} :
    u ∈ n.trails above ↔ (⟨n, above⟩ : Trail).LeadsTo u := by
  constructor
  · intro h
    induction n using childInduction generalizing above with
    | step n ih =>
      rw [trails_eq, List.mem_cons, List.mem_flatMap] at h
      rcases h with rfl | ⟨child, hchild, hu⟩
      · exact .refl
      · have hstep : (⟨n, above⟩ : Trail).LeadsTo ⟨child, n :: above⟩ :=
          Trail.LeadsTo.refl.child (List.mem_reverse.1 hchild)
        exact hstep.trans (ih child (mem_children_of_mem_reverse hchild) hu)
  · intro h
    induction h with
    | refl => exact mem_trails_self n above
    | child _ hc ih => exact mem_trails_child ih hc

end Node

/-! ## The first candidate -/

namespace Locate

variable {root : Node} {target : Position} {t : Trail} {earlier later : List Trail}

/-- The first candidate of a nested tree, if it is not empty, has all later ones below it: one that
branches off further left ends before it starts. -/
theorem suffix_above_of_isCandidate (hnested : root.WellNested)
    (htrails : root.trails [] = earlier ++ t :: later) (hstop : t.node.info.stop = target)
    (hne : t.node.info.start ≠ t.node.info.stop) {u : Trail} (hu : u ∈ later)
    (hcandidate : u.node.IsCandidate target) : t.nodes <:+ u.above := by
  have hpairwise := Node.pairwise_trails_above hnested []
  rw [htrails] at hpairwise
  have hlater := (List.pairwise_cons.1 (List.pairwise_append.1 hpairwise).2.1).1
  rcases hlater u hu with habove | ⟨a, b, common, ha, hb, hab⟩
  · exact habove
  · have htmem : t ∈ root.trails [] := by simp [htrails]
    have humem : u ∈ root.trails [] := by simp [htrails, hu]
    obtain ⟨hnodes, hbounds⟩ :=
      Node.pairwise_nodes hnested (List.pairwise_singleton Node.Within root) htmem
    have hta := Trail.node_within hnodes (ha.subset List.mem_cons_self)
    have hub := Trail.node_within (pairwise_nodes_of_mem hnested humem)
      (hb.subset List.mem_cons_self)
    have hle : t.node.info.stop ≤ t.node.info.start := by
      rw [hstop, ← hcandidate.1]
      exact Position.le_trans hub.2 (Position.le_trans hab hta.1)
    exact absurd (Position.le_antisymm hbounds hle) hne

end Locate

/-- **The exhaustive search finds the outermost candidate.** The trails of a tree lead to every node
that named children lead to from the root. If one of these nodes is a candidate, the search gives
what the first one stands for, in the order that visits a node before its named children and the
last of these first. If moreover the tree is nested and that node is not empty, all other candidates
lie below it. If there is no candidate, the search gives nothing. -/
theorem locate_exhaustive_outermost (root : Node) (target : Position) :
    (∀ u, u ∈ root.trails [] ↔ (⟨root, []⟩ : Trail).LeadsTo u) ∧
    ((∃ earlier t later kind, root.trails [] = earlier ++ t :: later ∧
        (∀ u ∈ earlier, ¬ u.node.IsCandidate target) ∧
        t.node.info.stop = target ∧ t.node.accepted? = some kind ∧
        locate .exhaustive root target = Locate.extract t.located kind ∧
        (root.WellNested → t.node.info.start ≠ t.node.info.stop →
          ∀ u ∈ earlier ++ later, u.node.IsCandidate target →
            ∃ c ∈ t.node.namedChildren, (⟨c, t.nodes⟩ : Trail).LeadsTo u)) ∨
      ((∀ u ∈ root.trails [], ¬ u.node.IsCandidate target) ∧
        locate .exhaustive root target = none)) := by
  refine ⟨fun _ => Node.mem_trails_iff, ?_⟩
  cases hfirst : root.stop? target with
  | none =>
    right
    refine ⟨?_, locate_eq_none (Locate.search_of_stop?_eq_none _ hfirst)⟩
    intro u hu hcandidate
    obtain ⟨kind, hkind⟩ := Locate.isCandidate_iff.1 hcandidate
    simpa [hkind] using List.find?_eq_none.1 hfirst u hu
  | some t =>
    left
    obtain ⟨kind, earlier, later, hkind, htrails, hnone⟩ := Locate.stop?_eq_some hfirst
    obtain ⟨found, hfound, hsearch⟩ := Locate.search_of_stop? .exhaustive hfirst fun _ _ => rfl
    obtain rfl := Option.some.inj (hkind.symm.trans hfound)
    obtain ⟨hstop, haccepted⟩ := Locate.candidate?_eq_some hkind
    have hearlier : ∀ u ∈ earlier, ¬ u.node.IsCandidate target := by
      intro u hu hcandidate
      obtain ⟨other, hother⟩ := Locate.isCandidate_iff.1 hcandidate
      exact absurd ((hnone u hu).symm.trans hother) (by simp)
    refine ⟨earlier, t, later, kind, htrails, hearlier, hstop, haccepted, ?_, ?_⟩
    · unfold locate
      rw [hsearch]
      rfl
    · intro hnested hne u hu hcandidate
      rcases List.mem_append.1 hu with hbefore | hafter
      · exact absurd hcandidate (hearlier u hbefore)
      · have habove :=
          Locate.suffix_above_of_isCandidate hnested htrails hstop hne hafter hcandidate
        have hmem : u ∈ root.trails [] := by simp [htrails, hafter]
        exact (Node.mem_trails_iff.1 hmem).exists_child habove

/-! ## A member that is assigned

In `a = b.c` the assignment, the member and its name all end at the end of the row. -/

/-- The name of the member. -/
def assignedName : Node :=
  .onFirstRow "identifier" true (some "attribute") 6 7 []

/-- The member `b.c`. -/
def assignedMember : Node :=
  .onFirstRow "attribute" true (some "right") 4 7
    [.onFirstRow "identifier" true (some "object") 4 5 [],
     .onFirstRow "." false none 5 6 [], assignedName]

/-- The whole assignment. -/
def memberAssignment : Node :=
  .onFirstRow "assignment" true none 0 7
    [.onFirstRow "identifier" true (some "left") 0 1 [],
     .onFirstRow "=" false none 2 3 [], assignedMember]

/-- The tree of the row. -/
def assignmentTree : Node :=
  .onFirstRow "module" true none 0 7 [memberAssignment]

theorem wellNested_assignmentTree : assignmentTree.WellNested := by
  decide

/-- The search stops at the assignment and gives the member; its name lies below the assignment. -/
theorem locate_exhaustive_assignmentTree :
    assignmentTree.WellNested ∧
      locate .exhaustive assignmentTree ⟨0, 7⟩ = some ⟨assignedMember, some "assignment"⟩ ∧
      ∃ c ∈ memberAssignment.namedChildren,
        (⟨c, [memberAssignment, assignmentTree]⟩ : Trail).LeadsTo
          ⟨assignedName, [assignedMember, memberAssignment, assignmentTree]⟩ := by
  have htree : assignmentTree.trails [] =
      [⟨assignmentTree, []⟩, ⟨memberAssignment, [assignmentTree]⟩,
       ⟨assignedMember, [memberAssignment, assignmentTree]⟩,
       ⟨assignedName, [assignedMember, memberAssignment, assignmentTree]⟩,
       ⟨.onFirstRow "identifier" true (some "object") 4 5 [],
        [assignedMember, memberAssignment, assignmentTree]⟩,
       ⟨.onFirstRow "identifier" true (some "left") 0 1 [],
        [memberAssignment, assignmentTree]⟩] := rfl
  have hassignment : memberAssignment.IsCandidate ⟨0, 7⟩ := ⟨rfl, .assignment, rfl⟩
  have hname : assignedName.IsCandidate ⟨0, 7⟩ := ⟨rfl, .identifier, rfl⟩
  obtain ⟨-, ⟨earlier, t, later, kind, htrails, hearlier, -, hkind, hlocate, hbelow⟩ |
    ⟨hnone, -⟩⟩ := locate_exhaustive_outermost assignmentTree ⟨0, 7⟩
  · rw [htree] at htrails
    -- The first node that is visited is no candidate, and the second one is the assignment.
    rcases earlier with _ | ⟨first, _ | ⟨second, rest⟩⟩
    · obtain ⟨rfl, -⟩ := List.cons.inj htrails
      exact absurd (hkind.symm.trans (show assignmentTree.accepted? = none by decide)) (by simp)
    · obtain ⟨-, hrest⟩ := List.cons.inj htrails
      obtain ⟨rfl, rfl⟩ := List.cons.inj hrest
      obtain rfl : NodeKind.assignment = kind := Option.some.inj hkind
      refine ⟨wellNested_assignmentTree, hlocate.trans ?_,
        hbelow wellNested_assignmentTree (by decide) _ (by simp) hname⟩
      exact (Locate.assigned_of_some rfl).trans (if_neg (by decide))
    · obtain ⟨-, hrest⟩ := List.cons.inj htrails
      obtain ⟨rfl, -⟩ := List.cons.inj hrest
      exact absurd hassignment (hearlier _ (List.mem_cons_of_mem _ List.mem_cons_self))
  · exact absurd hassignment (hnone ⟨memberAssignment, [assignmentTree]⟩ (by simp [htree]))

end DotTarget
