import DotTarget.Proofs.Tree.Subtrees
import DotTarget.Tree.Locate

set_option autoImplicit false

/-! # The order of visits

The search for a node keeps a list of nodes still to be visited. What it does to a tree as a whole
is said here without that list: `Node.trails` lists the ways from the root down to each node that
can be visited, a node before its named children and the last of these first. The search stops at
the end of the first trail that leads to a candidate through nodes that it does not leave out
(`Locate.search_eq_findSome?`).

In a tree whose nodes are nested (`Node.WellNested`) the order of visits runs from right to left: of
two trails the later one passes through the end of the earlier one, or it branches off to a child
further left (`Node.pairwise_trails`). -/

namespace DotTarget

/-- A way from the root of a tree down to a node: that node, and the nodes above it, nearest
first. -/
structure Trail where
  node : Node
  above : List Node

namespace Trail

/-- The nodes on a trail, from its end up to the root. -/
def nodes (t : Trail) : List Node :=
  t.node :: t.above

/-- The end of a trail with the kind of its parent. -/
def located (t : Trail) : Located :=
  ⟨t.node, t.above.head?.map Node.kind⟩

end Trail

namespace Node

mutual

/-- The trails to a node with the nodes `above` over it, and to the nodes below it, in the order
in which they are visited. -/
def trails (above : List Node) : Node → List Trail
  | mk info children =>
    ⟨mk info children, above⟩ :: trailsAll (mk info children :: above) children

/-- The trails to the named ones of several children and to the nodes below them. -/
def trailsAll (above : List Node) : List Node → List Trail
  | [] => []
  | n :: rest => trailsAll above rest ++ if n.info.named then n.trails above else []

end

theorem trailsAll_eq_flatMap (above ns : List Node) :
    trailsAll above ns =
      (ns.filter fun n => n.info.named).reverse.flatMap fun n => n.trails above := by
  induction ns with
  | nil => simp [trailsAll]
  | cons n ns ih =>
    rw [trailsAll, ih]
    cases hnamed : n.info.named <;> simp [hnamed]

/-- First comes the node itself, then what lies below its named children, from last to first. -/
theorem trails_eq (above : List Node) (n : Node) :
    n.trails above =
      ⟨n, above⟩ :: n.namedChildren.reverse.flatMap fun child => child.trails (n :: above) := by
  cases n
  rw [trails, trailsAll_eq_flatMap]
  rfl

theorem mem_children_of_mem_reverse {n child : Node} (h : child ∈ n.namedChildren.reverse) :
    child ∈ n.children :=
  (List.mem_filter.1 (List.mem_reverse.1 h)).1

/-- All trails from a node pass through it and through what is above it. -/
theorem suffix_of_mem_trails {n : Node} {above : List Node} {t : Trail}
    (h : t ∈ n.trails above) : (n :: above) <:+ t.nodes := by
  induction n using childInduction generalizing above with
  | step n ih =>
    rw [trails_eq, List.mem_cons, List.mem_flatMap] at h
    rcases h with rfl | ⟨child, hchild, ht⟩
    · exact List.suffix_refl _
    · have hsuffix := ih child (mem_children_of_mem_reverse hchild) ht
      exact (List.suffix_cons child _).trans hsuffix

/-- What is above a node is above everything below it. -/
theorem suffix_above_of_mem_trails {n : Node} {above : List Node} {t : Trail}
    (h : t ∈ n.trails above) : above <:+ t.above := by
  rcases List.suffix_cons_iff.1 (suffix_of_mem_trails h) with heq | hsuffix
  · exact (List.cons.inj heq).2 ▸ List.suffix_refl _
  · exact (List.suffix_cons n above).trans hsuffix

end Node

/-! ## The search along the trails -/

/-- What the search stops with at the end of a trail: nothing if it leaves out a node on the way, or
if the end is not a candidate. -/
def Trail.hit? (t : Trail) (pruning : Pruning) (target : Position) : Option (Located × NodeKind) :=
  if t.nodes.any (pruning.skips target) then none
  else (Locate.candidate? target t.node).map fun kind => (t.located, kind)

namespace Trail

variable {t : Trail} {pruning : Pruning} {target : Position}

theorem hit?_of_skips {n : Node} (hn : n ∈ t.nodes) (h : pruning.skips target n = true) :
    t.hit? pruning target = none :=
  if_pos (List.any_eq_true.2 ⟨n, hn, h⟩)

theorem hit?_of_no_candidate (h : Locate.candidate? target t.node = none) :
    t.hit? pruning target = none := by
  unfold hit?
  rw [h]
  split <;> rfl

theorem hit?_of_candidate (hskips : ∀ n ∈ t.nodes, pruning.skips target n = false)
    {kind : NodeKind} (h : Locate.candidate? target t.node = some kind) :
    t.hit? pruning target = some (t.located, kind) := by
  unfold hit?
  rw [if_neg, h, Option.map_some]
  rw [List.any_eq_true]
  rintro ⟨n, hn, hskip⟩
  rw [hskips n hn] at hskip
  exact Bool.noConfusion hskip

end Trail

namespace Locate

theorem visits_located (t : Trail) :
    visits t.located =
      (t.node.namedChildren.reverse.map fun child => (⟨child, t.nodes⟩ : Trail)).map
        Trail.located := by
  simp only [visits, List.map_reverse, List.map_map]
  rfl

/-- The pending nodes of a search stand for all trails through them. -/
theorem search_map_located (pruning : Pruning) (target : Position) (pending : List Trail)
    (habove : ∀ t ∈ pending, ∀ n ∈ t.above, pruning.skips target n = false) :
    search pruning target (pending.map Trail.located) =
      (pending.flatMap fun t => t.node.trails t.above).findSome? (·.hit? pruning target) := by
  generalize hstack : pending.map Trail.located = stack
  induction stack using search.induct pruning target generalizing pending with
  | case1 =>
    rw [List.map_eq_nil_iff] at hstack
    subst hstack
    rw [search]
    rfl
  | case2 l rest hskip ih =>
    obtain ⟨t, pending, rfl, rfl, rfl⟩ := List.map_eq_cons_iff.1 hstack
    simp only [List.mem_cons, forall_eq_or_imp] at habove
    have hnone : (t.node.trails t.above).findSome? (·.hit? pruning target) = none := by
      rw [List.findSome?_eq_none_iff]
      intro u hu
      exact Trail.hit?_of_skips ((Node.suffix_of_mem_trails hu).subset List.mem_cons_self) hskip
    rw [search, if_pos hskip, ih pending habove.2 rfl, List.flatMap_cons, List.findSome?_append,
      hnone, Option.none_or]
  | case3 l rest hskip kind hkind =>
    obtain ⟨t, pending, rfl, rfl, rfl⟩ := List.map_eq_cons_iff.1 hstack
    simp only [List.mem_cons, forall_eq_or_imp] at habove
    have hhit : t.hit? pruning target = some (t.located, kind) := by
      refine Trail.hit?_of_candidate ?_ hkind
      intro n hn
      rcases List.mem_cons.1 hn with rfl | hn
      · exact Bool.eq_false_iff.2 hskip
      · exact habove.1 n hn
    rw [search_of_candidate (Bool.eq_false_iff.2 hskip) hkind, List.flatMap_cons,
      Node.trails_eq, List.cons_append, List.findSome?_cons_of_isSome]
    · exact hhit.symm
    · rw [hhit]
      rfl
  | case4 l rest hskip hkind ih =>
    obtain ⟨t, pending, rfl, rfl, rfl⟩ := List.map_eq_cons_iff.1 hstack
    simp only [List.mem_cons, forall_eq_or_imp] at habove
    have hchildren : ∀ u ∈ t.node.namedChildren.reverse.map fun child => (⟨child, t.nodes⟩ : Trail),
        ∀ n ∈ u.above, pruning.skips target n = false := by
      intro u hu n hn
      obtain ⟨child, -, rfl⟩ := List.mem_map.1 hu
      rcases List.mem_cons.1 hn with rfl | hn
      · exact Bool.eq_false_iff.2 hskip
      · exact habove.1 n hn
    have hnone : t.hit? pruning target = none := Trail.hit?_of_no_candidate hkind
    rw [search_of_no_candidate (Bool.eq_false_iff.2 hskip) hkind,
      ih ((t.node.namedChildren.reverse.map fun child => ⟨child, t.nodes⟩) ++ pending)
        (List.forall_mem_append.2 ⟨hchildren, habove.2⟩) (by rw [List.map_append, visits_located]),
      List.flatMap_append, List.flatMap_cons, Node.trails_eq, List.cons_append,
      List.findSome?_cons_of_isNone (by rw [hnone]; rfl), List.flatMap_map]
    rfl

/-- **The search stops at the end of the first trail that leads to a candidate** through nodes that
it does not leave out. -/
theorem search_eq_findSome? (pruning : Pruning) (target : Position) (root : Node) :
    search pruning target [Located.root root] =
      (root.trails []).findSome? (·.hit? pruning target) := by
  have hsearch := search_map_located pruning target [⟨root, []⟩] (by simp)
  rwa [List.flatMap_singleton] at hsearch

end Locate

/-- What is located is what the end of that trail stands for. -/
theorem locate_eq_findSome? (pruning : Pruning) (root : Node) (target : Position) :
    locate pruning root target =
      ((root.trails []).findSome? (·.hit? pruning target)).bind
        fun hit => Locate.extract hit.1 hit.2 := by
  rw [locate, Locate.search_eq_findSome?]
  rfl

/-! ## Nested trees -/

/-- The stretch of a node lies in that of another one. -/
def Node.Within (n outer : Node) : Prop :=
  outer.info.start ≤ n.info.start ∧ n.info.stop ≤ outer.info.stop

theorem Node.Within.refl (n : Node) : n.Within n :=
  ⟨Position.le_refl _, Position.le_refl _⟩

theorem Node.Within.trans {n middle outer : Node} (h : n.Within middle)
    (h' : middle.Within outer) : n.Within outer :=
  ⟨Position.le_trans h'.1 h.1, Position.le_trans h.2 h'.2⟩

/-- Of two trails of a nested tree, the second one leads on from the end of the first one, or it
branches off to a child further left. -/
def Trail.Precedes (t u : Trail) : Prop :=
  t.nodes <:+ u.nodes ∨
    ∃ a b common, (a :: common) <:+ t.nodes ∧ (b :: common) <:+ u.nodes ∧
      b.info.stop ≤ a.info.start

namespace Trail

variable {t : Trail} {n : Node}

theorem node_within (h : t.nodes.Pairwise Node.Within) (hn : n ∈ t.nodes) : t.node.Within n := by
  rcases List.mem_cons.1 hn with rfl | habove
  · exact Node.Within.refl _
  · exact (List.pairwise_cons.1 h).1 n habove

/-- The nodes on a trail, seen from one of them: each is further up or lies in that one. -/
theorem mem_or_within (h : t.nodes.Pairwise Node.Within) {a : Node} {common : List Node}
    (ha : (a :: common) <:+ t.nodes) (hn : n ∈ t.nodes) : n ∈ common ∨ n.Within a := by
  obtain ⟨lower, hnodes⟩ := ha
  rw [← hnodes] at h hn
  rcases List.mem_append.1 hn with hlower | hupper
  · exact .inr ((List.pairwise_append.1 h).2.2 n hlower a List.mem_cons_self)
  · rcases List.mem_cons.1 hupper with rfl | hcommon
    · exact .inr (Node.Within.refl n)
    · exact .inl hcommon

end Trail

namespace Node

/-- The nodes on a trail of a nested tree lie in each other. -/
theorem pairwise_nodes {n : Node} (h : n.WellNested) {above : List Node}
    (habove : (n :: above).Pairwise Within) {t : Trail} (ht : t ∈ n.trails above) :
    t.nodes.Pairwise Within ∧ t.node.info.start ≤ t.node.info.stop := by
  induction h generalizing above with
  | @mk info children bounds inside ordered below ih =>
    rw [trails_eq, List.mem_cons, List.mem_flatMap] at ht
    rcases ht with rfl | ⟨child, hchild, ht⟩
    · exact ⟨habove, bounds⟩
    · have hmem : child ∈ children := mem_children_of_mem_reverse hchild
      refine ih child hmem (List.pairwise_cons.2 ⟨?_, habove⟩) ht
      intro outer houter
      have hin : child.Within (.mk info children) := inside child hmem
      rcases List.mem_cons.1 houter with rfl | houter
      · exact hin
      · exact hin.trans ((List.pairwise_cons.1 habove).1 outer houter)

/-- Of two trails of a nested tree, the second one leads further down from the end of the first one,
or it branches off to a child further left. -/
theorem pairwise_trails_above {n : Node} (h : n.WellNested) (above : List Node) :
    (n.trails above).Pairwise fun t u => t.nodes <:+ u.above ∨
      ∃ a b common, (a :: common) <:+ t.nodes ∧ (b :: common) <:+ u.nodes ∧
        b.info.stop ≤ a.info.start := by
  induction h generalizing above with
  | @mk info children bounds inside ordered below ih =>
    rw [trails_eq, List.pairwise_cons, List.pairwise_flatMap]
    refine ⟨?_, ?_, ?_⟩
    · -- The node itself comes before everything below it.
      intro u hu
      obtain ⟨child, -, hu⟩ := List.mem_flatMap.1 hu
      exact .inl (suffix_above_of_mem_trails hu)
    · intro child hchild
      exact ih child (mem_children_of_mem_reverse hchild) _
    · -- Later children come before earlier ones.
      rw [List.pairwise_reverse]
      refine (ordered.filter _).imp ?_
      intro a b hab u hu t ht
      exact .inr ⟨b, a, _, suffix_of_mem_trails hu, suffix_of_mem_trails ht, hab⟩

/-- **The order of visits runs from right to left.** -/
theorem pairwise_trails {n : Node} (h : n.WellNested) (above : List Node) :
    (n.trails above).Pairwise Trail.Precedes := by
  refine (pairwise_trails_above h above).imp ?_
  intro t u htu
  exact htu.imp_left fun habove => habove.trans (List.suffix_cons u.node u.above)

end Node

end DotTarget
