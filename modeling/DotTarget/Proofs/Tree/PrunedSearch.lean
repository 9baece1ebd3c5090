import DotTarget.Proofs.Tree.LocatedNodes
import DotTarget.Proofs.Tree.VisitingOrder

set_option autoImplicit false

/-! # What pruning misses

The heuristic leaves out subtrees by comparing columns of different rows, so it can leave out the
very node that the exhaustive search stops at. In a nested tree this is all that can go wrong, and
it shows on the trail to that node (`Node.stop?`): if no node on the trail starts right of the
target column, both searches stop there; if one does, it starts on an earlier row, and the heuristic
search finds nothing, because all that is left to visit ends before the target
(`locate_heuristic_of_wellNested`). -/

namespace DotTarget

/-- The trail at whose end the exhaustive search stops: the first one that leads to a candidate. -/
def Node.stop? (root : Node) (target : Position) : Option Trail :=
  (root.trails []).find? fun t => (Locate.candidate? target t.node).isSome

namespace Locate

variable {root : Node} {target : Position} {t : Trail}

/-- A stop splits the trails: no earlier one leads to a candidate. -/
theorem stop?_eq_some (h : root.stop? target = some t) :
    ∃ kind earlier later, candidate? target t.node = some kind ∧
      root.trails [] = earlier ++ t :: later ∧
      ∀ u ∈ earlier, candidate? target u.node = none := by
  obtain ⟨hcandidate, earlier, later, htrails, hearlier⟩ := List.find?_eq_some_iff_append.1 h
  obtain ⟨kind, hkind⟩ := Option.isSome_iff_exists.1 hcandidate
  refine ⟨kind, earlier, later, hkind, htrails, ?_⟩
  intro u hu
  simpa using hearlier u hu

/-- A search that leaves out no node on the way to the stop finds it. -/
theorem search_of_stop? (pruning : Pruning) (h : root.stop? target = some t)
    (hskips : ∀ n ∈ t.nodes, pruning.skips target n = false) :
    ∃ kind, candidate? target t.node = some kind ∧
      search pruning target [Located.root root] = some (t.located, kind) := by
  obtain ⟨kind, earlier, later, hkind, htrails, hearlier⟩ := stop?_eq_some h
  refine ⟨kind, hkind, ?_⟩
  rw [search_eq_findSome?, List.findSome?_eq_some_iff]
  refine ⟨earlier, t, later, htrails, Trail.hit?_of_candidate hskips hkind, ?_⟩
  intro u hu
  exact Trail.hit?_of_no_candidate (hearlier u hu)

/-- Without a stop no search finds anything. -/
theorem search_of_stop?_eq_none (pruning : Pruning) (h : root.stop? target = none) :
    search pruning target [Located.root root] = none := by
  rw [search_eq_findSome?, List.findSome?_eq_none_iff]
  intro u hu
  refine Trail.hit?_of_no_candidate ?_
  simpa using List.find?_eq_none.1 h u hu

/-! ## The trail to the stop -/

theorem mem_trails_of_stop? (h : root.stop? target = some t) : t ∈ root.trails [] :=
  List.mem_of_find?_eq_some h

theorem pairwise_nodes_of_mem (hnested : root.WellNested) (ht : t ∈ root.trails []) :
    t.nodes.Pairwise Node.Within :=
  (Node.pairwise_nodes hnested (List.pairwise_singleton _ _) ht).1

section Stop

variable (hnested : root.WellNested) (hstop : root.stop? target = some t)

include hnested hstop

/-- The target lies in every node on the trail to the stop, and every such node in the root. -/
theorem target_within_of_mem_stop {n : Node} (hn : n ∈ t.nodes) :
    n.info.start ≤ target ∧ target ≤ n.info.stop ∧ n.Within root := by
  obtain ⟨kind, -, -, hkind, -, -⟩ := stop?_eq_some hstop
  have ht := mem_trails_of_stop? hstop
  obtain ⟨hpairwise, hbounds⟩ :=
    Node.pairwise_nodes hnested (List.pairwise_singleton Node.Within root) ht
  have hend := Trail.node_within hpairwise hn
  have htarget : t.node.info.stop = target := (candidate?_eq_some hkind).1
  rw [← htarget]
  refine ⟨Position.le_trans hend.1 hbounds, hend.2, ?_⟩
  rcases Trail.mem_or_within hpairwise (Node.suffix_of_mem_trails ht) hn with hnil | hwithin
  · exact absurd hnil List.not_mem_nil
  · exact hwithin

/-- On the way to the stop only the columns decide what the heuristic leaves out. -/
theorem skips_heuristic_iff {n : Node} (hn : n ∈ t.nodes) :
    Pruning.heuristic.skips target n = true ↔ target.column < n.info.start.column := by
  obtain ⟨-, hle, -⟩ := target_within_of_mem_stop hnested hstop hn
  have hrow : ¬ n.info.stop.row < target.row := by
    rw [Position.le_def] at hle
    omega
  simp [Pruning.skips, hrow]

/-- A node on the way to the stop that starts right of the target column starts on an earlier
row. -/
theorem row_lt_of_column_lt {n : Node} (hn : n ∈ t.nodes)
    (hcolumn : target.column < n.info.start.column) : n.info.start.row < target.row := by
  obtain ⟨hle, -, -⟩ := target_within_of_mem_stop hnested hstop hn
  rw [Position.le_def] at hle
  omega

/-- Once a node on the way to the stop is left out, no later trail leads to a candidate: it passes
through that node too, or it ends before the target. -/
theorem hit?_of_precedes {n : Node} (hn : n ∈ t.nodes)
    (hcolumn : target.column < n.info.start.column) {u : Trail} (hu : u ∈ root.trails [])
    (hprecedes : t.Precedes u) : u.hit? .heuristic target = none := by
  have hskip := (skips_heuristic_iff hnested hstop hn).2 hcolumn
  rcases hprecedes with hsuffix | ⟨a, b, common, ha, hb, hab⟩
  · exact Trail.hit?_of_skips (hsuffix.subset hn) hskip
  · have hpairwise := pairwise_nodes_of_mem hnested (mem_trails_of_stop? hstop)
    rcases Trail.mem_or_within hpairwise ha hn with hcommon | hwithin
    · exact Trail.hit?_of_skips (hb.subset (List.mem_cons_of_mem b hcommon)) hskip
    · -- The trail ends left of `a`, which starts at or before the node left out.
      refine Trail.hit?_of_no_candidate (if_neg ?_)
      intro hend
      have hub : u.node.Within b :=
        Trail.node_within (pairwise_nodes_of_mem hnested hu) (hb.subset List.mem_cons_self)
      have hrow := row_lt_of_column_lt hnested hstop hn hcolumn
      have hle : target ≤ n.info.start := by
        rw [← hend]
        exact Position.le_trans hub.2 (Position.le_trans hab hwithin.1)
      rw [Position.le_def] at hle
      omega

/-- The heuristic search finds nothing once it leaves out a node on the way to the stop. -/
theorem search_heuristic_eq_none {n : Node} (hn : n ∈ t.nodes)
    (hcolumn : target.column < n.info.start.column) :
    search .heuristic target [Located.root root] = none := by
  obtain ⟨kind, earlier, later, -, htrails, hearlier⟩ := stop?_eq_some hstop
  have hpairwise := Node.pairwise_trails hnested []
  rw [htrails] at hpairwise
  have hlater := (List.pairwise_cons.1 (List.pairwise_append.1 hpairwise).2.1).1
  rw [search_eq_findSome?, List.findSome?_eq_none_iff]
  intro u hu
  have hsplit := hu
  rw [htrails] at hsplit
  rcases List.mem_append.1 hsplit with hbefore | hrest
  · exact Trail.hit?_of_no_candidate (hearlier u hbefore)
  · rcases List.mem_cons.1 hrest with rfl | hafter
    · exact Trail.hit?_of_skips hn ((skips_heuristic_iff hnested hstop hn).2 hcolumn)
    · exact hit?_of_precedes hnested hstop hn hcolumn hu (hlater u hafter)

/-- Both searches stop at the same node if no node on the way starts right of the target column. -/
theorem search_heuristic_eq_exhaustive
    (hcolumns : ∀ n ∈ t.nodes, n.info.start.column ≤ target.column) :
    search .heuristic target [Located.root root] =
      search .exhaustive target [Located.root root] := by
  have hskips : ∀ n ∈ t.nodes, Pruning.heuristic.skips target n = false := by
    intro n hn
    rw [Bool.eq_false_iff, Ne, skips_heuristic_iff hnested hstop hn]
    exact Nat.not_lt.2 (hcolumns n hn)
  obtain ⟨kind, hkind, hheuristic⟩ := search_of_stop? .heuristic hstop hskips
  obtain ⟨kind', hkind', hexhaustive⟩ := search_of_stop? .exhaustive hstop fun _ _ => rfl
  rw [hexhaustive, hheuristic, Option.some.inj (hkind.symm.trans hkind')]

/-- In a tree on a single row no node on the way to the stop starts right of the target. -/
theorem column_le_of_single_row (hrow : root.info.start.row = root.info.stop.row) {n : Node}
    (hn : n ∈ t.nodes) : n.info.start.column ≤ target.column := by
  refine Nat.le_of_not_lt ?_
  intro hcolumn
  have hlt := row_lt_of_column_lt hnested hstop hn hcolumn
  obtain ⟨-, hle, hstart, hend⟩ := target_within_of_mem_stop hnested hstop hn
  rw [Position.le_def] at hle hstart hend
  omega

end Stop

end Locate

theorem locate_eq_none {pruning : Pruning} {root : Node} {target : Position}
    (h : Locate.search pruning target [Located.root root] = none) :
    locate pruning root target = none := by
  unfold locate
  rw [h]
  rfl

/-- **Pruning is exact up to one kind of miss.** Take the node at which the exhaustive search of a
nested tree stops, and the trail `t` that leads to it. The heuristic search gives the same result
unless a node on that trail, be it the last one, starts right of the target column. Such a node
starts on an earlier row, and then the heuristic search gives nothing. When the exhaustive search
stops nowhere both give nothing, and on a tree on a single row they always agree. -/
theorem locate_heuristic_of_wellNested {root : Node} (hnested : root.WellNested)
    (target : Position) :
    (∀ stop kind, Locate.search .exhaustive target [Located.root root] = some (stop, kind) →
      ∃ t, root.stop? target = some t ∧ t.located = stop ∧
        ((∀ n ∈ t.nodes, n.info.start.column ≤ target.column) →
          locate .heuristic root target = locate .exhaustive root target) ∧
        ∀ n ∈ t.nodes, target.column < n.info.start.column →
          locate .heuristic root target = none ∧ n.info.start.row < target.row) ∧
    (Locate.search .exhaustive target [Located.root root] = none →
      locate .exhaustive root target = none ∧ locate .heuristic root target = none) ∧
    (root.info.start.row = root.info.stop.row →
      locate .heuristic root target = locate .exhaustive root target) := by
  cases hstop : root.stop? target with
  | none =>
    have hnone := fun pruning => Locate.search_of_stop?_eq_none pruning hstop
    have hboth := fun pruning => locate_eq_none (hnone pruning)
    refine ⟨?_, fun _ => ⟨hboth _, hboth _⟩, fun _ => (hboth _).trans (hboth _).symm⟩
    intro stop kind hsearch
    rw [hnone] at hsearch
    exact absurd hsearch (by simp)
  | some t =>
    obtain ⟨kind, -, hexhaustive⟩ := Locate.search_of_stop? .exhaustive hstop fun _ _ => rfl
    have hsame : (∀ n ∈ t.nodes, n.info.start.column ≤ target.column) →
        locate .heuristic root target = locate .exhaustive root target := by
      intro hcolumns
      unfold locate
      rw [Locate.search_heuristic_eq_exhaustive hnested hstop hcolumns]
    refine ⟨?_, ?_, ?_⟩
    · intro stop kind' hsearch
      rw [hexhaustive] at hsearch
      obtain ⟨rfl, rfl⟩ := Prod.mk.inj (Option.some.inj hsearch)
      refine ⟨t, rfl, rfl, hsame, ?_⟩
      intro n hn hcolumn
      exact ⟨locate_eq_none (Locate.search_heuristic_eq_none hnested hstop hn hcolumn),
        Locate.row_lt_of_column_lt hnested hstop hn hcolumn⟩
    · intro hnone
      rw [hexhaustive] at hnone
      exact absurd hnone (by simp)
    · intro hrow
      exact hsame fun n hn => Locate.column_le_of_single_row hnested hstop hrow hn

/-! ## A call in the arguments of another one

In `print(foo(` with ` a))` on the next row the call of `foo` starts right of where it ends. -/

/-- The call of `foo`. -/
def innerCall : Node :=
  .mk ⟨"call", true, none, ⟨0, 6⟩, ⟨1, 3⟩, 6, 14⟩
    [.mk ⟨"identifier", true, none, ⟨0, 6⟩, ⟨0, 9⟩, 6, 9⟩ [],
     .mk ⟨"argument_list", true, none, ⟨0, 9⟩, ⟨1, 3⟩, 9, 14⟩
      [.mk ⟨"(", false, none, ⟨0, 9⟩, ⟨0, 10⟩, 9, 10⟩ [],
       .mk ⟨"identifier", true, none, ⟨1, 1⟩, ⟨1, 2⟩, 12, 13⟩ [],
       .mk ⟨")", false, none, ⟨1, 2⟩, ⟨1, 3⟩, 13, 14⟩ []]]

/-- The arguments of the call of `print`. -/
def outerArguments : Node :=
  .mk ⟨"argument_list", true, none, ⟨0, 5⟩, ⟨1, 4⟩, 5, 15⟩
    [.mk ⟨"(", false, none, ⟨0, 5⟩, ⟨0, 6⟩, 5, 6⟩ [], innerCall,
     .mk ⟨")", false, none, ⟨1, 3⟩, ⟨1, 4⟩, 14, 15⟩ []]

/-- The call of `print`. -/
def outerCall : Node :=
  .mk ⟨"call", true, none, ⟨0, 0⟩, ⟨1, 4⟩, 0, 15⟩
    [.mk ⟨"identifier", true, none, ⟨0, 0⟩, ⟨0, 5⟩, 0, 5⟩ [], outerArguments]

/-- The whole tree. -/
def nestedCalls : Node :=
  .mk ⟨"module", true, none, ⟨0, 0⟩, ⟨1, 4⟩, 0, 15⟩ [outerCall]

theorem wellNested_nestedCalls : nestedCalls.WellNested := by
  decide

theorem stop?_nestedCalls :
    nestedCalls.stop? ⟨1, 3⟩ = some ⟨innerCall, [outerArguments, outerCall, nestedCalls]⟩ :=
  rfl

/-- The heuristic search misses the call that the exhaustive one stops at. -/
theorem locate_heuristic_nestedCalls :
    Locate.search .exhaustive ⟨1, 3⟩ [Located.root nestedCalls] =
        some (⟨innerCall, some "argument_list"⟩, .call) ∧
      locate .heuristic nestedCalls ⟨1, 3⟩ = none := by
  obtain ⟨kind, hkind, hsearch⟩ :=
    Locate.search_of_stop? .exhaustive stop?_nestedCalls fun _ _ => rfl
  obtain rfl : NodeKind.call = kind := Option.some.inj hkind
  obtain ⟨t, hstop, -, -, hmiss⟩ :=
    (locate_heuristic_of_wellNested wellNested_nestedCalls ⟨1, 3⟩).1 _ _ hsearch
  obtain rfl := Option.some.inj (stop?_nestedCalls.symm.trans hstop)
  exact ⟨hsearch, (hmiss innerCall List.mem_cons_self (by decide)).1⟩

end DotTarget
