import DotTarget.Proofs.Tree.VisitingOrder
import DotTarget.Session.Resolver

set_option autoImplicit false

/-! # How the strategies relate

A resolver can be asked the same question under each of its strategies (`answerWith`). The strategy
`auto` decides between the tree and the text by whether a node is found at the trigger (`nodeAt?`),
and not by whether that node is of any use: with a node it answers what the tree answers, without
one what scanning answers (`answerWith_auto`). A node that covers nothing is the one case where it
answers nothing although scanning finds a target (`auto_misses_target_of_empty_node`). -/

namespace DotTarget

/-- A cache with a grammar takes every text, also when its parser gives up. -/
theorem Cache.parse_eq_ok {cache : Cache} (hinit : cache.isInitialized = true) (id : String)
    (t : Text) : ∃ after, cache.parse id t = .ok after := by
  cases hengine : cache.engine with
  | none => simp [isInitialized, hengine] at hinit
  | some engine =>
    unfold parse
    rw [hengine]
    dsimp only
    split
    · exact ⟨_, rfl⟩
    · exact ⟨_, rfl⟩

namespace Resolver

/-- The answer that a resolver would give under a strategy. -/
def answerWith (r : Resolver) (strategy : Strategy) (id : String) (t : Text) (cursor : Position) :
    Except ResolveError (Option Boundary) :=
  (resolve { r with config := { r.config with strategy } } id t cursor).2

/-- The node that the tree has at the trigger of a cursor, once the text without the trigger is
parsed. -/
def nodeAt? (r : Resolver) (id : String) (t : Text) (cursor : Position) : Option Located := do
  let trigger ← triggerAt? t cursor
  let stripped ← withoutTrigger t trigger
  let cache ← (r.cache.parse id stripped).toOption
  let cached ← cache.get? id
  locate r.config.pruning (cached.current r.editor).root trigger.dot

/-- What remains of an answer when targets that cover nothing are dropped. -/
def dropEmpty (answer : Except ResolveError (Option Boundary)) :
    Except ResolveError (Option Boundary) :=
  answer.map fun found => found.filter fun boundary => !boundary.span.isEmpty

theorem resolve_of_triggerAt? (r : Resolver) (id : String) {t : Text} {cursor : Position}
    {trigger : Trigger} (h : triggerAt? t cursor = some trigger) :
    (r.resolve id t cursor).2 = dropEmpty (r.resolveTrigger id t trigger).2 := by
  rw [resolve, h]
  rfl

theorem resolve_of_no_trigger (r : Resolver) (id : String) {t : Text} {cursor : Position}
    (h : triggerAt? t cursor = none) : (r.resolve id t cursor).2 = .ok none := by
  rw [resolve, h]

/-! ## The tree's answer and the node behind it -/

/-- Without a node at the trigger the tree gives no target. -/
theorem resolveTree_of_nodeAt?_eq_none {r : Resolver} (hinit : r.cache.isInitialized = true)
    {id : String} {t : Text} {cursor : Position} {trigger : Trigger}
    (htrigger : triggerAt? t cursor = some trigger) (h : r.nodeAt? id t cursor = none) :
    (r.resolveTree id t trigger).2 = .ok none := by
  cases hstripped : withoutTrigger t trigger with
  | none => simp only [resolveTree, hstripped]
  | some stripped =>
    obtain ⟨cache, hparse⟩ := Cache.parse_eq_ok hinit id stripped
    simp only [resolveTree, hstripped, hparse]
    cases hcached : cache.get? id with
    | none => rfl
    | some cached =>
      simp only [nodeAt?, htrigger, hstripped, hparse, hcached, bind, Option.bind_some,
        Except.toOption] at h
      simp only [boundaryInTree, h]

/-- With a node at the trigger the tree's answer is the span of that node, unless its bounds are
reversed. -/
theorem resolveTree_of_nodeAt?_eq_some {r : Resolver} {id : String} {t : Text} {cursor : Position}
    {trigger : Trigger} {found : Located} (htrigger : triggerAt? t cursor = some trigger)
    (h : r.nodeAt? id t cursor = some found) :
    (∃ fault, (r.resolveTree id t trigger).2 = .error (.fault fault) ∧
      found.node.info.start ≠ found.node.info.stop) ∨
      ∃ b, (r.resolveTree id t trigger).2 = .ok (some b) ∧
        b.span = ⟨found.node.info.start, found.node.info.stop⟩ := by
  simp only [nodeAt?, htrigger, bind, Option.bind_some, Option.bind_eq_some_iff] at h
  obtain ⟨stripped, hstripped, cache, hcache, cached, hcached, hlocate⟩ := h
  have hparse : r.cache.parse id stripped = .ok cache := by
    cases hresult : r.cache.parse id stripped with
    | error e => simp [hresult, Except.toOption] at hcache
    | ok cache' =>
      simp only [hresult, Except.toOption, Option.some.injEq] at hcache
      rw [hcache]
  have hanswer : (r.resolveTree id t trigger).2 =
      boundaryInTree r.config.pruning (cached.current r.editor) trigger.dot := by
    simp only [resolveTree, hstripped, hparse, hcached]
  rw [hanswer, boundaryInTree, hlocate]
  simp only [Located.summary, Span.ordered]
  by_cases hle : found.node.info.start ≤ found.node.info.stop
  · rw [if_pos hle]
    exact .inr ⟨_, rfl, rfl⟩
  · rw [if_neg hle]
    refine .inl ⟨_, rfl, fun heq => hle ?_⟩
    rw [heq]
    exact Position.le_refl _

/-! ## The answers under each strategy -/

section Answers

variable (r : Resolver) (id : String) {t : Text} {cursor : Position} {trigger : Trigger}

/-- The tree's answer does not depend on the strategy. -/
theorem resolveTree_withStrategy (strategy : Strategy) (t : Text) (trigger : Trigger) :
    (resolveTree { r with config := { r.config with strategy } } id t trigger).2 =
      (r.resolveTree id t trigger).2 := by
  unfold resolveTree
  dsimp only
  split
  · rfl
  · split <;> rfl

theorem answerWith_of_no_trigger (strategy : Strategy) (h : triggerAt? t cursor = none) :
    r.answerWith strategy id t cursor = .ok none :=
  resolve_of_no_trigger _ id h

theorem answerWith_tree (h : triggerAt? t cursor = some trigger) :
    r.answerWith .tree id t cursor = dropEmpty (r.resolveTree id t trigger).2 := by
  rw [answerWith, resolve_of_triggerAt? _ id h, ← r.resolveTree_withStrategy id .tree]
  rfl

theorem answerWith_lexical (h : triggerAt? t cursor = some trigger) :
    r.answerWith .lexical id t cursor =
      dropEmpty (resolveLexical r.config (Text.lines t) trigger) := by
  rw [answerWith, resolve_of_triggerAt? _ id h]
  rfl

/-- `auto` scans when the tree has no target, before empty targets are dropped. -/
theorem answerWith_auto_of_none (h : triggerAt? t cursor = some trigger)
    (htree : (r.resolveTree id t trigger).2 = .ok none) :
    r.answerWith .auto id t cursor = r.answerWith .lexical id t cursor := by
  rw [answerWith_lexical r id h, answerWith, resolve_of_triggerAt? _ id h, resolveTrigger]
  rw [← r.resolveTree_withStrategy id .auto] at htree
  dsimp only
  split
  · rfl
  · rename_i answer hno
    exact (hno (resolveTree { r with config := { r.config with strategy := .auto } } id t
      trigger).1 (Prod.ext rfl htree)).elim

theorem answerWith_auto_of_ne_none (h : triggerAt? t cursor = some trigger)
    (htree : (r.resolveTree id t trigger).2 ≠ .ok none) :
    r.answerWith .auto id t cursor = r.answerWith .tree id t cursor := by
  rw [answerWith_tree r id h, answerWith, resolve_of_triggerAt? _ id h, resolveTrigger]
  rw [← r.resolveTree_withStrategy id .auto] at htree ⊢
  dsimp only
  split
  · rename_i r' hanswer
    exact absurd (congrArg Prod.snd hanswer) htree
  · rfl

end Answers

/-! ## The strategy that falls back -/

/-- **With a node at the trigger `auto` answers what the tree answers, and without one what
scanning answers.** So it gives the tree's target whenever there is one, and it misses a target
that scanning finds only if the node found covers nothing. -/
theorem answerWith_auto (r : Resolver) (hinit : r.cache.isInitialized = true) (id : String)
    (t : Text) (cursor : Position) :
    (∀ b, r.answerWith .tree id t cursor = .ok (some b) →
      r.answerWith .auto id t cursor = .ok (some b)) ∧
    (∀ found, r.nodeAt? id t cursor = some found →
      r.answerWith .auto id t cursor = r.answerWith .tree id t cursor ∧
      (r.answerWith .auto id t cursor = .ok none ↔
        found.node.info.start = found.node.info.stop)) ∧
    (r.nodeAt? id t cursor = none →
      r.answerWith .auto id t cursor = r.answerWith .lexical id t cursor) ∧
    (∀ b, r.answerWith .auto id t cursor = .ok none →
      r.answerWith .lexical id t cursor = .ok (some b) →
      ∃ found, r.nodeAt? id t cursor = some found ∧
        found.node.info.start = found.node.info.stop) := by
  cases htrigger : triggerAt? t cursor with
  | none =>
    have hnone : r.nodeAt? id t cursor = none := by simp [nodeAt?, htrigger]
    simp [answerWith_of_no_trigger r id _ htrigger, hnone]
  | some trigger =>
    cases hnode : r.nodeAt? id t cursor with
    | none =>
      -- The tree has nothing to say, so both halves of the fallback agree with scanning.
      have htree := resolveTree_of_nodeAt?_eq_none hinit htrigger hnode
      have hauto := answerWith_auto_of_none r id htrigger htree
      have hnothing : r.answerWith .tree id t cursor = .ok none := by
        rw [answerWith_tree r id htrigger, htree]
        rfl
      refine ⟨fun b hb => ?_, by simp, fun _ => hauto, fun b hnil hb => ?_⟩
      · rw [hnothing] at hb
        exact absurd hb (by simp)
      · rw [hauto, hb] at hnil
        exact absurd hnil (by simp)
    | some found =>
      -- The decision falls before the empty target is dropped, so scanning is never asked.
      have hfound := resolveTree_of_nodeAt?_eq_some htrigger hnode
      have hne : (r.resolveTree id t trigger).2 ≠ .ok none := by
        rcases hfound with ⟨fault, hfault, -⟩ | ⟨b, hb, -⟩
        · simp [hfault]
        · simp [hb]
      have hauto := answerWith_auto_of_ne_none r id htrigger hne
      have hempty : r.answerWith .auto id t cursor = .ok none ↔
          found.node.info.start = found.node.info.stop := by
        rw [hauto, answerWith_tree r id htrigger]
        rcases hfound with ⟨fault, hfault, hne⟩ | ⟨b, hb, hspan⟩
        · simp [hfault, dropEmpty, Except.map, hne]
        · simp [hb, dropEmpty, Except.map, Span.isEmpty, hspan]
      refine ⟨fun b hb => hauto.trans hb, ?_, by simp, fun b hnil _ => ?_⟩
      · intro found' hfound'
        obtain rfl := Option.some.inj hfound'
        exact ⟨hauto, hempty⟩
      · exact ⟨found, rfl, hempty.1 hnil⟩

/-! ## A node that covers nothing

In `(a if 1jelse)` an operand is missing behind `else`. A parser that recovers from this puts an
identifier of no width there, right where the dot of `(a if 1jelse.)` stands. Scanning takes the
characters before that dot for a name. -/

/-- The identifier of no width. -/
def gapName : Node :=
  .onFirstRow "identifier" true none 12 12 []

def gapConditional : Node :=
  .onFirstRow "conditional_expression" true none 1 12
    [.onFirstRow "identifier" true none 1 2 [], .onFirstRow "if" false none 3 5 [],
     .onFirstRow "integer" true none 6 8 [], .onFirstRow "else" false none 8 12 [], gapName]

def gapGroup : Node :=
  .onFirstRow "parenthesized_expression" true none 0 13
    [.onFirstRow "(" false none 0 1 [], gapConditional, .onFirstRow ")" false none 12 13 []]

/-- The syntax tree of `(a if 1jelse)`. -/
def gapTree : SyntaxTree where
  root := .onFirstRow "module" true none 0 13 [gapGroup]
  hasError := true
  length := 13

/-- A resolver whose parser knows that text. -/
def gapResolver : Resolver where
  cache.engine := some ⟨"python", fun t =>
    if t = "(a if 1jelse)".toList then some gapTree else none⟩

/-- The node found at the dot is the identifier of no width. -/
theorem locate_gapTree :
    locate .heuristic gapTree.root ⟨0, 12⟩ = some ⟨gapName, some "conditional_expression"⟩ := by
  rw [locate_eq_findSome?]
  rfl

theorem triggerAt?_gap : triggerAt? "(a if 1jelse.)".toList ⟨0, 13⟩ =
    some ⟨⟨0, 12⟩, ⟨⟨0, 13⟩, ⟨0, 13⟩⟩⟩ := by
  decide

theorem withoutTrigger_gap :
    withoutTrigger "(a if 1jelse.)".toList ⟨⟨0, 12⟩, ⟨⟨0, 13⟩, ⟨0, 13⟩⟩⟩ =
      some "(a if 1jelse)".toList := by
  decide

theorem resolveTree_gapResolver :
    (gapResolver.resolveTree "doc" "(a if 1jelse.)".toList ⟨⟨0, 12⟩, ⟨⟨0, 13⟩, ⟨0, 13⟩⟩⟩).2 =
      .ok (some ⟨⟨⟨0, 12⟩, ⟨0, 12⟩⟩, some ⟨"identifier", some .identifier,
        ⟨⟨0, 12⟩, ⟨0, 12⟩⟩, some "conditional_expression"⟩, .tree⟩) := by
  simp only [resolveTree, withoutTrigger_gap]
  show boundaryInTree .heuristic gapTree ⟨0, 12⟩ = _
  rw [boundaryInTree, locate_gapTree]
  rfl

theorem answerWith_auto_gapResolver :
    gapResolver.nodeAt? "doc" "(a if 1jelse.)".toList ⟨0, 13⟩ =
      some ⟨gapName, some "conditional_expression"⟩ ∧
    gapResolver.answerWith .auto "doc" "(a if 1jelse.)".toList ⟨0, 13⟩ = .ok none := by
  have hnode : gapResolver.nodeAt? "doc" "(a if 1jelse.)".toList ⟨0, 13⟩ =
      some ⟨gapName, some "conditional_expression"⟩ := by
    simp only [nodeAt?, triggerAt?_gap, withoutTrigger_gap, bind, Option.bind_some]
    exact locate_gapTree
  have hauto := (answerWith_auto gapResolver rfl "doc" "(a if 1jelse.)".toList ⟨0, 13⟩).2.1
  exact ⟨hnode, (hauto _ hnode).2.2 rfl⟩

/-- **The strategies do not simply fall back on each other**: here neither the tree nor `auto` has
a target, although scanning finds one. -/
theorem auto_misses_target_of_empty_node :
    gapResolver.cache.isInitialized = true ∧
    gapResolver.answerWith .tree "doc" "(a if 1jelse.)".toList ⟨0, 13⟩ = .ok none ∧
    gapResolver.answerWith .auto "doc" "(a if 1jelse.)".toList ⟨0, 13⟩ = .ok none ∧
    gapResolver.answerWith .lexical "doc" "(a if 1jelse.)".toList ⟨0, 13⟩ =
      .ok (some ⟨⟨⟨0, 6⟩, ⟨0, 12⟩⟩, none, .lexical⟩) := by
  have htree : gapResolver.answerWith .tree "doc" "(a if 1jelse.)".toList ⟨0, 13⟩ = .ok none := by
    rw [answerWith_tree _ _ triggerAt?_gap, resolveTree_gapResolver]
    rfl
  have hne : (gapResolver.resolveTree "doc" "(a if 1jelse.)".toList
      ⟨⟨0, 12⟩, ⟨⟨0, 13⟩, ⟨0, 13⟩⟩⟩).2 ≠ .ok none := by
    rw [resolveTree_gapResolver]
    simp
  refine ⟨rfl, htree, ?_, ?_⟩
  · rw [answerWith_auto_of_ne_none _ _ triggerAt?_gap hne, htree]
  · rw [answerWith_lexical _ _ triggerAt?_gap]
    rfl

end Resolver

end DotTarget
