import DotTarget.Proofs.Completion.TriggerText
import DotTarget.Proofs.Session.CacheHistory
import DotTarget.Proofs.Session.Strategies

set_option autoImplicit false

/-! # What resolving changes, and when it fails

To the cache, resolving is a parse of the text without the trigger or nothing at all: nothing when
there is no trigger or the strategy is to scan only (`resolve_fst_of_parse`, `resolve_fst_of_stay`).
A parse fails for want of a grammar and for no other reason, and neither the search in the tree nor
the scan can fail that way. So the one error of resolving is that no grammar is loaded, and its
effect is confined to the tree of the one document (`resolve_errors_and_frame`).

The text without the trigger can always be had, since a trigger found on a row is a dot and a word
of the whole text. -/

namespace DotTarget

namespace Cache

/-- Two caches have the same grammar, and the same trees but for one document. -/
structure SameBut (id : String) (cache after : Cache) : Prop where
  engine_eq : after.engine = cache.engine
  get?_eq : ∀ other, other ≠ id → after.get? other = cache.get? other

theorem SameBut.refl (id : String) (cache : Cache) : SameBut id cache cache :=
  ⟨rfl, fun _ _ => rfl⟩

/-- A parse touches its own document only. -/
theorem sameBut_perform_parse (cache : Cache) (id : String) (t : Text) :
    SameBut id cache (cache.perform (.parse id t)).1 := by
  cases htree : cache.engine.bind (·.parser t) with
  | none =>
    rw [perform_parse_of_none htree]
    exact SameBut.refl id cache
  | some tree =>
    refine ⟨by rw [perform_parse_of_some htree], ?_⟩
    intro other hother
    rw [get?_perform_parse htree, if_neg hother]

/-- A parse fails exactly when no grammar is loaded. -/
theorem parse_eq_error_iff {cache : Cache} {id : String} {t : Text} {error : EngineError} :
    cache.parse id t = .error error ↔ error = .uninitialized ∧ cache.engine = none := by
  cases hengine : cache.engine with
  | none => simp [parse, hengine, eq_comm]
  | some engine =>
    have hinit : cache.isInitialized = true := by simp [isInitialized, hengine]
    obtain ⟨after, hparse⟩ := parse_eq_ok hinit id t
    simp [hparse]

end Cache

namespace Resolver

/-- The text without the trigger can be had whenever there is a trigger. -/
theorem exists_withoutTrigger {t : Text} {cursor : Position} {trigger : Trigger}
    (h : triggerAt? t cursor = some trigger) :
    ∃ front word after, t = front ++ '.' :: (word ++ after) ∧
      trigger.dot = Position.origin.advance front ∧
      trigger.word.stop = Position.origin.advance (front ++ '.' :: word) ∧
      withoutTrigger t trigger = some (front ++ after) := by
  obtain ⟨front, word, after, rfl, hdot, hstop⟩ := triggerAt?_eq_some h
  exact ⟨front, word, after, rfl, hdot, hstop, withoutTrigger_eq_some hdot hstop⟩

/-! ## Errors -/

theorem boundaryInTree_ne_engine (pruning : Pruning) (tree : SyntaxTree) (target : Position)
    (error : EngineError) : boundaryInTree pruning tree target ≠ .error (.engine error) := by
  unfold boundaryInTree
  split
  · simp
  · split <;> simp

/-- The search in a tree breaks off only at a node whose bounds are reversed. -/
theorem boundaryInTree_eq_fault {pruning : Pruning} {tree : SyntaxTree} {target : Position}
    {fault : Fault} (h : boundaryInTree pruning tree target = .error (.fault fault)) :
    ∃ found, locate pruning tree.root target = some found ∧
      found.node.info.stop < found.node.info.start := by
  unfold boundaryInTree at h
  split at h
  · simp at h
  · rename_i found hfound
    refine ⟨found, hfound, ?_⟩
    rw [Position.lt_iff_not_le]
    intro hle
    simp [Located.summary, Span.ordered_of_le hle, bind, Except.bind, pure, Except.pure] at h

/-- Scanning always has an answer. -/
theorem resolveLexical_eq_ok (config : Config) (lines : List Text) (trigger : Trigger) :
    ∃ b, resolveLexical config lines trigger = .ok (some b) := by
  obtain ⟨outcome, hscan, -⟩ :=
    scan_eq_ok lines ⟨trigger.dot.row, trigger.dot.column + 1⟩ config.maxIterations
  exact ⟨⟨outcome.span, none, .lexical⟩, by rw [resolveLexical, hscan]⟩

theorem dropEmpty_eq_error_iff {answer : Except ResolveError (Option Boundary)}
    {error : ResolveError} : dropEmpty answer = .error error ↔ answer = .error error := by
  cases answer <;> simp [dropEmpty, Except.map]

section Trigger

variable (r : Resolver) (id : String) {t stripped : Text} {cursor : Position} {trigger : Trigger}
  {error : EngineError}

/-- Looking in the tree fails when the parse does. -/
theorem resolveTree_eq_engine_iff (hstripped : withoutTrigger t trigger = some stripped) :
    (r.resolveTree id t trigger).2 = .error (.engine error) ↔
      r.cache.parse id stripped = .error error := by
  cases hparse : r.cache.parse id stripped with
  | error e => simp [resolveTree, hstripped, hparse]
  | ok cache =>
    refine iff_of_false ?_ (by simp)
    simp only [resolveTree, hstripped, hparse]
    split
    · simp
    · exact boundaryInTree_ne_engine _ _ _ _

/-- A fault in the tree's answer comes from the node at the trigger. -/
theorem resolveTree_eq_fault {fault : Fault} (htrigger : triggerAt? t cursor = some trigger)
    (h : (r.resolveTree id t trigger).2 = .error (.fault fault)) :
    ∃ found, r.nodeAt? id t cursor = some found ∧
      found.node.info.stop < found.node.info.start := by
  unfold resolveTree at h
  split at h
  · simp at h
  · rename_i stripped hstripped
    split at h
    · simp at h
    · rename_i cache hparse
      dsimp only at h
      split at h
      · simp at h
      · rename_i cached hcached
        obtain ⟨found, hfound, hlt⟩ := boundaryInTree_eq_fault h
        refine ⟨found, ?_, hlt⟩
        simp only [nodeAt?, htrigger, hstripped, hparse, hcached, hfound, bind, Option.bind_some,
          Except.toOption]

/-- Whatever goes wrong goes wrong in the tree. -/
theorem resolveTrigger_eq_error_iff {error : ResolveError} :
    (r.resolveTrigger id t trigger).2 = .error error ↔
      r.config.strategy ≠ .lexical ∧ (r.resolveTree id t trigger).2 = .error error := by
  obtain ⟨b, hlexical⟩ := resolveLexical_eq_ok r.config (Text.lines t) trigger
  unfold resolveTrigger
  cases r.config.strategy with
  | tree => simp
  | lexical => simp [hlexical]
  | auto =>
    dsimp only
    split
    · rename_i r' hanswer
      simp [hanswer, hlexical]
    · simp

/-- Resolving goes wrong where looking in the tree does. -/
theorem resolve_eq_error_iff {error : ResolveError}
    (htrigger : triggerAt? t cursor = some trigger) :
    (r.resolve id t cursor).2 = .error error ↔
      r.config.strategy ≠ .lexical ∧ (r.resolveTree id t trigger).2 = .error error := by
  rw [resolve_of_triggerAt? r id htrigger, dropEmpty_eq_error_iff, resolveTrigger_eq_error_iff]

/-! ## The state afterwards -/

theorem resolveTree_fst (hstripped : withoutTrigger t trigger = some stripped) :
    (r.resolveTree id t trigger).1 =
      { r with cache := (r.cache.perform (.parse id stripped)).1 } := by
  cases hparse : r.cache.parse id stripped with
  | error e => simp only [resolveTree, hstripped, Cache.perform_parse, hparse, Cache.orKeep]
  | ok cache => simp only [resolveTree, hstripped, Cache.perform_parse, hparse, Cache.orKeep]

theorem resolveTrigger_fst (hstrategy : r.config.strategy ≠ .lexical) :
    (r.resolveTrigger id t trigger).1 = (r.resolveTree id t trigger).1 := by
  unfold resolveTrigger
  split
  · rfl
  · rename_i hlexical
    exact absurd hlexical hstrategy
  · split
    · rename_i r' hanswer
      rw [hanswer]
    · rfl

/-- Where the tree is asked, resolving parses the text without the trigger. -/
theorem resolve_fst_of_parse (htrigger : triggerAt? t cursor = some trigger)
    (hstrategy : r.config.strategy ≠ .lexical)
    (hstripped : withoutTrigger t trigger = some stripped) :
    (r.resolve id t cursor).1 =
      { r with cache := (r.cache.perform (.parse id stripped)).1 } := by
  rw [← resolveTree_fst r id hstripped, ← resolveTrigger_fst r id hstrategy, resolve, htrigger]

/-- The document is left with the tree of the text without the trigger, and no edits. -/
theorem get?_resolve_of_tree {engine : Engine} {tree : SyntaxTree}
    (htrigger : triggerAt? t cursor = some trigger) (hstrategy : r.config.strategy ≠ .lexical)
    (hstripped : withoutTrigger t trigger = some stripped)
    (hengine : r.cache.engine = some engine) (htree : engine.parser stripped = some tree) :
    (r.resolve id t cursor).1.cache.get? id = some { tree } := by
  have hbind : r.cache.engine.bind (·.parser stripped) = some tree := by
    rw [hengine, Option.bind_some, htree]
  rw [resolve_fst_of_parse r id htrigger hstrategy hstripped]
  show (r.cache.perform (.parse id stripped)).1.get? id = some { tree }
  rw [Cache.get?_perform_parse hbind, if_pos rfl]

end Trigger

/-- Without a trigger, and where only the text is scanned, resolving changes nothing. -/
theorem resolve_fst_of_stay (r : Resolver) (id : String) {t : Text} {cursor : Position}
    (h : triggerAt? t cursor = none ∨ r.config.strategy = .lexical) :
    (r.resolve id t cursor).1 = r := by
  unfold resolve
  split
  · rfl
  · rename_i trigger htrigger
    have hstrategy := h.resolve_left (by simp [htrigger])
    simp only [resolveTrigger, hstrategy]

/-- Resolving does to the cache what some parse of its document does, or nothing. -/
theorem resolve_fst_cases (r : Resolver) (id : String) (t : Text) (cursor : Position) :
    (r.resolve id t cursor).1 = r ∨
      ∃ stripped, (r.resolve id t cursor).1 =
        { r with cache := (r.cache.perform (.parse id stripped)).1 } := by
  by_cases hstay : triggerAt? t cursor = none ∨ r.config.strategy = .lexical
  · exact .inl (resolve_fst_of_stay r id hstay)
  · obtain ⟨htrigger, hstrategy⟩ := not_or.1 hstay
    obtain ⟨trigger, htrigger⟩ := Option.ne_none_iff_exists'.1 htrigger
    obtain ⟨front, word, after, -, -, -, hstripped⟩ := exists_withoutTrigger htrigger
    exact .inr ⟨_, resolve_fst_of_parse r id htrigger hstrategy hstripped⟩

theorem config_resolve (r : Resolver) (id : String) (t : Text) (cursor : Position) :
    (r.resolve id t cursor).1.config = r.config := by
  rcases resolve_fst_cases r id t cursor with hsame | ⟨stripped, hparse⟩
  · rw [hsame]
  · rw [hparse]

/-- Resolving touches its own document only. -/
theorem sameBut_resolve (r : Resolver) (id : String) (t : Text) (cursor : Position) :
    Cache.SameBut id r.cache (r.resolve id t cursor).1.cache := by
  rcases resolve_fst_cases r id t cursor with hsame | ⟨stripped, hparse⟩
  · rw [hsame]
    exact Cache.SameBut.refl id r.cache
  · rw [hparse]
    exact r.cache.sameBut_perform_parse id stripped

theorem triggerAt?_eq_some_iff {t : Text} {cursor : Position} {trigger : Trigger} :
    triggerAt? t cursor = some trigger ↔
      ∃ line, (Text.lines t)[cursor.row]? = some line ∧
        Trigger.find? line cursor = some trigger := by
  simp only [triggerAt?, bind, Option.bind_eq_some_iff]

/-- Resolving fails exactly when it needs a grammar and none is loaded. -/
theorem resolve_eq_engine_iff (r : Resolver) (id : String) (t : Text) (cursor : Position)
    (error : EngineError) :
    (r.resolve id t cursor).2 = .error (.engine error) ↔
      error = .uninitialized ∧ r.cache.engine = none ∧ r.config.strategy ≠ .lexical ∧
        ∃ trigger, triggerAt? t cursor = some trigger := by
  cases htrigger : triggerAt? t cursor with
  | none => simp [resolve_of_no_trigger r id htrigger]
  | some trigger =>
    obtain ⟨front, word, after, -, -, -, hstripped⟩ := exists_withoutTrigger htrigger
    rw [resolve_eq_error_iff r id htrigger, resolveTree_eq_engine_iff r id hstripped,
      Cache.parse_eq_error_iff]
    simp only [Option.some.injEq, exists_eq', and_true]
    constructor
    · rintro ⟨hstrategy, herror, hengine⟩
      exact ⟨herror, hengine, hstrategy⟩
    · rintro ⟨herror, hengine, hstrategy⟩
      exact ⟨hstrategy, herror, hengine⟩

/-- Resolving breaks off only at a node whose bounds are reversed. -/
theorem resolve_eq_fault {r : Resolver} {id : String} {t : Text} {cursor : Position} {fault : Fault}
    (h : (r.resolve id t cursor).2 = .error (.fault fault)) :
    ∃ found, r.nodeAt? id t cursor = some found ∧
      found.node.info.stop < found.node.info.start := by
  cases htrigger : triggerAt? t cursor with
  | none =>
    rw [resolve_of_no_trigger r id htrigger] at h
    exact absurd h (by simp)
  | some trigger =>
    obtain ⟨-, htree⟩ := (resolve_eq_error_iff r id htrigger).1 h
    exact resolveTree_eq_fault r id htrigger htree

/-- **Resolving fails only for want of a grammar, and touches only its own document.** It fails
exactly when there is a trigger at the cursor, the tree is to be asked, and no grammar is loaded;
else it has an answer, unless the tree has a node with reversed bounds at the trigger. On failure,
without a trigger, and when only the text is scanned, the cache stays as it is. Otherwise the
grammar and the trees of all other documents stay, and the document gets the tree of the text
without the trigger, if the parser gives one. -/
theorem resolve_errors_and_frame (r : Resolver) (id : String) (t : Text) (cursor : Position) :
    (∀ error, (r.resolve id t cursor).2 = .error (.engine error) ↔
      error = .uninitialized ∧ r.cache.engine = none ∧ r.config.strategy ≠ .lexical ∧
        ∃ line trigger, (Text.lines t)[cursor.row]? = some line ∧
          Trigger.find? line cursor = some trigger) ∧
    (∀ fault, (r.resolve id t cursor).2 = .error (.fault fault) →
      ∃ found, r.nodeAt? id t cursor = some found ∧
        found.node.info.stop < found.node.info.start) ∧
    ((∃ error, (r.resolve id t cursor).2 = .error (.engine error)) ∨ triggerAt? t cursor = none ∨
        r.config.strategy = .lexical →
      (r.resolve id t cursor).1.cache = r.cache) ∧
    Cache.SameBut id r.cache (r.resolve id t cursor).1.cache ∧
    ∀ trigger engine, triggerAt? t cursor = some trigger → r.config.strategy ≠ .lexical →
      r.cache.engine = some engine →
      ∃ front word after, t = front ++ '.' :: (word ++ after) ∧
        trigger.dot = Position.origin.advance front ∧
        trigger.word.stop = Position.origin.advance (front ++ '.' :: word) ∧
        ∀ tree, engine.parser (front ++ after) = some tree →
          (r.resolve id t cursor).1.cache.get? id = some { tree } := by
  refine ⟨?_, fun fault => resolve_eq_fault, ?_, sameBut_resolve r id t cursor, ?_⟩
  · intro error
    rw [resolve_eq_engine_iff]
    simp only [triggerAt?_eq_some_iff]
    rw [exists_comm]
  · rintro (⟨error, herror⟩ | hstay)
    · obtain ⟨-, hengine, -⟩ := (resolve_eq_engine_iff r id t cursor error).1 herror
      rcases resolve_fst_cases r id t cursor with hsame | ⟨stripped, hparse⟩
      · rw [hsame]
      · rw [hparse]
        exact Cache.perform_parse_of_none (by rw [hengine, Option.bind_none])
    · rw [resolve_fst_of_stay r id hstay]
  · intro trigger engine htrigger hstrategy hengine
    obtain ⟨front, word, after, ht, hdot, hstop, hstripped⟩ := exists_withoutTrigger htrigger
    refine ⟨front, word, after, ht, hdot, hstop, ?_⟩
    intro tree htree
    exact get?_resolve_of_tree r id htrigger hstrategy hstripped hengine htree

end Resolver

end DotTarget
