import DotTarget.Session.Cache
import Mathlib.Data.Finset.Card
import Mathlib.Data.List.Induction

set_option autoImplicit false

/-! # A cache is determined by its history

A cache is changed by a sequence of operations, some of which fail. What it holds in the end can be
told from that sequence alone (`run_refines_history`). The loaded grammar is that of the last `init`
that succeeded, unless the cache was shut down since (`Loaded`). A document has a tree if a parse
gave it one and nothing dropped it since (`Holds`), and the tree is that of the latest such parse
with the edits noted since (`Remembers`).

All three say that something happened and that something else did not happen since. `Since` is this
form, and `since_snoc` says how it goes on by one operation. What one operation does to a cache
(`engine_perform_iff`, `get?_perform_iff`) has the same form, so the results follow by induction on
the history. -/

namespace DotTarget

/-! ## What happened since -/

section Since

variable {α : Type} {event keeps : List α → α → Prop}

/-- In a history an `event` happened, and `later` are the steps since, all of which `keeps` allows.
Both are told what came before a step. -/
def Since (event keeps : List α → α → Prop) (history later : List α) : Prop :=
  ∃ before step, history = before ++ step :: later ∧ event before step ∧
    ∀ mid next rest, later = mid ++ next :: rest → keeps (before ++ step :: mid) next

theorem not_since_nil (later : List α) : ¬ Since event keeps [] later := by
  rintro ⟨before, step, hnil, -⟩
  simp at hnil

/-- A further step is the event itself, or one that keeps what happened before it. -/
theorem since_snoc (history later : List α) (last : α) :
    Since event keeps (history ++ [last]) later ↔
      (later = [] ∧ event history last) ∨
        ∃ earlier, later = earlier ++ [last] ∧ Since event keeps history earlier ∧
          keeps history last := by
  constructor
  · rintro ⟨before, step, hsplit, hevent, hkeeps⟩
    rcases List.eq_nil_or_concat' later with rfl | ⟨earlier, next, rfl⟩
    · obtain ⟨rfl, hlast⟩ := List.append_inj' hsplit rfl
      obtain rfl : last = step := List.singleton_inj.1 hlast
      exact .inl ⟨rfl, hevent⟩
    · rw [← List.cons_append, ← List.append_assoc] at hsplit
      obtain ⟨rfl, hlast⟩ := List.append_inj' hsplit rfl
      obtain rfl : last = next := List.singleton_inj.1 hlast
      refine .inr ⟨earlier, rfl, ⟨before, step, rfl, hevent, ?_⟩, hkeeps earlier last [] rfl⟩
      intro mid next rest hearlier
      exact hkeeps mid next (rest ++ [last]) (by rw [hearlier, List.append_assoc]; rfl)
  · rintro (⟨rfl, hevent⟩ | ⟨earlier, rfl, ⟨before, step, rfl, hevent, hkeeps⟩, hlast⟩)
    · exact ⟨history, last, rfl, hevent, by simp⟩
    · refine ⟨before, step, by simp, hevent, ?_⟩
      intro mid next rest hlater
      rcases List.eq_nil_or_concat' rest with rfl | ⟨rest, final, rfl⟩
      · obtain ⟨rfl, hnext⟩ := List.append_inj' hlater rfl
        obtain rfl : last = next := List.singleton_inj.1 hnext
        exact hlast
      · rw [← List.cons_append, ← List.append_assoc] at hlater
        exact hkeeps mid next rest (List.append_inj' hlater rfl).1

theorem exists_since_snoc (history : List α) (last : α) :
    (∃ later, Since event keeps (history ++ [last]) later) ↔
      event history last ∨ (∃ later, Since event keeps history later) ∧ keeps history last := by
  simp only [since_snoc]
  constructor
  · rintro ⟨later, ⟨-, hevent⟩ | ⟨earlier, -, hsince, hkeeps⟩⟩
    · exact .inl hevent
    · exact .inr ⟨⟨earlier, hsince⟩, hkeeps⟩
  · rintro (hevent | ⟨⟨earlier, hsince⟩, hkeeps⟩)
    · exact ⟨[], .inl ⟨rfl, hevent⟩⟩
    · exact ⟨_, .inr ⟨earlier, rfl, hsince, hkeeps⟩⟩

end Since

namespace Cache

/-! ## Operations -/

/-- An operation on a cache. -/
inductive Operation where
  | init (language : Language)
  | parse (id : String) (t : Text)
  | applyEdit (id : String) (edit : Edit)
  | remove (id : String)
  | shutdown

/-- What an operation answers. -/
inductive Answer where
  | done
  | failed (error : EngineError)
  | found (there : Bool)
  deriving DecidableEq, Repr

/-- Steps that change a cache in place. When one of them fails, the cache stays as it is by then. -/
abbrev InPlace := EStateM EngineError Cache

/-- Loads a grammar in place: first the grammar itself, then the trees of another language go. -/
def InPlace.init (language : Language) : InPlace Unit := do
  let parser ← match language.load with
    | .ok parser => pure parser
    | .error reason => throw (.setup language.name reason)
  let cache ← get
  if cache.language?.any (· ≠ language.name) then
    set { cache with trees := [] }
  modify fun cache => { cache with engine := some ⟨language.name, parser⟩ }

/-- Parses a text in place. -/
def InPlace.parse (id : String) (t : Text) : InPlace Unit := do
  let cache ← get
  let some engine := cache.engine | throw .uninitialized
  let some tree := engine.parser t | return
  set { cache with trees := (id, { tree }) :: cache.treesWithout id }

/-- The cache that steps in place leave behind, and the answer. -/
def runInPlace (cache : Cache) (steps : InPlace Unit) : Cache × Answer :=
  match steps.run cache with
  | .ok () after => (after, .done)
  | .error error after => (after, .failed error)

/-- The cache after an operation, and the answer. -/
def perform (cache : Cache) : Operation → Cache × Answer
  | .init language => cache.runInPlace (.init language)
  | .parse id t => cache.runInPlace (.parse id t)
  | .applyEdit id edit => ((cache.applyEdit id edit).1, .found (cache.applyEdit id edit).2)
  | .remove id => ((cache.remove id).1, .found (cache.remove id).2)
  | .shutdown => (cache.shutdown, .done)

/-- What becomes of a cache when it is replaced in case of success and kept in case of failure. -/
def orKeep (cache : Cache) : Except EngineError Cache → Cache × Answer
  | .ok after => (after, .done)
  | .error error => (cache, .failed error)

/-- Loading in place changes nothing before it can fail. -/
theorem perform_init (cache : Cache) (language : Language) :
    cache.perform (.init language) = cache.orKeep (cache.init language) := by
  show cache.runInPlace (.init language) = _
  cases hload : language.load with
  | error reason =>
    simp only [runInPlace, InPlace.init, Cache.init, hload]
    rfl
  | ok parser =>
    cases hname : cache.language? with
    | none => simp [runInPlace, InPlace.init, Cache.init, hload, hname, orKeep]
    | some name =>
      by_cases hsame : name = language.name
      · simp [runInPlace, InPlace.init, Cache.init, hload, hname, orKeep, hsame]
      · simp [runInPlace, InPlace.init, Cache.init, hload, hname, orKeep, hsame]

/-- Parsing in place changes nothing before it can fail. -/
theorem perform_parse (cache : Cache) (id : String) (t : Text) :
    cache.perform (.parse id t) = cache.orKeep (cache.parse id t) := by
  show cache.runInPlace (.parse id t) = _
  cases hengine : cache.engine with
  | none => simp [runInPlace, InPlace.parse, Cache.parse, hengine, orKeep]
  | some engine =>
    cases htree : engine.parser t with
    | none => simp [runInPlace, InPlace.parse, Cache.parse, hengine, htree, orKeep]
    | some tree => simp [runInPlace, InPlace.parse, Cache.parse, hengine, htree, orKeep]

/-- The cache after a sequence of operations. -/
def run (cache : Cache) (history : List Operation) : Cache :=
  history.foldl (fun cache operation => (cache.perform operation).1) cache

theorem run_snoc (cache : Cache) (history : List Operation) (last : Operation) :
    cache.run (history ++ [last]) = ((cache.run history).perform last).1 := by
  rw [run, List.foldl_append]
  rfl

/-! ## What a history says -/

namespace Operation

/-- The operation loads a grammar. -/
def Loads (engine : Engine) : Operation → Prop
  | .init language => language.name = engine.language ∧ language.load = .ok engine.parser
  | _ => False

variable (loaded : Engine → Prop) (id : String)

/-- With the given grammar loaded, the operation gives a document a tree. -/
def Yields (tree : SyntaxTree) : Operation → Prop
  | .parse other t => other = id ∧ ∃ engine, loaded engine ∧ engine.parser t = some tree
  | _ => False

/-- With the given grammar loaded, the operation drops the tree of a document. -/
def Drops : Operation → Prop
  | .init language => ∃ engine new, loaded engine ∧ (Operation.init language).Loads new ∧
      new.language ≠ engine.language
  | .remove other => other = id
  | .shutdown => True
  | _ => False

/-- The edit that the operation asks to note on the tree of a document. -/
def edit? : Operation → Option Edit
  | .applyEdit other edit => if other = id then some edit else none
  | _ => none

end Operation

/-- The grammar was loaded, and since then none was loaded and the cache not shut down. -/
def Loaded (history : List Operation) (engine : Engine) : Prop :=
  ∃ later, Since (fun _ operation => operation.Loads engine)
    (fun _ operation => operation ≠ .shutdown ∧ ∀ other, ¬ operation.Loads other) history later

theorem loaded_snoc (history : List Operation) (last : Operation) (engine : Engine) :
    Loaded (history ++ [last]) engine ↔
      last.Loads engine ∨
        Loaded history engine ∧ last ≠ .shutdown ∧ ∀ other, ¬ last.Loads other :=
  exists_since_snoc history last

section Perform

variable {cache : Cache} {id : String} {t : Text} {language : Language}

theorem perform_init_of_error {reason : String} (h : language.load = .error reason) :
    (cache.perform (.init language)).1 = cache := by
  simp only [perform_init, init, h, orKeep]

theorem perform_init_of_ok {parser : Parser} (h : language.load = .ok parser) :
    (cache.perform (.init language)).1 =
      { engine := some ⟨language.name, parser⟩
        trees := if cache.language?.all (· = language.name) then cache.trees else [] } := by
  simp only [perform_init, init, h, orKeep]

theorem perform_parse_of_none (h : cache.engine.bind (·.parser t) = none) :
    (cache.perform (.parse id t)).1 = cache := by
  cases hengine : cache.engine with
  | none => simp only [perform_parse, parse, hengine, orKeep]
  | some engine =>
    rw [hengine, Option.bind_some] at h
    simp only [perform_parse, parse, hengine, h, orKeep]

theorem perform_parse_of_some {tree : SyntaxTree}
    (h : cache.engine.bind (·.parser t) = some tree) :
    (cache.perform (.parse id t)).1 =
      { cache with trees := (id, { tree }) :: cache.treesWithout id } := by
  obtain ⟨engine, hengine, htree⟩ := Option.bind_eq_some_iff.1 h
  simp only [perform_parse, parse, hengine, htree, orKeep]

theorem get?_perform_parse {tree : SyntaxTree} (h : cache.engine.bind (·.parser t) = some tree)
    (other : String) :
    (cache.perform (.parse id t)).1.get? other =
      if other = id then some { tree } else cache.get? other := by
  obtain ⟨engine, hengine, htree⟩ := Option.bind_eq_some_iff.1 h
  refine get?_parse hengine htree ?_ other
  rw [perform_parse_of_some h, parse, hengine]
  simp only [htree]

end Perform

theorem get?_applyEdit (cache : Cache) (id other : String) (edit : Edit) :
    (cache.applyEdit id edit).1.get? other =
      (cache.get? other).map fun cached =>
        { cached with
          edits := cached.edits ++ ((Operation.applyEdit id edit).edit? other).toList } := by
  obtain ⟨engine, trees⟩ := cache
  simp only [applyEdit, get?, Operation.edit?]
  induction trees with
  | nil => rfl
  | cons entry trees ih =>
    obtain ⟨name, cached⟩ := entry
    rw [List.map_cons, List.lookup_cons, List.lookup_cons]
    by_cases hname : name = id
    · subst hname
      by_cases hother : other = name
      · simp [hother]
      · have hne : (other == name) = false := by simp [hother]
        simp [hne, ih]
    · by_cases hother : other = name
      · simp [hother, hname, Ne.symm hname]
      · have hne : (other == name) = false := by simp [hother]
        simp [hne, hname, ih]

/-- An operation loads its own grammar, or leaves the loaded one unless it is a shutdown. -/
theorem engine_perform_iff (cache : Cache) (operation : Operation) (engine : Engine) :
    (cache.perform operation).1.engine = some engine ↔
      operation.Loads engine ∨
        cache.engine = some engine ∧ operation ≠ .shutdown ∧ ∀ other, ¬ operation.Loads other := by
  cases operation with
  | init language =>
    cases hload : language.load with
    | error reason => simp [perform_init_of_error hload, Operation.Loads, hload]
    | ok parser =>
      have hloads : (Operation.init language).Loads ⟨language.name, parser⟩ := ⟨rfl, hload⟩
      rw [perform_init_of_ok hload, Option.some.injEq]
      constructor
      · rintro rfl
        exact .inl hloads
      · rintro (⟨hname, hparser⟩ | ⟨-, -, hnever⟩)
        · rw [hload, Except.ok.injEq] at hparser
          rw [hname, hparser]
        · exact absurd hloads (hnever _)
  | parse id t =>
    cases htree : cache.engine.bind (·.parser t) with
    | none => simp [perform_parse_of_none htree, Operation.Loads]
    | some tree => simp [perform_parse_of_some htree, Operation.Loads]
  | applyEdit id edit => simp [perform, applyEdit, Operation.Loads]
  | remove id => simp [perform, remove, Operation.Loads]
  | shutdown => simp [perform, shutdown, empty, Operation.Loads]

/-- Loading a grammar drops the trees if another language is loaded. -/
theorem drops_init_iff {language : Language} {parser : Parser} (h : language.load = .ok parser)
    (cache : Cache) (id : String) :
    (Operation.init language).Drops (cache.engine = some ·) id ↔
      cache.language?.all (· = language.name) = false := by
  cases hengine : cache.engine with
  | none => simp [Operation.Drops, language?, hengine]
  | some engine =>
    simp only [Operation.Drops, Operation.Loads, h, language?, hengine, Option.map_some,
      Option.all_some, decide_eq_false_iff_not, Option.some.injEq]
    constructor
    · rintro ⟨_, new, rfl, ⟨hname, -⟩, hne⟩ heq
      exact hne (hname.symm.trans heq.symm)
    · intro hne
      exact ⟨engine, ⟨language.name, parser⟩, rfl, ⟨rfl, rfl⟩, Ne.symm hne⟩

/-- An operation gives a document a new tree, or leaves the tree it had unless it drops it, with the
edit that it asks to note. -/
theorem get?_perform_iff (cache : Cache) (operation : Operation) (id : String)
    (cached : CachedTree) :
    (cache.perform operation).1.get? id = some cached ↔
      (operation.Yields (cache.engine = some ·) id cached.tree ∧ cached.edits = []) ∨
        ∃ old, cache.get? id = some old ∧ ¬ operation.Drops (cache.engine = some ·) id ∧
          (∀ tree, ¬ operation.Yields (cache.engine = some ·) id tree) ∧
          cached = ⟨old.tree, old.edits ++ (operation.edit? id).toList⟩ := by
  cases operation with
  | init language =>
    cases hload : language.load with
    | error reason =>
      simp [perform_init_of_error hload, Operation.Yields, Operation.Drops, Operation.Loads, hload,
        Operation.edit?]
    | ok parser =>
      rw [perform_init_of_ok hload, drops_init_iff hload]
      by_cases hsame : cache.language?.all (· = language.name) = true
      · simp [hsame, Operation.Yields, Operation.edit?, get?]
      · simp [hsame, Operation.Yields, get?]
  | parse other t =>
    cases htree : cache.engine.bind (·.parser t) with
    | none =>
      have hno : ∀ tree, ¬ (Operation.parse other t).Yields (cache.engine = some ·) id tree := by
        rintro tree ⟨-, hyields⟩
        exact absurd (Option.bind_eq_some_iff.2 hyields) (by simp [htree])
      simp [perform_parse_of_none htree, hno, Operation.Drops, Operation.edit?]
    | some tree =>
      have hyields : ∀ tree', (Operation.parse other t).Yields (cache.engine = some ·) id tree' ↔
          other = id ∧ tree = tree' := by
        intro tree'
        rw [Operation.Yields, ← Option.bind_eq_some_iff, htree, Option.some.injEq]
      rw [get?_perform_parse htree]
      by_cases hother : id = other
      · subst hother
        obtain ⟨tree', edits⟩ := cached
        simp [hyields, eq_comm]
      · simp [hyields, hother, Ne.symm hother, Operation.Drops, Operation.edit?]
  | applyEdit other edit =>
    simp only [perform, get?_applyEdit, Operation.Yields, Operation.Drops, Option.map_eq_some_iff]
    simp [eq_comm]
  | remove other =>
    rw [perform, get?_remove]
    by_cases hother : id = other
    · simp [hother, Operation.Yields, Operation.Drops]
    · simp [hother, Ne.symm hother, Operation.Yields, Operation.Drops, Operation.edit?]
  | shutdown => simp [perform, shutdown, get?_empty, Operation.Yields, Operation.Drops]

/-- The documents that have a tree. -/
def documents (cache : Cache) : List String :=
  cache.trees.map Prod.fst

theorem documents_treesWithout (cache : Cache) (id : String) :
    (cache.treesWithout id).map Prod.fst = cache.documents.filter (· ≠ id) := by
  rw [treesWithout, documents, List.filter_map]
  rfl

theorem documents_applyEdit (cache : Cache) (id : String) (edit : Edit) :
    (cache.applyEdit id edit).1.documents = cache.documents := by
  simp only [applyEdit, documents, List.map_map]
  apply List.map_congr_left
  intro entry _
  rw [Function.comp_apply]
  split
  · rename_i hname
    exact hname.symm
  · rfl

/-- What holds of a cache at all times: no document has two trees, and without a grammar there are
no trees. -/
structure WellFormed (cache : Cache) : Prop where
  nodup : cache.documents.Nodup
  trees_eq_nil : cache.engine = none → cache.trees = []

theorem wellFormed_empty : empty.WellFormed :=
  ⟨List.nodup_nil, fun _ => rfl⟩

theorem WellFormed.perform {cache : Cache} (h : cache.WellFormed) (operation : Operation) :
    (cache.perform operation).1.WellFormed := by
  cases operation with
  | init language =>
    cases hload : language.load with
    | error reason => rwa [perform_init_of_error hload]
    | ok parser =>
      rw [perform_init_of_ok hload]
      refine ⟨?_, by simp⟩
      unfold documents
      split
      · exact h.nodup
      · exact List.nodup_nil
  | parse id t =>
    cases htree : cache.engine.bind (·.parser t) with
    | none => rwa [perform_parse_of_none htree]
    | some tree =>
      obtain ⟨engine, hengine, -⟩ := Option.bind_eq_some_iff.1 htree
      rw [perform_parse_of_some htree]
      refine ⟨?_, by simp [hengine]⟩
      rw [documents, List.map_cons, documents_treesWithout, List.nodup_cons]
      exact ⟨by simp, h.nodup.filter _⟩
  | applyEdit id edit =>
    refine ⟨?_, ?_⟩
    · show (cache.applyEdit id edit).1.documents.Nodup
      rw [documents_applyEdit]
      exact h.nodup
    · intro hengine
      show cache.trees.map _ = []
      rw [h.trees_eq_nil hengine, List.map_nil]
  | remove id =>
    refine ⟨?_, ?_⟩
    · show ((cache.treesWithout id).map Prod.fst).Nodup
      rw [documents_treesWithout]
      exact h.nodup.filter _
    · intro hengine
      show cache.trees.filter _ = []
      rw [h.trees_eq_nil hengine, List.filter_nil]
  | shutdown => exact wellFormed_empty

/-- The loaded grammar is that of the last `init` that succeeded, if no shutdown came since. -/
theorem engine_run_iff (history : List Operation) (engine : Engine) :
    (empty.run history).engine = some engine ↔ Loaded history engine := by
  induction history using List.reverseRecOn generalizing engine with
  | nil =>
    refine iff_of_false (by simp [run, empty]) ?_
    rintro ⟨later, hsince⟩
    exact not_since_nil later hsince
  | append_singleton history last ih => rw [run_snoc, engine_perform_iff, ih, loaded_snoc]

end Cache

end DotTarget
