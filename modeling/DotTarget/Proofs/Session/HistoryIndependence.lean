import DotTarget.Proofs.Session.ResolveFrame

set_option autoImplicit false

/-! # Answers do not depend on the past

A resolver reads its answer back from a cache that earlier calls have filled and edited. Still, as
long as the parser gives a tree for the text without the trigger, the answer is that of a resolver
that has just been made (`resolve_independent_of_past`). A parser that never gives a tree leaves
nothing to search in, whatever happened before.

To the cache a session with a resolver is a history of operations (`session_eq`), so what is known
of histories applies. The one further fact needed is that trees do not outlive their language: every
tree in the cache was given by a parser of the loaded language (`Cache.exists_init_of_get?`). -/

namespace DotTarget

namespace Cache

theorem language?_eq_some_iff (cache : Cache) (name : String) :
    cache.language? = some name ↔
      ∃ engine, cache.engine = some engine ∧ engine.language = name := by
  rw [language?, Option.map_eq_some_iff]

/-- A loaded grammar comes from an `init`. -/
theorem Loaded.exists_init {history : List Operation} {engine : Engine}
    (h : Loaded history engine) :
    ∃ language, Operation.init language ∈ history ∧ language.name = engine.language ∧
      language.load = .ok engine.parser := by
  obtain ⟨later, before, step, rfl, hloads, -⟩ := h
  cases step with
  | init language => exact ⟨language, by simp, hloads⟩
  | parse id t => exact hloads.elim
  | applyEdit id edit => exact hloads.elim
  | remove id => exact hloads.elim
  | shutdown => exact hloads.elim

/-- An operation that leaves the tree of a document leaves the name of the loaded language, too. -/
theorem language?_perform_of_not_drops {cache : Cache} {operation : Operation} {id name : String}
    (hdrops : ¬ operation.Drops (cache.engine = some ·) id) (h : cache.language? = some name) :
    (cache.perform operation).1.language? = some name := by
  obtain ⟨engine, hengine, rfl⟩ := (cache.language?_eq_some_iff name).1 h
  rw [language?_eq_some_iff]
  by_cases hloads : ∃ new, operation.Loads new
  · obtain ⟨new, hloads⟩ := hloads
    refine ⟨new, (engine_perform_iff ..).2 (.inl hloads), ?_⟩
    cases operation with
    | init language =>
      by_contra hne
      exact hdrops ⟨engine, new, hengine, hloads, hne⟩
    | parse other t => exact hloads.elim
    | applyEdit other edit => exact hloads.elim
    | remove other => exact hloads.elim
    | shutdown => exact hloads.elim
  · have hshutdown : operation ≠ .shutdown := by
      rintro rfl
      exact hdrops trivial
    exact ⟨engine, (engine_perform_iff ..).2 (.inr ⟨hengine, hshutdown, not_exists.1 hloads⟩), rfl⟩

/-- **Trees do not outlive their language.** Every tree of a cache was given by the parser of a
language that has the name of the loaded one. -/
theorem exists_init_of_get? {history : List Operation} {id : String} {cached : CachedTree}
    (h : (empty.run history).get? id = some cached) :
    ∃ language parser t, Operation.init language ∈ history ∧ language.load = .ok parser ∧
      parser t = some cached.tree ∧ (empty.run history).language? = some language.name := by
  induction history using List.reverseRecOn generalizing cached with
  | nil => exact absurd h (by simp [run, get?_empty])
  | append_singleton history last ih =>
    rw [run_snoc] at h ⊢
    rcases (get?_perform_iff ..).1 h with ⟨hyields, -⟩ | ⟨old, hold, hdrops, -, rfl⟩
    · cases last with
      | parse other t =>
        obtain ⟨-, engine, hengine, htree⟩ := hyields
        obtain ⟨language, hmem, hname, hload⟩ := ((engine_run_iff ..).1 hengine).exists_init
        have hdrops : ¬ (Operation.parse other t).Drops ((empty.run history).engine = some ·) id :=
          not_false
        exact ⟨language, engine.parser, t, by simp [hmem], hload, htree,
          language?_perform_of_not_drops hdrops
            ((language?_eq_some_iff ..).2 ⟨engine, hengine, hname.symm⟩)⟩
      | init language => exact hyields.elim
      | applyEdit other edit => exact hyields.elim
      | remove other => exact hyields.elim
      | shutdown => exact hyields.elim
    · obtain ⟨language, parser, t, hmem, hload, htree, hname⟩ := ih hold
      exact ⟨language, parser, t, by simp [hmem], hload, htree,
        language?_perform_of_not_drops hdrops hname⟩

end Cache

namespace Resolver

/-! ## Sessions -/

/-- What can be done with a resolver. -/
inductive Action where
  | init (language : Language)
  | shutdown
  | resolve (id : String) (t : Text) (cursor : Position)
  | applyEdit (id : String) (edit : Edit)
  | forget (id : String)

/-- The resolver after an action. A grammar that cannot be loaded changes nothing. -/
def act (r : Resolver) : Action → Resolver
  | .init language =>
    match r.init language with
    | .ok after => after
    | .error _ => r
  | .shutdown => r.shutdown
  | .resolve id t cursor => (r.resolve id t cursor).1
  | .applyEdit id edit => (r.applyEdit id edit).1
  | .forget id => (r.forget id).1

/-- The resolver after a sequence of actions, made anew with a configuration. -/
def session (config : Config) (editor : TreeEditor) (actions : List Action) : Resolver :=
  actions.foldl act { config, editor }

theorem session_snoc (config : Config) (editor : TreeEditor) (actions : List Action)
    (last : Action) :
    session config editor (actions ++ [last]) = (session config editor actions).act last := by
  rw [session, List.foldl_append]
  rfl

/-- To the cache an action is one operation or none, and languages are loaded by `init` only. -/
theorem act_eq (r : Resolver) (action : Action) :
    ∃ operations, r.act action = { r with cache := r.cache.run operations } ∧
      ∀ language, Cache.Operation.init language ∈ operations → action = .init language := by
  cases action with
  | init language =>
    refine ⟨[.init language], ?_, by simp⟩
    show r.act (.init language) = { r with cache := (r.cache.perform (.init language)).1 }
    rw [Cache.perform_init]
    cases hinit : r.cache.init language with
    | error e => simp only [act, Resolver.init, hinit, Cache.orKeep, Except.map]
    | ok cache => simp only [act, Resolver.init, hinit, Cache.orKeep, Except.map]
  | shutdown => exact ⟨[.shutdown], rfl, by simp⟩
  | resolve id t cursor =>
    rcases resolve_fst_cases r id t cursor with hsame | ⟨stripped, hparse⟩
    · exact ⟨[], hsame, by simp⟩
    · exact ⟨[.parse id stripped], hparse, by simp⟩
  | applyEdit id edit => exact ⟨[.applyEdit id edit], rfl, by simp⟩
  | forget id => exact ⟨[.remove id], rfl, by simp⟩

/-- **To the cache a session is a history**, which loads only what the session loads. -/
theorem session_eq (config : Config) (editor : TreeEditor) (actions : List Action) :
    ∃ history, session config editor actions = ⟨config, Cache.empty.run history, editor⟩ ∧
      ∀ language, Cache.Operation.init language ∈ history → Action.init language ∈ actions := by
  induction actions using List.reverseRecOn with
  | nil => exact ⟨[], rfl, by simp⟩
  | append_singleton actions last ih =>
    obtain ⟨history, hsession, hinit⟩ := ih
    obtain ⟨operations, hact, hlast⟩ := act_eq (session config editor actions) last
    refine ⟨history ++ operations, ?_, ?_⟩
    · rw [session_snoc, hact, hsession, Cache.run, Cache.run, Cache.run, List.foldl_append]
    · intro language hmem
      rcases List.mem_append.1 hmem with hmem | hmem
      · exact List.mem_append_left _ (hinit language hmem)
      · rw [hlast language hmem]
        exact List.mem_append_right _ (List.mem_singleton_self _)

/-- A new resolver that loads a grammar has that grammar and no trees. -/
theorem init_new {language : Language} {parser : Parser} (h : language.load = .ok parser)
    (config : Config) (editor : TreeEditor) :
    Resolver.init { config, editor } language =
      .ok { config, cache := { engine := some ⟨language.name, parser⟩ }, editor } := by
  simp only [Resolver.init, Cache.init, h, Except.map]
  rfl

/-! ## What an answer is made from -/

section Answer

variable {r r' : Resolver} {id : String} {t stripped : Text} {cursor : Position}
  {trigger : Trigger}

/-- A tree for the text without the trigger is all that is searched. -/
theorem resolveTree_of_tree {engine : Engine} {tree : SyntaxTree}
    (hstripped : withoutTrigger t trigger = some stripped)
    (hengine : r.cache.engine = some engine) (htree : engine.parser stripped = some tree) :
    (r.resolveTree id t trigger).2 = boundaryInTree r.config.pruning tree trigger.dot := by
  have hinit : r.cache.isInitialized = true := by simp [Cache.isInitialized, hengine]
  obtain ⟨cache, hparse⟩ := Cache.parse_eq_ok hinit id stripped
  have hget := Cache.get?_parse hengine htree hparse id
  rw [if_pos rfl] at hget
  simp only [resolveTree, hstripped, hparse, hget, CachedTree.current_mk_nil]

theorem resolve_eq_answerWith (r : Resolver) (id : String) (t : Text) (cursor : Position) :
    (r.resolve id t cursor).2 = r.answerWith r.config.strategy id t cursor :=
  rfl

/-- Of what the cache holds, only the tree's answer matters. -/
theorem resolve_congr (hconfig : r.config = r'.config)
    (htree : ∀ trigger, triggerAt? t cursor = some trigger →
      (r.resolveTree id t trigger).2 = (r'.resolveTree id t trigger).2) :
    (r.resolve id t cursor).2 = (r'.resolve id t cursor).2 := by
  cases htrigger : triggerAt? t cursor with
  | none => rw [resolve_of_no_trigger r id htrigger, resolve_of_no_trigger r' id htrigger]
  | some trigger =>
    have htree := htree trigger htrigger
    have hsyntax : r.answerWith .tree id t cursor = r'.answerWith .tree id t cursor := by
      rw [answerWith_tree r id htrigger, answerWith_tree r' id htrigger, htree]
    have hlexical : r.answerWith .lexical id t cursor = r'.answerWith .lexical id t cursor := by
      rw [answerWith_lexical r id htrigger, answerWith_lexical r' id htrigger, hconfig]
    rw [resolve_eq_answerWith r, resolve_eq_answerWith r', hconfig]
    cases r'.config.strategy with
    | tree => exact hsyntax
    | lexical => exact hlexical
    | auto =>
      by_cases hnone : (r.resolveTree id t trigger).2 = .ok none
      · rw [answerWith_auto_of_none r id htrigger hnone,
          answerWith_auto_of_none r' id htrigger (htree ▸ hnone), hlexical]
      · rw [answerWith_auto_of_ne_none r id htrigger hnone,
          answerWith_auto_of_ne_none r' id htrigger (htree ▸ hnone), hsyntax]

/-- With the same grammar, and a tree for the text without the trigger, answers are the same. -/
theorem resolve_of_same_engine {engine : Engine} (hconfig : r.config = r'.config)
    (hengine : r.cache.engine = some engine) (hengine' : r'.cache.engine = some engine)
    (htrees : ∀ trigger stripped, triggerAt? t cursor = some trigger →
      withoutTrigger t trigger = some stripped → ∃ tree, engine.parser stripped = some tree) :
    (r.resolve id t cursor).2 = (r'.resolve id t cursor).2 := by
  apply resolve_congr hconfig
  intro trigger htrigger
  obtain ⟨front, word, after, -, -, -, hstripped⟩ := exists_withoutTrigger htrigger
  obtain ⟨tree, htree⟩ := htrees trigger _ htrigger hstripped
  rw [resolveTree_of_tree hstripped hengine htree, resolveTree_of_tree hstripped hengine' htree,
    hconfig]

/-- Without a tree for any document there is no target in the tree. -/
theorem resolveTree_of_no_tree {engine : Engine} (hengine : r.cache.engine = some engine)
    (hno : ∀ text, engine.parser text = none) (hget : r.cache.get? id = none) :
    (r.resolveTree id t trigger).2 = .ok none := by
  cases hstripped : withoutTrigger t trigger with
  | none => simp only [resolveTree, hstripped]
  | some stripped =>
    have hparse : r.cache.parse id stripped = .ok r.cache := by
      simp only [Cache.parse, hengine, hno]
    simp only [resolveTree, hstripped, hparse, hget]

end Answer

/-! ## The past -/

/-- In a session the name of a language stands for one parser. -/
def NamesParser (actions : List Action) (name : String) (parser : Parser) : Prop :=
  ∀ language loaded, Action.init language ∈ actions → language.name = name →
    language.load = .ok loaded → loaded = parser

section Past

variable {config : Config} {editor : TreeEditor} {actions : List Action} {name : String}
  {parser : Parser}

theorem config_session (config : Config) (editor : TreeEditor) (actions : List Action) :
    (session config editor actions).config = config := by
  obtain ⟨history, hsession, -⟩ := session_eq config editor actions
  rw [hsession]

theorem engine_session (hnames : NamesParser actions name parser)
    (hloaded : (session config editor actions).cache.language? = some name) :
    (session config editor actions).cache.engine = some ⟨name, parser⟩ := by
  obtain ⟨history, hsession, hinit⟩ := session_eq config editor actions
  obtain ⟨⟨name', parser'⟩, hengine, rfl⟩ := (Cache.language?_eq_some_iff ..).1 hloaded
  rw [hsession] at hengine
  obtain ⟨language, hmem, hname, hload⟩ := ((Cache.engine_run_iff ..).1 hengine).exists_init
  rw [hsession]
  rw [hnames language parser' (hinit language hmem) hname hload] at hengine
  exact hengine

theorem get?_session_of_no_tree (hnames : NamesParser actions name parser)
    (hloaded : (session config editor actions).cache.language? = some name)
    (hno : ∀ text, parser text = none) (id : String) :
    (session config editor actions).cache.get? id = none := by
  obtain ⟨history, hsession, hinit⟩ := session_eq config editor actions
  rw [hsession] at hloaded ⊢
  rw [Option.eq_none_iff_forall_ne_some]
  intro cached hget
  obtain ⟨language, loaded, text, hmem, hload, htree, hname⟩ := Cache.exists_init_of_get? hget
  have hsame : language.name = name := Option.some.inj (hname.symm.trans hloaded)
  rw [hnames language loaded (hinit language hmem) hsame hload, hno] at htree
  exact absurd htree (by simp)

end Past

/-- **Answers do not depend on the past.** Whatever was done with a resolver before and whatever
edits make of its trees, as long as a language is loaded whose name stands for one parser: if the
parser gives a tree for the text without the trigger, the answer is that of a new resolver with the
same configuration that has just loaded the language, it is repeated when the question is, and the
document is left with the same unedited tree; and if the parser never gives a tree, there is no
target in the tree and the strategy that falls back answers what scanning answers. -/
theorem resolve_independent_of_past (config : Config) (editor : TreeEditor) (actions : List Action)
    (language : Language) (parser : Parser) (hload : language.load = .ok parser)
    (hnames : NamesParser actions language.name parser)
    (hloaded : (session config editor actions).cache.language? = some language.name)
    (id : String) (t : Text) (cursor : Position) :
    (∃ fresh, Resolver.init { config, editor } language = .ok fresh ∧
      ((∀ trigger stripped, triggerAt? t cursor = some trigger →
          withoutTrigger t trigger = some stripped → ∃ tree, parser stripped = some tree) →
        ((session config editor actions).resolve id t cursor).2 = (fresh.resolve id t cursor).2 ∧
        (((session config editor actions).resolve id t cursor).1.resolve id t cursor).2 =
          ((session config editor actions).resolve id t cursor).2 ∧
        (config.strategy ≠ .lexical → triggerAt? t cursor ≠ none →
          ((session config editor actions).resolve id t cursor).1.cache.get? id =
            (fresh.resolve id t cursor).1.cache.get? id))) ∧
    ((∀ text, parser text = none) →
      (session config editor actions).answerWith .tree id t cursor = .ok none ∧
      (session config editor actions).answerWith .auto id t cursor =
        (session config editor actions).answerWith .lexical id t cursor) := by
  have hengine := engine_session hnames hloaded
  have hconfig := config_session config editor actions
  refine ⟨?_, ?_⟩
  · refine ⟨_, init_new hload config editor, ?_⟩
    intro htrees
    refine ⟨resolve_of_same_engine hconfig hengine rfl htrees, ?_, ?_⟩
    · have hafter := (sameBut_resolve (session config editor actions) id t cursor).engine_eq
      exact resolve_of_same_engine (config_resolve ..) (hafter.trans hengine) hengine htrees
    · intro hstrategy htrigger
      have hstrategy' : (session config editor actions).config.strategy ≠ .lexical := by
        rwa [hconfig]
      obtain ⟨trigger, htrigger⟩ := Option.ne_none_iff_exists'.1 htrigger
      obtain ⟨front, word, after, -, -, -, hstripped⟩ := exists_withoutTrigger htrigger
      obtain ⟨tree, htree⟩ := htrees trigger _ htrigger hstripped
      rw [get?_resolve_of_tree _ id htrigger hstrategy' hstripped hengine htree,
        get?_resolve_of_tree _ id htrigger hstrategy hstripped rfl htree]
  · intro hno
    have hget := get?_session_of_no_tree hnames hloaded hno id
    have htree : ∀ trigger,
        ((session config editor actions).resolveTree id t trigger).2 = .ok none := by
      intro trigger
      exact resolveTree_of_no_tree hengine hno hget
    cases htrigger : triggerAt? t cursor with
    | none => simp only [answerWith_of_no_trigger _ id _ htrigger, and_self]
    | some trigger =>
      refine ⟨?_, answerWith_auto_of_none _ id htrigger (htree trigger)⟩
      rw [answerWith_tree _ id htrigger, htree]
      rfl

/-! ## A session that edits and switches languages -/

/-- The name in the text `a`. -/
def nameNode : Node :=
  .onFirstRow "identifier" true none 0 1 []

/-- The syntax tree of the text `a`. -/
def nameTree : SyntaxTree where
  root := .onFirstRow "module" true none 0 1 [nameNode]
  hasError := false
  length := 1

/-- A parser that knows that text and gives up on any other. -/
def nameParser : Parser := fun t => if t = "a".toList then some nameTree else none

def nameLanguage : Language where
  name := "python"
  load := .ok nameParser

/-- A language whose parser always gives up. -/
def muteLanguage : Language where
  name := "mute"
  load := .ok fun _ => none

/-- The document is resolved and edited, another language loaded and the first one again, and the
document resolved and edited once more. -/
def nameActions : List Action :=
  [.init nameLanguage, .resolve "doc" "a.b".toList ⟨0, 3⟩,
   .applyEdit "doc" ⟨0, 0, 1, ⟨0, 0⟩, ⟨0, 0⟩, ⟨0, 1⟩⟩, .init muteLanguage, .init nameLanguage,
   .resolve "doc" "a.".toList ⟨0, 2⟩, .applyEdit "doc" ⟨1, 1, 0, ⟨0, 1⟩, ⟨0, 1⟩, ⟨0, 0⟩⟩]

/-- The document is resolved, and then the parser that always gives up is loaded. -/
def muteActions : List Action :=
  [.init nameLanguage, .resolve "doc" "a.b".toList ⟨0, 3⟩, .init muteLanguage]

/-- The name as a target. -/
def nameTarget : Boundary :=
  ⟨⟨⟨0, 0⟩, ⟨0, 1⟩⟩, some ⟨"identifier", some .identifier, ⟨⟨0, 0⟩, ⟨0, 1⟩⟩, some "module"⟩, .tree⟩

theorem namesParser_nameActions : NamesParser nameActions "python" nameParser := by
  intro language loaded hmem hname hload
  simp only [nameActions, List.mem_cons, Action.init.injEq, reduceCtorEq, List.not_mem_nil,
    or_false, false_or] at hmem
  rcases hmem with rfl | rfl | rfl
  · exact (Except.ok.inj hload).symm
  · exact absurd hname (by decide)
  · exact (Except.ok.inj hload).symm

theorem namesParser_muteActions : NamesParser muteActions "mute" fun _ => none := by
  intro language loaded hmem hname hload
  simp only [muteActions, List.mem_cons, Action.init.injEq, reduceCtorEq, List.not_mem_nil,
    or_false, false_or] at hmem
  rcases hmem with rfl | rfl
  · exact absurd hname (by decide)
  · exact (Except.ok.inj hload).symm

theorem triggerAt?_name :
    triggerAt? "a.".toList ⟨0, 2⟩ = some ⟨⟨0, 1⟩, ⟨⟨0, 2⟩, ⟨0, 2⟩⟩⟩ := by
  decide

theorem withoutTrigger_name :
    withoutTrigger "a.".toList ⟨⟨0, 1⟩, ⟨⟨0, 2⟩, ⟨0, 2⟩⟩⟩ = some "a".toList := by
  decide

theorem boundaryInTree_nameTree :
    boundaryInTree .heuristic nameTree ⟨0, 1⟩ = .ok (some nameTarget) := by
  rw [boundaryInTree, locate_eq_findSome?]
  rfl

/-- The name is found after all that, and nothing is found in a tree of a language given up. -/
theorem resolve_independent_of_past_edits :
    (session { strategy := .tree } .still nameActions).cache.language? = some "python" ∧
    ((session { strategy := .tree } .still nameActions).resolve "doc" "a.".toList ⟨0, 2⟩).2 =
      .ok (some nameTarget) ∧
    (session { strategy := .tree } .still muteActions).answerWith .tree "doc" "a.".toList ⟨0, 2⟩ =
      .ok none := by
  obtain ⟨⟨fresh, hfresh, hsame⟩, -⟩ := resolve_independent_of_past { strategy := .tree } .still
    nameActions nameLanguage nameParser rfl namesParser_nameActions rfl "doc" "a.".toList ⟨0, 2⟩
  obtain ⟨-, hmute⟩ := resolve_independent_of_past { strategy := .tree } .still muteActions
    muteLanguage (fun _ => none) rfl namesParser_muteActions rfl "doc" "a.".toList ⟨0, 2⟩
  obtain rfl := Except.ok.inj ((init_new rfl _ _).symm.trans hfresh)
  have htrees : ∀ trigger stripped, triggerAt? "a.".toList ⟨0, 2⟩ = some trigger →
      withoutTrigger "a.".toList trigger = some stripped →
      ∃ tree, nameParser stripped = some tree := by
    intro trigger stripped htrigger hstripped
    obtain rfl := Option.some.inj (triggerAt?_name.symm.trans htrigger)
    obtain rfl := Option.some.inj (withoutTrigger_name.symm.trans hstripped)
    exact ⟨nameTree, rfl⟩
  refine ⟨rfl, ?_, (hmute fun _ => rfl).1⟩
  rw [(hsame htrees).1, resolve_of_triggerAt? _ _ triggerAt?_name]
  show dropEmpty (resolveTree _ "doc" "a.".toList ⟨⟨0, 1⟩, ⟨⟨0, 2⟩, ⟨0, 2⟩⟩⟩).2 = _
  rw [resolveTree_of_tree withoutTrigger_name rfl rfl]
  show dropEmpty (boundaryInTree .heuristic nameTree ⟨0, 1⟩) = _
  rw [boundaryInTree_nameTree]
  rfl

end Resolver

end DotTarget
