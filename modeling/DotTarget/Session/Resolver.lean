import DotTarget.Completion.Trigger
import DotTarget.Lexical.Scan
import DotTarget.Session.Cache
import DotTarget.Session.Config

set_option autoImplicit false

/-! # Resolving completion targets

`Resolver.resolve` answers which expression a completion at a cursor wraps. The dot and the word
typed behind it are not part of the program yet, so the syntax tree is that of the text without
them, and the target is the node that ends where the dot stood. -/

namespace DotTarget

/-- The expression that a completion wraps. -/
structure Boundary where
  span : Span
  /-- The syntax node, when the tree was asked. -/
  node : Option NodeSummary
  /-- The strategy that found the expression, either `tree` or `lexical`. -/
  strategy : Strategy
  deriving DecidableEq, Repr

/-- Why a target could not be resolved. -/
inductive ResolveError where
  | engine (error : EngineError)
  | fault (fault : Fault)
  deriving DecidableEq, Repr

/-- The text without the dot and the word of a trigger. -/
def withoutTrigger (t : Text) (trigger : Trigger) : Option Text := do
  let index := LineIndex.ofText t
  let start ← index.offset? trigger.dot
  let stop ← index.offset? trigger.word.stop
  let (front, _) ← Text.splitAt? t start
  let (_, back) ← Text.splitAt? t stop
  return front ++ back

/-- A configuration and a cache of syntax trees. -/
structure Resolver where
  config : Config := {}
  cache : Cache := {}
  /-- What edits make of the cached trees. -/
  editor : TreeEditor := .still

namespace Resolver

/-- Loads the grammar of a language. -/
def init (r : Resolver) (language : Language) : Except EngineError Resolver :=
  (r.cache.init language).map fun cache => { r with cache }

/-- Drops the grammar and all trees. -/
def shutdown (r : Resolver) : Resolver :=
  { r with cache := r.cache.shutdown }

/-- Notes an edit on the tree of a document. -/
def applyEdit (r : Resolver) (id : String) (edit : Edit) : Resolver × Bool :=
  let (cache, found) := r.cache.applyEdit id edit
  ({ r with cache }, found)

/-- Forgets the tree of a document. -/
def forget (r : Resolver) (id : String) : Resolver × Bool :=
  let (cache, found) := r.cache.remove id
  ({ r with cache }, found)

/-- The node of a tree that ends at a place, as a target. -/
def boundaryInTree (pruning : Pruning) (tree : SyntaxTree) (target : Position) :
    Except ResolveError (Option Boundary) :=
  match locate pruning tree.root target with
  | none => .ok none
  | some found =>
    match found.summary with
    | .error fault => .error (.fault fault)
    | .ok summary => .ok (some ⟨summary.span, some summary, .tree⟩)

/-- Looks for the target in the syntax tree of the text without the trigger, which becomes the
tree of the document. When the parser gives up, the target is looked for in the tree that the
document had, with the edits made since. -/
def resolveTree (r : Resolver) (id : String) (t : Text) (trigger : Trigger) :
    Resolver × Except ResolveError (Option Boundary) :=
  match withoutTrigger t trigger with
  | none => (r, .ok none)
  | some stripped =>
    match r.cache.parse id stripped with
    | .error e => (r, .error (.engine e))
    | .ok cache =>
      ({ r with cache },
        match cache.get? id with
        | none => .ok none
        | some cached => boundaryInTree r.config.pruning (cached.current r.editor) trigger.dot)

/-- Looks for the target by scanning the text left of the dot. -/
def resolveLexical (config : Config) (lines : List Text) (trigger : Trigger) :
    Except ResolveError (Option Boundary) :=
  match scan lines ⟨trigger.dot.row, trigger.dot.column + 1⟩ config.maxIterations with
  | .error fault => .error (.fault fault)
  | .ok outcome => .ok (some ⟨outcome.span, none, .lexical⟩)

/-- Looks for the target of a trigger as the configured strategy says. -/
def resolveTrigger (r : Resolver) (id : String) (t : Text) (trigger : Trigger) :
    Resolver × Except ResolveError (Option Boundary) :=
  match r.config.strategy with
  | .tree => r.resolveTree id t trigger
  | .lexical => (r, resolveLexical r.config (Text.lines t) trigger)
  | .auto =>
    match r.resolveTree id t trigger with
    | (r', .ok none) => (r', resolveLexical r.config (Text.lines t) trigger)
    | answer => answer

/-- The trigger for a cursor in a text. -/
def triggerAt? (t : Text) (cursor : Position) : Option Trigger := do
  let line ← (Text.lines t)[cursor.row]?
  Trigger.find? line cursor

/-- The expression that a completion at a cursor wraps. There is none when the cursor is not on a
trigger or nothing precedes it. -/
def resolve (r : Resolver) (id : String) (t : Text) (cursor : Position) :
    Resolver × Except ResolveError (Option Boundary) :=
  match triggerAt? t cursor with
  | none => (r, .ok none)
  | some trigger =>
    let (r', answer) := r.resolveTrigger id t trigger
    (r', answer.map fun found => found.filter fun boundary => !boundary.span.isEmpty)

end Resolver

end DotTarget
