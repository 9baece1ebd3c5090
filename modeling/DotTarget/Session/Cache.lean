import DotTarget.Document.Edit
import DotTarget.Session.Language

set_option autoImplicit false

/-! # Tree cache

The cache holds the parser of one language and the latest tree of each document. It starts
without a parser; `Cache.init` loads one. A parse replaces the document's tree, and an edit is
noted on the tree that is there. An operation that fails leaves the cache as it was, so failing
operations return no cache at all. -/

namespace DotTarget

/-- Why the cache could not do its work. -/
inductive EngineError where
  /-- No grammar is loaded. -/
  | uninitialized
  /-- The grammar of a language could not be loaded. -/
  | setup (language reason : String)
  deriving DecidableEq, Repr

/-- The text of an error. -/
def EngineError.message : EngineError → String
  | .uninitialized => "parsing engine is not initialized"
  | .setup language reason => s!"failed to load the {language} grammar: {reason}"

/-- A loaded grammar. -/
structure Engine where
  language : String
  parser : Parser

/-- The tree of a document and the edits noted on it, oldest first. -/
structure CachedTree where
  tree : SyntaxTree
  edits : List Edit := []
  deriving Repr

/-- What an edit makes of a tree: its nodes move along with the text. Like grammars, this comes from
outside. -/
abbrev TreeEditor := SyntaxTree → Edit → SyntaxTree

/-- Leaves trees as they were parsed. -/
def TreeEditor.still : TreeEditor := fun tree _ => tree

namespace CachedTree

/-- The tree with all noted edits made. -/
def current (cached : CachedTree) (editor : TreeEditor) : SyntaxTree :=
  cached.edits.foldl editor cached.tree

@[simp] theorem current_mk_nil (tree : SyntaxTree) (editor : TreeEditor) :
    current { tree } editor = tree := rfl

/-- Whether one of the noted edits touches the tree. A tree depends on the parsed text and on the
place right behind its end, where the parser looked for more. -/
def isChanged (cached : CachedTree) : Bool :=
  cached.edits.any (·.touches (cached.tree.length + 1))

end CachedTree

/-- A loaded grammar, if any, and the trees of documents by name. -/
structure Cache where
  engine : Option Engine := none
  trees : List (String × CachedTree) := []

namespace Cache

/-- The cache without a grammar and without trees. -/
def empty : Cache := {}

/-- The name of the loaded language. -/
def language? (cache : Cache) : Option String :=
  cache.engine.map Engine.language

/-- Whether a grammar is loaded. -/
def isInitialized (cache : Cache) : Bool :=
  cache.engine.isSome

/-- The tree of a document. -/
def get? (cache : Cache) (id : String) : Option CachedTree :=
  cache.trees.lookup id

/-- Whether a document has a tree. -/
def has (cache : Cache) (id : String) : Bool :=
  (cache.get? id).isSome

/-- The number of documents with a tree. -/
def size (cache : Cache) : Nat :=
  cache.trees.length

/-- Whether no document has a tree. -/
def isEmpty (cache : Cache) : Bool :=
  cache.trees.isEmpty

/-- The trees of all documents but one. -/
def treesWithout (cache : Cache) (id : String) : List (String × CachedTree) :=
  cache.trees.filter fun entry => entry.1 ≠ id

/-- Loads a grammar. Another language than the loaded one drops all trees. -/
def init (cache : Cache) (language : Language) : Except EngineError Cache :=
  match language.load with
  | .error reason => .error (.setup language.name reason)
  | .ok parser =>
    let same := cache.language?.all (· = language.name)
    .ok { engine := some ⟨language.name, parser⟩, trees := if same then cache.trees else [] }

/-- A cache with a loaded grammar. -/
def ofLanguage (language : Language) : Except EngineError Cache :=
  empty.init language

/-- Drops the grammar and all trees. -/
def shutdown (_ : Cache) : Cache :=
  empty

/-- Parses a text as the new state of a document. When the parser gives up, the document keeps
the tree it had. -/
def parse (cache : Cache) (id : String) (t : Text) : Except EngineError Cache :=
  match cache.engine with
  | none => .error .uninitialized
  | some engine =>
    match engine.parser t with
    | none => .ok cache
    | some tree => .ok { cache with trees := (id, { tree }) :: cache.treesWithout id }

/-- Notes an edit on the tree of a document. Says whether there is such a tree. -/
def applyEdit (cache : Cache) (id : String) (edit : Edit) : Cache × Bool :=
  let note (entry : String × CachedTree) : String × CachedTree :=
    if entry.1 = id then (id, { entry.2 with edits := entry.2.edits ++ [edit] }) else entry
  ({ cache with trees := cache.trees.map note }, cache.has id)

/-- Forgets the tree of a document. Says whether there was one. -/
def remove (cache : Cache) (id : String) : Cache × Bool :=
  ({ cache with trees := cache.treesWithout id }, cache.has id)

/-! ## What each operation does to the trees -/

theorem lookup_filter_ne (trees : List (String × CachedTree)) (id other : String) :
    (trees.filter fun entry => entry.1 ≠ id).lookup other =
      if other = id then none else trees.lookup other := by
  induction trees with
  | nil => simp
  | cons entry trees ih =>
    obtain ⟨name, cached⟩ := entry
    rw [List.filter_cons]
    by_cases hname : name = id
    · rw [if_neg (by simp [hname]), ih]
      by_cases hother : other = id
      · simp [hother]
      · have : (other == name) = false := by simp [hname, hother]
        simp [hother, List.lookup_cons, this]
    · rw [if_pos (by simp [hname]), List.lookup_cons, List.lookup_cons]
      by_cases hother : other = name
      · simp [hother, hname]
      · have : (other == name) = false := by simp [hother]
        simp only [this, ih]

theorem get?_empty (id : String) : empty.get? id = none := rfl

/-- A parse replaces the tree of its document and no other. -/
theorem get?_parse {cache after : Cache} {id : String} {t : Text} {engine : Engine}
    {tree : SyntaxTree} (hengine : cache.engine = some engine) (htree : engine.parser t = some tree)
    (h : cache.parse id t = .ok after) (other : String) :
    after.get? other = if other = id then some { tree } else cache.get? other := by
  simp only [parse, hengine, htree, Except.ok.injEq] at h
  subst h
  by_cases hother : other = id
  · simp [get?, hother]
  · have : (other == id) = false := by simp [hother]
    rw [get?, List.lookup_cons, this, treesWithout, lookup_filter_ne, if_neg hother, if_neg hother]
    rfl

/-- Removing forgets the tree of one document and no other. -/
theorem get?_remove (cache : Cache) (id other : String) :
    (cache.remove id).1.get? other = if other = id then none else cache.get? other := by
  rw [remove, get?, treesWithout, lookup_filter_ne]
  rfl

end Cache

end DotTarget
