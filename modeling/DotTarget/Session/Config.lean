import DotTarget.Tree.Locate

set_option autoImplicit false

/-! # Configuration of a resolver -/

namespace DotTarget

/-- How the target of a completion is looked for. -/
inductive Strategy where
  /-- In the syntax tree only. -/
  | tree
  /-- By scanning the text only, without a parser. -/
  | lexical
  /-- In the syntax tree, and by scanning the text when no node is found. -/
  | auto
  deriving DecidableEq, Repr, Inhabited

/-- The written names of strategies. -/
def Strategy.name : Strategy → String
  | .tree => "syntax"
  | .lexical => "lexical"
  | .auto => "auto"

/-- All strategies. -/
def Strategy.all : List Strategy := [.tree, .lexical, .auto]

/-- The strategy with a given name. -/
def Strategy.ofName? (s : String) : Option Strategy :=
  Strategy.all.find? fun strategy => strategy.name = s

/-- The written names of prunings. -/
def Pruning.name : Pruning → String
  | .heuristic => "heuristic"
  | .exhaustive => "exhaustive"

/-- All prunings. -/
def Pruning.all : List Pruning := [.heuristic, .exhaustive]

/-- The pruning with a given name. -/
def Pruning.ofName? (s : String) : Option Pruning :=
  Pruning.all.find? fun pruning => pruning.name = s

/-- The cap on the steps of a scan when none is given. -/
def defaultMaxIterations : Nat := 512

/-- How a resolver works. -/
structure Config where
  strategy : Strategy := .auto
  pruning : Pruning := .heuristic
  /-- The cap on the steps of a scan. -/
  maxIterations : Nat := defaultMaxIterations
  deriving DecidableEq, Repr

end DotTarget
