import DotTarget.Text.Width
import DotTarget.Tree.Node

set_option autoImplicit false

/-! # Languages

`Language` is a language with its grammar: a way to get a parser, which may fail, and the node
kinds the grammar knows. A parser turns a text into a tree, or gives up. Grammars come from
outside; everything here works for any of them.

`KnownLanguage` lists the languages that are known by name or file extension. -/

namespace DotTarget

/-- A parser: the tree of a text, unless it gives up. -/
abbrev Parser := Text → Option SyntaxTree

/-- A language and its grammar. -/
structure Language where
  name : String
  /-- A parser, or why there is none. -/
  load : Except String Parser
  /-- The number of a named node kind, zero for a kind that does not exist. -/
  kindNumber : String → Nat := fun _ => 0
  /-- The named node kinds, possibly with repetitions. -/
  namedKinds : List String := []

namespace Language

/-- The tree of a text, if the parser can be had and does not give up. -/
def parse (language : Language) (t : Text) : Option SyntaxTree :=
  match language.load with
  | .ok parser => parser t
  | .error _ => none

/-- The number of a named node kind, if the grammar has it. -/
def namedKind? (language : Language) (kind : String) : Option Nat :=
  match language.kindNumber kind with
  | 0 => none
  | number => some number

end Language

/-- A language known by name. -/
inductive KnownLanguage where
  | python
  deriving DecidableEq, Repr, Inhabited

namespace KnownLanguage

/-- All known languages. -/
def all : List KnownLanguage := [.python]

/-- The name of a language. -/
def name : KnownLanguage → String
  | .python => "python"

/-- The names under which a language is found. -/
def aliases : KnownLanguage → List String
  | .python => ["python", "py", "python3"]

/-- The file extensions of a language. -/
def extensions : KnownLanguage → List String
  | .python => ["py", "pyi", "pyw"]

/-- A name with its ASCII letters in lower case. -/
def folded (s : String) : String :=
  s.map Char.toLower

/-- The language with a given name, in upper or lower case. -/
def ofName? (s : String) : Option KnownLanguage :=
  all.find? fun language => language.aliases.contains (folded s)

/-- The language with a given file extension, in upper or lower case. -/
def ofExtension? (s : String) : Option KnownLanguage :=
  all.find? fun language => language.extensions.contains (folded s)

end KnownLanguage

end DotTarget
