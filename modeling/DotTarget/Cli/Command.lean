import DotTarget.Cli.Arguments
import DotTarget.Cli.Snippet
import DotTarget.Cli.Source
import DotTarget.Completion.Alias
import DotTarget.Document.Slice
import DotTarget.Json.Encode
import DotTarget.Tree.Dump

set_option autoImplicit false

/-! # Commands

What each subcommand answers. An answer is the text for the standard output. -/

namespace DotTarget.Cli

namespace Command

/-- The configuration that the arguments ask for. -/
def config (g : Given) : Config :=
  { strategy := g.strategy.getD .auto
    pruning := if g.exhaustive then .exhaustive else .heuristic
    maxIterations := g.maxIterations.getD defaultMaxIterations }

/-- The answer as JSON. -/
def report (cursor : Position) (source : Text) (found : Option Boundary) : Text :=
  let target := found.bind fun boundary => boundary.span.slice? source
  Json.pretty (.object
    [("at", cursor.toJson),
     ("target", .ofOption .string target),
     ("boundary", .ofOption Boundary.toJson found)]) ++ ['\n']

/-- What a target is called in a snippet: the kind of its node. -/
def label (boundary : Boundary) : Text :=
  match boundary.node with
  | some node => node.kind.toList
  | none => "lexical scan".toList

/-- The source with the target underlined. -/
def annotate (source : Text) (origin : Option String) (boundary : Boundary) (style : Style) :
    Text :=
  let index := LineIndex.ofText source
  match index.offset? boundary.span.start, index.offset? boundary.span.stop with
  | some _, some _ =>
    let snippet : Snippet :=
      { lines := Text.lines source
        origin
        span := boundary.span
        title := "completion target ".toList ++ boundary.span.display.toList
        label := label boundary }
    snippet.render style
  | _, _ => boundary.span.display.toList ++ ['\n']

/-- The resolver that the arguments ask for, with a grammar unless only text is scanned. -/
def resolver (env : Environment) (g : Given) : Except CommandError Resolver :=
  let fresh : Resolver := { config := config g }
  if fresh.config.strategy = .lexical then .ok fresh
  else do
    let language ← chooseLanguage g.lang g.path
    (fresh.init (env.grammar language)).mapError fun cause => .resolve (.engine cause)

/-- Shows the expression that a completion at the cursor wraps. -/
def boundary (env : Environment) (g : Given) (cursor : Position) : Except CommandError Text := do
  let source ← loadSource env g.source g.path
  let resolver ← resolver env g
  let name := documentName g.path
  let found ← (resolver.resolve name source cursor).2.mapError .resolve
  if g.json then return report cursor source found
  match found with
  | none => return ("no completion target at " ++ cursor.display ++ "\n").toList
  | some boundary =>
    let style := if g.color = some .always then Style.colored else Style.plain
    return annotate source (g.path.map fun _ => name) boundary style

/-- Shows the name that an `as` clause at the cursor would repeat. -/
def aliasName (env : Environment) (g : Given) (cursor : Position) : Except CommandError Text := do
  let source ← loadSource env g.source g.path
  let name := (aliasTarget (Text.lines source) cursor).bind fun span => span.slice? source
  match name with
  | some name => return "as ".toList ++ name ++ ['\n']
  | none => return ("no alias target at " ++ cursor.display ++ "\n").toList

/-- Shows the syntax tree. -/
def tree (env : Environment) (g : Given) : Except CommandError Text := do
  let source ← loadSource env g.source g.path
  let language ← chooseLanguage g.lang g.path
  match (env.grammar language).parse source with
  | none => .error .parse
  | some tree => return tree.root.dump source g.spans ++ ['\n']

/-- The named node kinds of a grammar in order, one to a row. -/
def kindRows (language : Language) : Text :=
  let kinds := (language.namedKinds.mergeSort fun a b => decide (a ≤ b)).eraseReps
  kinds.flatMap fun kind => "    ".toList ++ kind.toList ++ kindMark kind ++ ['\n']

/-- Lists the known languages. -/
def langs (env : Environment) (g : Given) : Text :=
  let heading := "Supported languages (".toList ++ Text.ofNat KnownLanguage.all.length
    ++ "):\n".toList
  let rows (language : KnownLanguage) : Text :=
    "  ".toList ++ language.name.toList ++ ['\n']
      ++ if g.kinds then kindRows (env.grammar language) else []
  heading ++ KnownLanguage.all.flatMap rows

/-- The answer of a subcommand. -/
def run (env : Environment) (command : Subcommand) (g : Given) : Except CommandError Text :=
  let cursor := g.cursor.getD Position.origin
  match command with
  | .boundary => boundary env g cursor
  | .aliasName => aliasName env g cursor
  | .tree => tree env g
  | .langs => .ok (langs env g)

end Command

end DotTarget.Cli
