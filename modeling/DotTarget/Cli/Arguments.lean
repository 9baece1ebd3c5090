import DotTarget.Cli.Cursor
import DotTarget.Session.Config

set_option autoImplicit false

/-! # Command line arguments

The command line names a subcommand, then options and at most one source path in any order.

`Arguments.parse` reads the words from left to right. An option's value may be attached to it
(`--at=0:3`, `-s=x`, `-sx`) or be the next word. A value that is a word of its own is taken
note of at once but is only looked at when the next option or path is met, or at the end
(`Reading.settle`); so a misspelt option is reported before a bad value right before it. After
the word `--` all words are paths. -/

namespace DotTarget.Cli

/-- A subcommand. -/
inductive Subcommand where
  | boundary
  | aliasName
  | tree
  | langs
  deriving DecidableEq, Repr

/-- An argument of a subcommand. -/
inductive Argument where
  | path
  | source
  | lang
  | cursor
  | strategy
  | exhaustive
  | maxIterations
  | json
  | color
  | spans
  | kinds
  deriving DecidableEq, Repr

/-- Why a command line is refused, or why help is shown instead. -/
inductive UsageError where
  | help
  | helpOnMissing
  | invalidSubcommand
  | unknownArgument
  | invalidValue
  | badValue (cause : Option CursorError)
  | conflict
  | missingRequired
  | tooManyValues
  deriving DecidableEq, Repr

/-- When colours are used. -/
inductive ColorChoice where
  | auto
  | always
  | never
  deriving DecidableEq, Repr

namespace Subcommand

/-- The subcommand with a given name. -/
def ofName? : String → Option Subcommand
  | "boundary" => some .boundary
  | "alias" => some .aliasName
  | "tree" => some .tree
  | "langs" => some .langs
  | _ => none

/-- The arguments that a subcommand takes. -/
def arguments : Subcommand → List Argument
  | .boundary =>
    [.path, .source, .lang, .cursor, .strategy, .exhaustive, .maxIterations, .json, .color]
  | .aliasName => [.path, .source, .cursor]
  | .tree => [.path, .source, .lang, .spans]
  | .langs => [.kinds]

end Subcommand

namespace Argument

/-- The long name of an option; a path has none. -/
def long? : Argument → Option String
  | .path => none
  | .source => some "source"
  | .lang => some "lang"
  | .cursor => some "at"
  | .strategy => some "strategy"
  | .exhaustive => some "exhaustive"
  | .maxIterations => some "max-iterations"
  | .json => some "json"
  | .color => some "color"
  | .spans => some "spans"
  | .kinds => some "kinds"

/-- The one-letter name of an option. -/
def short? : Argument → Option Char
  | .source => some 's'
  | .lang => some 'l'
  | _ => none

/-- Whether an argument takes no value. -/
def isFlag : Argument → Bool
  | .exhaustive | .json | .spans | .kinds => true
  | _ => false

end Argument

/-- The values given on the command line. -/
structure Given where
  path : Option String := none
  source : Option Text := none
  lang : Option String := none
  cursor : Option Position := none
  strategy : Option Strategy := none
  exhaustive : Bool := false
  maxIterations : Option Nat := none
  json : Bool := false
  color : Option ColorChoice := none
  spans : Bool := false
  kinds : Bool := false
  deriving DecidableEq, Repr

namespace Given

/-- Whether an argument was given. -/
def has (g : Given) : Argument → Bool
  | .path => g.path.isSome
  | .source => g.source.isSome
  | .lang => g.lang.isSome
  | .cursor => g.cursor.isSome
  | .strategy => g.strategy.isSome
  | .exhaustive => g.exhaustive
  | .maxIterations => g.maxIterations.isSome
  | .json => g.json
  | .color => g.color.isSome
  | .spans => g.spans
  | .kinds => g.kinds

/-- The largest cap that can be asked for. -/
def largestCap : Nat := 4294967295

/-- A cap on the steps of a scan: a numeral from one to `largestCap`. -/
def parseCap (value : Text) : Except UsageError Nat :=
  match unsigned? value with
  | some n => if 1 ≤ n ∧ n ≤ largestCap then .ok n else .error (.badValue none)
  | none => .error (.badValue none)

/-- The colour choice with a given name. -/
def parseColor : String → Except UsageError ColorChoice
  | "auto" => .ok .auto
  | "always" => .ok .always
  | "never" => .ok .never
  | _ => .error .invalidValue

/-- Reads the value of an argument into its place. -/
def set (g : Given) (value : Text) : Argument → Except UsageError Given
  | .path =>
    if value.isEmpty then .error .invalidValue
    else .ok { g with path := some (String.ofList value) }
  | .source => .ok { g with source := some value }
  | .lang => .ok { g with lang := some (String.ofList value) }
  | .cursor =>
    match parseCursor value with
    | .ok place => .ok { g with cursor := some place }
    | .error cause => .error (.badValue (some cause))
  | .strategy =>
    match Strategy.ofName? (String.ofList value) with
    | some strategy => .ok { g with strategy := some strategy }
    | none => .error .invalidValue
  | .exhaustive => .ok { g with exhaustive := true }
  | .maxIterations => do return { g with maxIterations := some (← parseCap value) }
  | .json => .ok { g with json := true }
  | .color => do return { g with color := some (← parseColor (String.ofList value)) }
  | .spans => .ok { g with spans := true }
  | .kinds => .ok { g with kinds := true }

/-- Takes an argument in. Its value must be there, the argument must not have been given before,
and the value must be a good one; the first of these that fails is reported. -/
def take (g : Given) (argument : Argument) (value : Option Text) : Except UsageError Given :=
  match value with
  | none =>
    if !argument.isFlag then .error .invalidValue
    else if g.has argument then .error .conflict
    else g.set [] argument
  | some value => if g.has argument then .error .conflict else g.set value argument

end Given

/-- How far the words of a subcommand have been read. -/
structure Reading where
  given : Given := {}
  /-- An argument that is not taken in yet, and its value as far as that has been met. -/
  pending : Option (Argument × Option Text) := none
  /-- Whether the word `--` has been met. -/
  pathsOnly : Bool := false
  /-- Whether a path has been met. -/
  pathSeen : Bool := false
  deriving DecidableEq, Repr

namespace Reading

/-- Takes in the argument that is pending. -/
def settle (r : Reading) : Except UsageError Reading :=
  match r.pending with
  | none => .ok r
  | some (argument, value) => do
    return { r with given := ← r.given.take argument value, pending := none }

/-- Meets an option, with the value attached to it if there is one. -/
def meet (r : Reading) (argument : Argument) (attached : Option Text) :
    Except UsageError Reading := do
  let r ← r.settle
  if argument.isFlag || attached.isSome then
    return { r with given := ← r.given.take argument attached }
  else return { r with pending := some (argument, none) }

/-- Reads `--name` or `--name=value`, without the two dashes. -/
def readLong (command : Subcommand) (r : Reading) (word : Text) : Except UsageError Reading :=
  let name := String.ofList (word.takeWhile (· ≠ '='))
  let attached := match word.dropWhile (· ≠ '=') with
    | [] => none
    | _ :: value => some value
  if name = "help" then
    if attached.isSome then .error .tooManyValues
    else do
      let _ ← r.settle
      .error .help
  else
    match command.arguments.find? fun argument => argument.long? = some name with
    | none => .error .unknownArgument
    | some argument =>
      if argument.isFlag && attached.isSome then .error .tooManyValues
      else r.meet argument attached

/-- Reads `-x`, `-xvalue` or `-x=value`, without the dash. -/
def readShort (command : Subcommand) (r : Reading) : Text → Except UsageError Reading
  | [] => .ok r
  | letter :: rest =>
    if letter = 'h' then do
      let _ ← r.settle
      .error .help
    else
      match command.arguments.find? fun argument => argument.short? = some letter with
      | none => .error .unknownArgument
      | some argument =>
        match rest with
        | [] => r.meet argument none
        | '=' :: value => r.meet argument (some value)
        | value => r.meet argument (some value)

/-- Reads a word that is a path. -/
def readPath (command : Subcommand) (r : Reading) (word : Text) : Except UsageError Reading :=
  if command.arguments.contains .path && !r.pathSeen then do
    return { ← r.settle with pending := some (.path, some word), pathSeen := true }
  else .error .unknownArgument

/-- Reads one word. -/
def read (command : Subcommand) (r : Reading) (word : Text) : Except UsageError Reading :=
  if r.pathsOnly then r.readPath command word
  else
    match word with
    | ['-', '-'] => .ok { r with pathsOnly := true }
    | '-' :: '-' :: long => r.readLong command long
    | '-' :: c :: short => r.readShort command (c :: short)
    | word =>
      match r.pending with
      | some (argument, none) => .ok { r with pending := some (argument, some word) }
      | _ => r.readPath command word

end Reading

namespace Arguments

/-- The arguments that must not be missing or come together. -/
def validate (command : Subcommand) (g : Given) : Except UsageError Given :=
  if g.path.isSome && g.source.isSome then .error .conflict
  else if command.arguments.contains .cursor && g.cursor.isNone then .error .missingRequired
  else .ok g

/-- Reads the words behind a subcommand. -/
def parseSubcommand (command : Subcommand) (words : List Text) : Except UsageError Given := do
  let reading ← words.foldlM (fun r word => r.read command word) ({} : Reading)
  let reading ← reading.settle
  validate command reading.given

/-- Answers `help` followed by words: each must name a command below the one before it. -/
def helpOn : List Text → UsageError
  | [] => .help
  | [word] =>
    let name := String.ofList word
    if name = "help" || (Subcommand.ofName? name).isSome then .help else .invalidSubcommand
  | _ => .invalidSubcommand

/-- Reads the words behind `--` where a subcommand is expected. -/
def parseBehindDashes : List Text → UsageError
  | [] => .helpOnMissing
  | word :: _ =>
    let name := String.ofList word
    if name = "help" || (Subcommand.ofName? name).isSome then .unknownArgument
    else .invalidSubcommand

/-- Reads a command line. -/
def parse (words : List Text) : Except UsageError (Subcommand × Given) :=
  match words with
  | [] => .error .helpOnMissing
  | word :: rest =>
    match Subcommand.ofName? (String.ofList word) with
    | some command => do return (command, ← parseSubcommand command rest)
    | none =>
      if word = "help".toList then .error (helpOn rest)
      else
        match word with
        | ['-', '-'] => .error (parseBehindDashes rest)
        | '-' :: '-' :: long =>
          if long = "help".toList then .error .help
          else if long.takeWhile (· ≠ '=') = "help".toList then .error .tooManyValues
          else .error .unknownArgument
        | '-' :: c :: _ => .error (if c = 'h' then .help else .unknownArgument)
        | _ => .error .invalidSubcommand

end Arguments

end DotTarget.Cli
