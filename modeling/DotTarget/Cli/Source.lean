import DotTarget.Cli.Directory
import DotTarget.Session.Resolver

set_option autoImplicit false

/-! # Sources

Where the text that a command works on comes from, and in which language it is. -/

namespace DotTarget.Cli

/-- Why a command ends without an answer. -/
inductive CommandError where
  | missingSource
  | read (path : String) (cause : ReadError)
  | unknownLanguage (name : String)
  | unknownExtension (extension : String)
  | parse
  | resolve (cause : ResolveError)
  deriving DecidableEq, Repr

/-- The text of an error. -/
def CommandError.message : CommandError → String
  | .missingSource => "source required (positional or --source)"
  | .read path cause => "failed to read '" ++ path ++ "': " ++ cause.message
  | .unknownLanguage name => "unknown language: " ++ name
  | .unknownExtension extension =>
    "cannot infer language from extension '." ++ extension ++ "', use -l/--lang"
  | .parse => "failed to parse source"
  | .resolve (.engine cause) => cause.message
  | .resolve (.fault cause) => cause.message

/-- What a command can ask of the world around it. -/
structure Environment where
  /-- The text of the file at a path. -/
  file : String → Except ReadError Text
  standardInput : Except ReadError Text
  grammar : KnownLanguage → Language

/-- The path that stands for the standard input. -/
def standardInputPath : String := "-"

/-- The text to work on: the one given, else the file at a path or the standard input. -/
def loadSource (env : Environment) (source : Option Text) (path : Option String) :
    Except CommandError Text :=
  match source, path with
  | some t, _ => .ok t
  | none, none => .error .missingSource
  | none, some path =>
    let read := if path = standardInputPath then env.standardInput else env.file path
    read.mapError (.read path)

/-- The language of a text: the one named, else the one of the path's extension. Without an
extension it is Python. -/
def chooseLanguage (name : Option String) (path : Option String) :
    Except CommandError KnownLanguage :=
  match name with
  | some name =>
    match KnownLanguage.ofName? name with
    | some language => .ok language
    | none => .error (.unknownLanguage name)
  | none =>
    match (path.filter (· ≠ standardInputPath)).bind Path.extension? with
    | none => .ok .python
    | some extension =>
      match KnownLanguage.ofExtension? extension with
      | some language => .ok language
      | none => .error (.unknownExtension extension)

/-- The name under which a document is kept: its path, if it has one. -/
def documentName (path : Option String) : String :=
  (path.filter (· ≠ standardInputPath)).getD "<source>"

end DotTarget.Cli
