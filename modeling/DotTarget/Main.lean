import DotTarget.Cli.Command

set_option autoImplicit false

/-! # The program

Reads the command line, fetches the source that it names, and prints what the command answers. No
grammar is built in, so syntax trees are not available here and targets are found by scanning. -/

namespace DotTarget.Cli

/-- How the program is called. -/
def usage : String :=
  String.join <| List.map (· ++ "\n")
    ["Resolve the expression a dot completion wraps",
     "",
     "boundary [SOURCE] [-s TEXT] --at ROW:COL [-l LANG] [--strategy auto|syntax|lexical]",
     "         [--exhaustive] [--max-iterations N] [--json] [--color auto|always|never]",
     "alias    [SOURCE] [-s TEXT] --at ROW:COL",
     "tree     [SOURCE] [-s TEXT] [-l LANG] [--spans]",
     "langs    [--kinds]"]

/-- Why the system refused to read a file. -/
def readErrorOf : IO.Error → ReadError
  | .noFileOrDirectory _ _ _ => .notFound
  | .inappropriateType _ code _ => if code = 21 then .isDirectory else .notDirectory
  | .invalidArgument _ code _ => if code = 36 then .nameTooLong else .nulInPath
  | e => .other e.toString

/-- All bytes of a stream, behind those read already. -/
partial def readAll (stream : IO.FS.Stream) (bytes : ByteArray) : IO ByteArray := do
  let more ← stream.read 65536
  if more.isEmpty then return bytes
  readAll stream (bytes ++ more)

/-- The text that an action fetches as bytes. -/
def fetch (action : IO ByteArray) : IO (Except ReadError Text) := do
  try
    return decodeText (← action)
  catch e =>
    return .error (readErrorOf e)

/-- The source at a path. -/
def fetchSource (path : String) : IO (Except ReadError Text) :=
  if path = standardInputPath then do fetch (readAll (← IO.getStdin) ByteArray.empty)
  else fetch (IO.FS.readBinFile path)

/-- A language without a grammar: its parser always gives up. -/
def withoutGrammar (known : KnownLanguage) : Language :=
  { name := known.name, load := .ok fun _ => none }

/-- Runs a command on the source that its arguments name. -/
def execute (command : Subcommand) (given : Given) : IO UInt32 := do
  let source ← match given.source, given.path with
    | none, some path => fetchSource path
    | _, _ => pure (.error .notFound)
  let env : Environment :=
    { file := fun _ => source, standardInput := source, grammar := withoutGrammar }
  let asks := given.color.all fun choice => choice == .auto
  let given :=
    if asks && (← (← IO.getStdout).isTty) then { given with color := some .always } else given
  match Command.run env command given with
  | .ok answer =>
    IO.print (String.ofList answer)
    return 0
  | .error e =>
    IO.eprintln ("error: " ++ e.message)
    return 1

end DotTarget.Cli

open DotTarget.Cli in
def main (words : List String) : IO UInt32 := do
  match Arguments.parse (words.map String.toList) with
  | .error .help =>
    IO.print usage
    return 0
  | .error _ =>
    IO.eprint usage
    return 2
  | .ok (command, given) => execute command given
