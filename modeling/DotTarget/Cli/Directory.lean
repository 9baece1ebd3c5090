import DotTarget.Text.Width

set_option autoImplicit false

/-! # Directories and paths

A `Directory` is a finite set of named files and directories, given by their paths from it. It
stands for the directory a program works in. `Directory.read` follows a path from it and reads
the text of the file found there.

A path is a list of names parted by slashes. Empty names and the name `.` stay where they are and
`..` goes up, but only from a directory. A path may lead out of the directory, by going up from it
or by starting with a slash; out there are only directories without names. -/

namespace DotTarget.Cli

/-- Why a file cannot be read. -/
inductive ReadError where
  | notFound
  | notDirectory
  | isDirectory
  | nameTooLong
  | nulInPath
  | notText
  | other (reason : String)
  deriving DecidableEq, Repr

/-- The text of an error. -/
def ReadError.message : ReadError → String
  | .notFound => "No such file or directory (os error 2)"
  | .notDirectory => "Not a directory (os error 20)"
  | .isDirectory => "Is a directory (os error 21)"
  | .nameTooLong => "File name too long (os error 36)"
  | .nulInPath => "file name contained an unexpected NUL byte"
  | .notText => "stream did not contain valid UTF-8"
  | .other reason => reason

/-- Bytes read as text. -/
def decodeText (bytes : ByteArray) : Except ReadError Text :=
  match String.fromUTF8? bytes with
  | some s => .ok s.toList
  | none => .error .notText

namespace Path

/-- The names of a path that lead somewhere: neither empty nor `.`. -/
def names (path : String) : List String :=
  (path.splitOn "/").filter fun name => name ≠ "" && name ≠ "."

/-- The last name of a path, unless it goes up. -/
def fileName? (path : String) : Option String := do
  let name ← (names path).getLast?
  if name = ".." then none else some name

/-- What follows the last dot of a file name, if that dot is not its first character. -/
def extension? (path : String) : Option String := do
  let name ← fileName? path
  let backward := name.toList.reverse
  match backward.dropWhile (· ≠ '.') with
  | _ :: _ :: _ => some (String.ofList (backward.takeWhile (· ≠ '.')).reverse)
  | _ => none

end Path

/-- The most bytes that a name in a path has. -/
def maxNameWidth : Nat := 255

/-- The most bytes that a path has. -/
def maxPathWidth : Nat := 4095

/-- Where a path leads: to a place below a directory, by its names, or out of it. -/
inductive Place where
  | inside (names : List String)
  | outside
  deriving DecidableEq, Repr

/-- One name up from a place. -/
def Place.up : Place → Place
  | .inside [] | .outside => .outside
  | .inside names => .inside names.dropLast

/-- Files with their bytes, and directories, by their paths. -/
structure Directory where
  files : List (List String × ByteArray) := []
  directories : List (List String) := []

namespace Directory

/-- The directory with the given files. A path that ends in a slash stands for a directory. -/
def ofPaths (entries : List (String × ByteArray)) : Directory :=
  let (directories, files) := entries.partition fun (path, _) => path.toList.getLast? = some '/'
  { files := files.map fun (path, bytes) => (Path.names path, bytes)
    directories := directories.map fun (path, _) => Path.names path }

/-- The bytes of the file at a place. -/
def bytes? (d : Directory) : Place → Option ByteArray
  | .inside names => d.files.lookup names
  | .outside => none

/-- Whether there is a directory at a place: one is listed there or below it, or a file is below
it. Every place outside is one. -/
def isDirectory (d : Directory) : Place → Bool
  | .inside names =>
    names.isEmpty || d.directories.any (names.isPrefixOf ·)
      || d.files.any fun (path, _) => names.isPrefixOf path && path ≠ names
  | .outside => true

/-- The place that a name stands for in the directory at a place, if there is one. -/
def child? (d : Directory) (name : String) : Place → Option Place
  | .inside names =>
    let next := Place.inside (names ++ [name])
    if d.isDirectory next || (d.bytes? next).isSome then some next else none
  | .outside => none

/-- Where the names of a path lead from a place. -/
def follow (d : Directory) (place : Place) : List String → Except ReadError Place
  | [] => .ok place
  | name :: rest =>
    if d.isDirectory place then
      if name = "" || name = "." then d.follow place rest
      else if name = ".." then d.follow place.up rest
      else if maxNameWidth < name.utf8ByteSize then .error .nameTooLong
      else match d.child? name place with
        | some next => d.follow next rest
        | none => .error .notFound
    else .error .notDirectory

/-- The text of the file at a path. -/
def read (d : Directory) (path : String) : Except ReadError Text :=
  if path.toList.contains '\x00' then .error .nulInPath
  else if path = "" then .error .notFound
  else if maxPathWidth < path.utf8ByteSize then .error .nameTooLong
  else do
    let start := if path.toList.head? = some '/' then Place.outside else .inside []
    let place ← d.follow start (path.splitOn "/")
    match d.bytes? place with
    | some bytes => decodeText bytes
    | none => .error .isDirectory

end Directory

end DotTarget.Cli
