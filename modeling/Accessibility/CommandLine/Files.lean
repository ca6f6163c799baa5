import Accessibility.Text.Newline
import Accessibility.Text.Utf8

/-! # Files and their names -/

namespace Accessibility.CommandLine

/-- Why a file cannot be opened. -/
inductive FileFault
  | notFound
  | isDirectory
  | notDirectory
  | nameTooLong
  /-- The name has a NUL in it. -/
  | nulInName
  deriving Repr, DecidableEq

def FileFault.message : FileFault → String
  | notFound => "No such file or directory"
  | isDirectory => "Is a directory"
  | notDirectory => "Not a directory"
  | nameTooLong => "File name too long"
  | nulInName => "embedded null byte"

/-- The directory in which the program runs: its files, and its directories beside those that hold files. A path is
a list of names. -/
structure Directory where
  files : List (List Text × List UInt8) := []
  directories : List (List Text) := []

namespace Directory

/-- The names in a written path, with those that lead nowhere. -/
def names (path : Text) : List Text :=
  path.splitOn '/'

/-- The path to a file in the directory, from its written form. -/
def pathTo (path : Text) : List Text :=
  (names path).filter fun name => !name.isEmpty && name != ['.']

def content? (d : Directory) (path : List Text) : Option (List UInt8) :=
  (d.files.find? (·.1 == path)).map (·.2)

def hasDirectory (d : Directory) (path : List Text) : Bool :=
  path.isEmpty || d.directories.any path.isPrefixOf ||
    d.files.any fun (file, _) => path.isPrefixOf file && path != file

/-- What a path leads to. -/
inductive Place
  | file (path : List Text)
  | directory (path : List Text)
  /-- A name that is not taken, in a directory. -/
  | free (path : List Text)
  /-- A directory that holds the one in which the program runs. -/
  | outside

/-- The longest name of a file, in bytes. -/
def nameLimit : Nat := 255

/-- The longest written path, in bytes. -/
def pathLimit : Nat := 4095

/-- Follows names from a directory on. -/
def follow (d : Directory) : Place → List Text → Except FileFault Place
  | place, [] => .ok place
  | .file _, _ :: _ => .error .notDirectory
  | .free _, _ :: _ => .error .notFound
  | .outside, name :: rest =>
    if name.isEmpty || name == ['.'] || name == ['.', '.'] then d.follow .outside rest else .error .notFound
  | .directory path, name :: rest =>
    if name.isEmpty || name == ['.'] then d.follow (.directory path) rest
    else if name == ['.', '.'] then d.follow (if path.isEmpty then .outside else .directory path.dropLast) rest
    else if nameLimit < (Utf8.encode name).length then .error .nameTooLong
    else
      let path := path ++ [name]
      if d.hasDirectory path then d.follow (.directory path) rest
      else if (d.content? path).isSome then d.follow (.file path) rest
      else d.follow (.free path) rest

def place (d : Directory) (path : Text) : Except FileFault Place :=
  if '\x00' ∈ path then .error .nulInName
  else if path.isEmpty then .error .notFound
  else if pathLimit < (Utf8.encode path).length then .error .nameTooLong
  else d.follow (if path.head? = some '/' then .outside else .directory []) (names path)

/-- The bytes of the file that a path leads to. -/
def read (d : Directory) (path : Text) : Except FileFault (List UInt8) :=
  match d.place path with
  | .error f => .error f
  | .ok (.file path) => .ok ((d.content? path).getD [])
  | .ok (.free _) => .error .notFound
  | .ok (.directory _) | .ok .outside => .error .isDirectory

/-- The text of a file. -/
def readText (d : Directory) (path : Text) : Except FileFault Text :=
  (d.read path).map fun bytes => Text.unifyNewlines (Utf8.decode bytes)

/-- A path without the names that lead nowhere and without those that are left again at once. -/
def simplify : List Text → List Text → List Text
  | done, [] => done.reverse
  | done, name :: rest =>
    if name.isEmpty || name == ['.'] then simplify done rest
    else if name == ['.', '.'] then
      match done with
      | last :: before => if last == ['.', '.'] then simplify (name :: done) rest else simplify before rest
      | [] => simplify [name] rest
    else simplify (name :: done) rest

/-- Puts a file in place of what its path led to. -/
def put (d : Directory) (path : List Text) (bytes : List UInt8) : Directory :=
  { d with files := (path, bytes) :: d.files.filter (·.1 != path) }

/-- The file to which a log is appended; it is made if need be. The path is simplified before it is followed. -/
def openLog (d : Directory) (path : Text) : Except FileFault (List Text × Directory) :=
  if '\x00' ∈ path then .error .nulInName
  else
    let start : Place := if path.head? = some '/' then .outside else .directory []
    match d.follow start (simplify [] (names path)) with
    | .error f => .error f
    | .ok (.file path) => .ok (path, d)
    | .ok (.free path) => .ok (path, d.put path [])
    | .ok (.directory _) | .ok .outside => .error .isDirectory

def append (d : Directory) (path : List Text) (bytes : List UInt8) : Directory :=
  d.put path ((d.content? path).getD [] ++ bytes)

end Directory

end Accessibility.CommandLine
