import ScopeMachine.Command.Path
import ScopeMachine.Command.Perform

/-! # Imagined directories

A directory that exists only as a list of files, for carrying out requests without touching real
files. It holds just these files and no directories, and outside of it there are only the
directories above it.

* `Files.target` follows a path to its last part;
* `Files.read` and `Files.write` read and replace the file that a path leads to;
* `Directory.imagined` is the directory of some files. -/

namespace ScopeMachine

/-- Files with their texts, by name. -/
abbrev Files := List (String × String)

namespace Files

/-! ### Paths -/

/-- A directory on the way along a path. -/
inductive Place where
  /-- The directory of the files. -/
  | inside
  /-- A directory above it. -/
  | outside
deriving DecidableEq

/-- The text of the file with a name. There are no files outside. -/
def entry (files : Files) (place : Place) (name : String) : Except Path.Error String :=
  if Path.maxPartBytes < name.utf8ByteSize then .error .tooLong
  else
    match place, files.lookup name with
    | .inside, some text => .ok text
    | _, _ => .error .missing

/-- The directory that parts of a path lead to. A name never leads on, since it is not that of a
directory. -/
def walk (files : Files) : Place → List String → Except Path.Error Place
  | place, [] => .ok place
  | place, part :: parts =>
      if part = "." then walk files place parts
      else if part = ".." then walk files .outside parts
      else
        match files.entry place part with
        | .ok _ => .error .throughFile
        | .error error => .error error

/-- What the last part of a path is. -/
inductive Target where
  /-- A directory. -/
  | directory
  /-- A name in a directory, and whether it has to be that of a directory. -/
  | name (place : Place) (name : String) (closed : Bool)
deriving DecidableEq

/-- Follow a path to its last part. -/
def target (files : Files) (text : String) : Except Path.Error Target := do
  let path ← Path.parse text
  let place ← files.walk (if path.absolute then .outside else .inside) path.parts.dropLast
  match path.parts.getLast? with
  | none | some "." | some ".." => return .directory
  | some name => return .name place name path.closed

/-! ### Reading and writing -/

/-- The text of the file that a path leads to. -/
def read (files : Files) (path : String) : Except Path.Error String := do
  match ← files.target path with
  | .directory => throw .directory
  | .name place name closed =>
      let text ← files.entry place name
      if closed then throw .throughFile
      return text

/-- The files after a text has been written to a path. One that is written outside is not among
them. -/
def write (files : Files) (path text : String) : Except Path.Error Files := do
  match ← files.target path with
  | .directory | .name _ _ true => throw .directory
  | .name place name false =>
      if Path.maxPartBytes < name.utf8ByteSize then throw .tooLong
      match place with
      | .inside => return (name, text) :: files.filter fun file => file.1 != name
      | .outside => return files

/-- The files that are not among `before` in the same form. -/
def changedSince (files before : Files) : Files :=
  files.filter fun file => before.lookup file.1 != some file.2

end Files

/-- The directory of some files. -/
def Directory.imagined : Directory (StateM Files) where
  read path := do
    match (← get).read path with
    | .ok text => return .ok text
    | .error error => return .error error.message
  write path text := do
    match (← get).write path text with
    | .ok files =>
        set files
        return .ok ()
    | .error error => return .error error.message

end ScopeMachine
