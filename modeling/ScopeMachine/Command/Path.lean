import ScopeMachine.Text

/-! # Paths

A path names a file by way of directories. It is a row of parts with slashes between them; a part of
one dot stays in a directory, and one of two dots leads to the directory above.

* `Path.parse` reads a path; a text that is empty or too long is none;
* `Path.Error` says why a path does not lead to a file. -/

namespace ScopeMachine

/-- A path. -/
structure Path where
  /-- Whether it starts at the root, and not at the directory in which the program runs. -/
  absolute : Bool
  /-- The parts between slashes that are not empty. -/
  parts : List String
  /-- Whether a slash stands behind the last part, so that it has to be a directory. -/
  closed : Bool
deriving DecidableEq

namespace Path

/-- Why a path does not lead to a file. -/
inductive Error where
  /-- A part of the path does not exist. -/
  | missing
  /-- The path leads through a file. -/
  | throughFile
  /-- The path leads to a directory. -/
  | directory
  /-- The path, or a part of it, has too many bytes. -/
  | tooLong
deriving DecidableEq

/-- The wording for a path that does not lead to a file. -/
def Error.message : Error → String
  | missing => "No such file or directory (os error 2)"
  | throughFile => "Not a directory (os error 20)"
  | directory => "Is a directory (os error 21)"
  | tooLong => "File name too long (os error 36)"

/-- The largest number of bytes of a path. -/
def maxBytes : Nat := 4095

/-- The largest number of bytes of a part of a path. -/
def maxPartBytes : Nat := 255

/-- Read a path. -/
def parse (text : String) : Except Error Path :=
  if text = "" then .error .missing
  else if maxBytes < text.utf8ByteSize then .error .tooLong
  else
    let parts := (Text.splitAt '/' text.toList).map String.ofList
    .ok ⟨parts.head? = some "", parts.filter (· ≠ ""), parts.getLast? = some ""⟩

end Path

end ScopeMachine
