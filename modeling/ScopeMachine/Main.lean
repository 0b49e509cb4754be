import ScopeMachine.Command.Perform

/-! # The command line program

Reads arguments, carries out the request that they make on the current directory, and writes what
it leads to. -/

namespace ScopeMachine

/-- The wording of a failure to reach a file. -/
def fileErrorText (error : IO.Error) : String :=
  match error with
  | .noFileOrDirectory _ code details | .permissionDenied _ code details
  | .inappropriateType _ code details | .alreadyExists _ code details
  | .resourceExhausted _ code details | .invalidArgument _ code details =>
      details ++ " (os error " ++ code.toNat.repr ++ ")"
  | other => toString other

/-- The directory in which the program runs. -/
def currentDirectory : Directory IO where
  read file := do
    try
      let bytes ← IO.FS.readBinFile file
      match String.fromUTF8? bytes with
      | some text => return .ok text
      | none => return .error "stream did not contain valid UTF-8"
    catch error => return .error (fileErrorText error)
  write file text := do
    try
      IO.FS.writeFile file text
      return .ok ()
    catch error => return .error (fileErrorText error)

/-- A number whose digits in base 256 are the given bytes. -/
def ofBigEndian (bytes : ByteArray) : Nat :=
  bytes.toList.foldl (fun value byte => 256 * value + byte.toNat) 0

/-- More steps than any call takes. -/
def unlimitedSteps : Nat := 1000000000000000000

end ScopeMachine

/-- Carry out the request that the arguments make. -/
def main (arguments : List String) : IO UInt32 := do
  let entropy ← IO.getRandomBytes 16
  let fresh := ScopeMachine.ModuleId.random (BitVec.ofNat 128 (ScopeMachine.ofBigEndian entropy))
  let outputs ← ScopeMachine.Request.performAll ScopeMachine.currentDirectory fresh
    ScopeMachine.unlimitedSteps arguments
  IO.print outputs.stdout
  IO.eprint outputs.stderr
  return UInt32.ofNat outputs.exit
