import ScopeMachine.Error
import ScopeMachine.Json

/-! # Errors as JSON

An error as a record: the name of what went wrong, its kind and its wording, and for faults and
scope violations the name of the cause. Fault codes are texts, like all 64-bit numbers. -/

namespace ScopeMachine

/-! ### Names -/

/-- The name of an error of the byte format. -/
def CodecError.name : CodecError → String
  | endOfData _ => "EndOfData"
  | registerOutOfRange _ => "RegisterOutOfRange"
  | invalidOpcode _ => "InvalidOpcode"
  | parameterOutOfRange .. => "ParameterOutOfRange"
  | instructionTooLarge _ => "InstructionTooLarge"

/-- The name of a fault. -/
def ExecFault.name : ExecFault → String
  | thrown _ => "Thrown"
  | indexOutOfRange .. => "IndexOutOfRange"
  | byteRange .. => "ByteRange"
  | nullReference _ => "NullReference"
  | callDepthExceeded _ => "CallDepthExceeded"

/-- The name of a violation. -/
def ScopeViolation.name : ScopeViolation → String
  | notAllocated _ => "NotAllocated"
  | nothingToFree _ => "NothingToFree"
  | tooManyFrees .. => "TooManyFrees"
  | staticRegister _ => "StaticRegister"
  | foreignFrame _ => "ForeignFrame"
  | mergeMismatch _ => "MergeMismatch"
  | unbalanced _ => "Unbalanced"
  | fallsOffEnd => "FallsOffEnd"

/-- The name of a kind of error. -/
def ErrorKind.name : ErrorKind → String
  | range => "Range"
  | notFound => "NotFound"
  | operation => "Operation"
  | type => "Type"
  | argument => "Argument"
  | encoding => "Encoding"
  | environment => "Environment"
  | execution => "Execution"

/-- The name of an error: that of its kind, except that scope violations have one of their own. -/
def Error.name : Error → String
  | .scope .. => "Scope"
  | error => error.kind.name

/-! ### Records -/

/-- The fields of the record of an error of the byte format. -/
def CodecError.fields (error : CodecError) : List (String × Json) :=
  [("error", .str error.name), ("message", .str error.message)]

namespace Error

/-- The fields about the cause of an error. -/
def causeFields : Error → List (String × Json)
  | .execution fault => [("fault", .str fault.name), ("code", .str fault.code.toInt.repr)]
  | .scope _ _ violation => [("violation", .str violation.name)]
  | _ => []

/-- The fields of the record of an error. -/
def fields (error : Error) : List (String × Json) :=
  [("error", .str error.name), ("kind", .str error.kind.name), ("message", .str error.message)]
    ++ error.causeFields

end Error

end ScopeMachine
