import ScopeMachine.CodecError
import ScopeMachine.ModuleId

/-! # Errors

What can go wrong while building, registering and running modules. Errors are grouped by kind, and
each constructor is one cause; `Error.message` gives the wording.

* `ExecFault` are the faults of a running procedure, with the codes of `ExecFault.code`;
* `ScopeViolation` are the ways in which code breaks the scope discipline;
* `Error.kind` puts scope violations among the misuses. -/

namespace ScopeMachine

/-! ### Faults of a running procedure -/

/-- A fault raised by a running procedure. -/
inductive ExecFault where
  /-- A fault raised by the program, with its code. -/
  | thrown (code : Int64)
  /-- An element position beyond the elements of the variable. -/
  | indexOutOfRange (reg : RegId) (index : Int) (len : Nat)
  /-- A byte range beyond the bytes of the element. -/
  | byteRange (reg : RegId) (start stop len : Nat)
  /-- Use of a register whose frame is null or missing. -/
  | nullReference (reg : RegId)
  /-- More nested calls than allowed. -/
  | callDepthExceeded (limit : Nat)
deriving DecidableEq

namespace ExecFault

/-- The number that identifies a fault. The machine's own faults have small negative numbers. -/
def code : ExecFault → Int64
  | thrown code => code
  | indexOutOfRange .. => -1
  | byteRange .. => -2
  | nullReference .. => -3
  | callDepthExceeded .. => -4

/-- The wording of a fault. -/
def message : ExecFault → String
  | thrown code => "thrown fault code " ++ code.toInt.repr
  | indexOutOfRange reg index len =>
      "index " ++ index.repr ++ " out of range for " ++ reg.text ++ " (" ++ len.repr ++ " elements)"
  | byteRange reg start stop len =>
      "bytes " ++ start.repr ++ ".." ++ stop.repr ++ " out of range for " ++ reg.text ++ " ("
        ++ len.repr ++ " bytes)"
  | nullReference reg => "null reference in " ++ reg.text
  | callDepthExceeded limit => "call depth exceeded (max " ++ limit.repr ++ ")"

end ExecFault

/-! ### Violations of the scope discipline -/

/-- A violation of the scope discipline. -/
inductive ScopeViolation where
  /-- Use of a register that has no open scope. -/
  | notAllocated (reg : RegId)
  /-- Closing a scope of a register that has none open here. -/
  | nothingToFree (reg : RegId)
  /-- Closing more scopes than are open. -/
  | tooManyFrees (requested opened : Nat)
  /-- Opening or closing a scope of a register that the machine allocates. -/
  | staticRegister (reg : RegId)
  /-- Binding a frame that the procedure did not open. -/
  | foreignFrame (reg : RegId)
  /-- Paths that meet with different open scopes. -/
  | mergeMismatch (target : Nat)
  /-- Returning with open scopes, the oldest first. -/
  | unbalanced (opened : List RegId)
  /-- Control that runs past the last instruction. -/
  | fallsOffEnd
deriving DecidableEq

/-- The wording of a violation. -/
def ScopeViolation.message : ScopeViolation → String
  | notAllocated reg => reg.text ++ " used outside any scope"
  | nothingToFree reg => reg.text ++ " has no open scope to free"
  | tooManyFrees requested opened =>
      "freeing " ++ requested.repr ++ " scopes but only " ++ opened.repr ++ " open"
  | staticRegister reg => reg.text ++ " is allocated by the VM and cannot be scoped"
  | foreignFrame reg => reg.text ++ " was not opened by this procedure"
  | mergeMismatch target =>
      "paths into instruction " ++ target.repr ++ " disagree on open scopes"
  | unbalanced opened =>
      "return with open scopes [" ++ String.intercalate ", " (opened.map RegId.text) ++ "]"
  | fallsOffEnd => "control falls off the end of the code"

/-! ### Causes by kind -/

/-- A value, position or size that is out of bounds. -/
inductive RangeCause where
  /-- A variable type whose elements together exceed 32 bits of bytes. -/
  | typeSize (count bytes : Nat)
  /-- A variable type with too many reference slots. -/
  | referenceSlots (slots : Nat) (vtype : VarTypeId)
  /-- A register whose variable exceeds 32 bits of bytes. -/
  | registerSize (count : Nat) (vtype : VarTypeId)
  /-- A jump to before the first instruction. -/
  | jumpBeforeStart (position : Nat) (proc : ProcId)
  /-- A procedure with more instructions than 32 bits can count. -/
  | instructionCount (proc : ProcId)
  /-- A jump that leads outside the code of its procedure. -/
  | jumpOutside (position : Nat) (proc : ProcId) (offset : Int)
  /-- Execution at a position without an instruction. -/
  | noInstruction (proc : ProcId) (position : Nat)
  /-- Execution of a jump to before the first instruction. -/
  | jumpLeaves (position : Nat)
  /-- Access to a word that the element does not hold. -/
  | noWord (element count : Nat)
  /-- Access to an owned slot that the variable does not have. -/
  | noOwnedSlot (slot element : Nat)
  /-- Access to a native slot that the variable does not have. -/
  | noNativeSlot (slot element : Nat)
  /-- A variable of more than 32 bits of bytes. -/
  | variableSize (count : Nat) (vtype : VarTypeId)
  /-- Bytes or a register outside the instruction format. -/
  | codec (error : CodecError)
deriving DecidableEq

/-- The wording of a cause. -/
def RangeCause.message : RangeCause → String
  | typeSize count bytes =>
      count.repr ++ " elements of " ++ bytes.repr ++ " bytes overflow the type size"
  | referenceSlots slots vtype => slots.repr ++ " reference slots overflow " ++ vtype.text
  | registerSize count vtype =>
      count.repr ++ " elements of " ++ vtype.text ++ " overflow the register size"
  | jumpBeforeStart position proc =>
      "jump at " ++ position.repr ++ " in " ++ proc.text ++ " lands before the first instruction"
  | instructionCount proc => proc.text ++ " has too many instructions"
  | jumpOutside position proc offset =>
      "jump at " ++ position.repr ++ " in " ++ proc.text ++ " by " ++ offset.repr
        ++ " leaves the procedure"
  | noInstruction proc position => proc.text ++ " has no instruction " ++ position.repr
  | jumpLeaves position => "jump at " ++ position.repr ++ " leaves the procedure"
  | noWord element count =>
      "no word at element " ++ element.repr ++ " of " ++ count.repr ++ " elements"
  | noOwnedSlot slot element =>
      "no owned reference slot " ++ slot.repr ++ " at element " ++ element.repr
  | noNativeSlot slot element =>
      "no native reference slot " ++ slot.repr ++ " at element " ++ element.repr
  | variableSize count vtype => count.repr ++ " elements of " ++ vtype.text ++ " are too large"
  | codec error => error.message

/-- Something that does not exist, or no longer. -/
inductive MissingCause where
  /-- A variable type outside the table. -/
  | vtype (id : VarTypeId)
  /-- A procedure type outside the table. -/
  | ptype (id : ProcTypeId)
  /-- A register outside the table. -/
  | register (id : RegId)
  /-- A procedure outside the table. -/
  | procedure (id : ProcId)
  /-- The type of a register, outside the table. -/
  | typeOf (id : VarTypeId) (reg : RegId)
  /-- A procedure that is no entry point. -/
  | entryPoint (id : ProcId)
  /-- A procedure that is no entry point of a registered module. -/
  | entryPointIn (id : ProcId) (module : ModuleId)
  /-- A module that is not registered. -/
  | unregistered (id : ModuleId)
  /-- A module that has been destroyed. -/
  | destroyed (id : ModuleId)
deriving DecidableEq

/-- The wording of a cause. -/
def MissingCause.message : MissingCause → String
  | vtype id => "variable type " ++ id.text
  | ptype id => "procedure type " ++ id.text
  | register id => "register " ++ id.text
  | procedure id => "procedure " ++ id.text
  | typeOf id reg => "type " ++ id.text ++ " of " ++ reg.text
  | entryPoint id => "entry point " ++ id.text
  | entryPointIn id module => "entry point " ++ id.text ++ " in module " ++ module.text
  | unregistered id => "module " ++ id.text
  | destroyed id => "module " ++ id.text ++ " has been destroyed"

/-- A request that the current state does not allow. -/
inductive MisuseCause where
  /-- Adding slots to a type after the first instruction. -/
  | shapeFrozen (vtype : VarTypeId)
  /-- Calling a module that is not compiled. -/
  | notCompiled (module : ModuleId)
  /-- Closing a scope that the activation did not open. -/
  | noOpenScope (reg : RegId)
  /-- Closing more scopes than the activation opened. -/
  | noScopeLeft
  /-- Closing a frame of a register that has none. -/
  | noFrameToClose (reg : RegId)
  /-- Binding a frame of a register that has none. -/
  | noFrameToRebind (reg : RegId)
  /-- Continuing without an activation. -/
  | callStackUnderflow
  /-- A native that reports failure. -/
  | nativeFailed
deriving DecidableEq

/-- The wording of a cause. -/
def MisuseCause.message : MisuseCause → String
  | shapeFrozen vtype =>
      vtype.text ++ " cannot change shape once instructions have been added"
  | notCompiled module => "module " ++ module.text ++ " is not compiled"
  | noOpenScope reg => reg.text ++ " has no open scope"
  | noScopeLeft => "no open scope left to free"
  | noFrameToClose reg => reg.text ++ " has no frame to close"
  | noFrameToRebind reg => reg.text ++ " has no frame to rebind"
  | callStackUnderflow => "call stack underflow"
  | nativeFailed => "native failed"

/-- A mismatch between an instruction or a slot and the types it meets. -/
inductive TypeCause where
  /-- An element too small for a word. -/
  | notWord (reg : RegId) (bytes : Nat)
  /-- An element too small for a literal or a copy. -/
  | tooNarrow (reg : RegId) (bytes needed : Nat)
  /-- A register that cannot be bound. -/
  | notRebindable (reg : RegId)
  /-- Registers whose elements differ in shape. -/
  | layoutsDiffer (left right : RegId)
  /-- A byte range beyond the element. -/
  | byteWindow (start stop available : Nat) (reg : RegId)
  /-- An owned slot for another type. -/
  | slotMismatch (slot : Nat) (owner : RegId) (held : VarTypeId) (referent : RegId)
      (actual : VarTypeId)
  /-- An owned slot that the type does not have. -/
  | noSlot (owner : RegId) (slot : Nat)
  /-- A procedure that other procedures cannot call. -/
  | notCallable (proc : ProcId)
  /-- A referent of another type than the owned slot's. -/
  | referentMismatch (slot : Nat) (held actual : VarTypeId)
deriving DecidableEq

/-- The wording of a cause. -/
def TypeCause.message : TypeCause → String
  | notWord reg bytes => reg.text ++ " holds " ++ bytes.repr ++ " bytes per element, not a word"
  | tooNarrow reg bytes needed =>
      reg.text ++ " holds " ++ bytes.repr ++ " bytes per element, need " ++ needed.repr
  | notRebindable reg => reg.text ++ " is not a non-fixed reference register"
  | layoutsDiffer left right =>
      left.text ++ " and " ++ right.text ++ " have different element layouts"
  | byteWindow start stop available reg =>
      "bytes " ++ start.repr ++ ".." ++ stop.repr ++ " exceed the " ++ available.repr
        ++ " bytes of " ++ reg.text
  | slotMismatch slot owner held referent actual =>
      "slot " ++ slot.repr ++ " of " ++ owner.text ++ " holds " ++ held.text ++ ", but "
        ++ referent.text ++ " is " ++ actual.text
  | noSlot owner slot => owner.text ++ " has no owned reference slot " ++ slot.repr
  | notCallable proc => proc.text ++ " is not callable with CALL"
  | referentMismatch slot held actual =>
      "owned slot " ++ slot.repr ++ " holds " ++ held.text ++ ", not " ++ actual.text

/-- An argument that is invalid by itself. -/
inductive ArgumentCause where
  /-- Reference slots for the word type. -/
  | wordTypeReferences
  /-- Register flags without a name. -/
  | registerFlags (bits : UInt8)
  /-- A register that is both persistent and thread-local. -/
  | persistentThreadLocal
  /-- A register with another number of elements than its type. -/
  | registerCount (vtype : VarTypeId) (fixed count : Nat)
  /-- A constant of a type whose size is not fixed. -/
  | constantDynamic (vtype : VarTypeId)
  /-- A constant of another size than its type. -/
  | constantSize (given : Nat) (vtype : VarTypeId) (size : Nat)
  /-- Procedure type flags that are empty or without a name. -/
  | procTypeFlags (bits : UInt8)
  /-- A reserved register for arguments. -/
  | reservedIo (reg : RegId)
  /-- A static register for arguments. -/
  | staticIo (reg : RegId)
  /-- Procedure flags without a name. -/
  | procFlags (bits : UInt8)
  /-- A description whose first type is not the word type. -/
  | firstType
  /-- A description whose first register is not the error register. -/
  | firstRegister
  /-- An initial value of a register that is not just persistent. -/
  | initialValue
  /-- Closing no scopes. -/
  | scopeCount
  /-- A variable with another number of elements than its type. -/
  | elementCount (vtype : VarTypeId) (fixed count : Nat)
  /-- An argument whose type does not fit the procedure. -/
  | ioMismatch (given : VarTypeId) (io : RegId) (expected : VarTypeId)
deriving DecidableEq

/-- A number in hexadecimal, behind `0x`. -/
def hexLiteral (number : Nat) : String := "0x" ++ Text.hexText number

/-- The wording of a cause. -/
def ArgumentCause.message : ArgumentCause → String
  | wordTypeReferences => "the word type cannot hold references"
  | registerFlags bits => "unknown register flags " ++ hexLiteral bits.toNat
  | persistentThreadLocal => "a register cannot be both persistent and thread-local"
  | registerCount vtype fixed count =>
      vtype.text ++ " has " ++ fixed.repr ++ " elements, register asks for " ++ count.repr
  | constantDynamic vtype =>
      "constant register needs a fixed-size type, " ++ vtype.text ++ " is dynamic"
  | constantSize given vtype size =>
      "constant of " ++ given.repr ++ " bytes for " ++ vtype.text ++ " of " ++ size.repr ++ " bytes"
  | procTypeFlags bits =>
      "procedure type flags " ++ hexLiteral bits.toNat ++ " must be a non-empty known set"
  | reservedIo reg => reg.text ++ " is reserved and cannot carry arguments"
  | staticIo reg => reg.text ++ " is persistent or thread-local and cannot carry arguments"
  | procFlags bits => "unknown procedure flags " ++ hexLiteral bits.toNat
  | firstType => "type 0 must be the word type"
  | firstRegister => "register 0 must be the error register"
  | initialValue => "only persistent registers carry an initial value"
  | scopeCount => "scope count must be positive"
  | elementCount vtype fixed count =>
      vtype.text ++ " has " ++ fixed.repr ++ " elements, not " ++ count.repr
  | ioMismatch given io expected =>
      "io variable of " ++ given.text ++ " does not match " ++ io.text ++ " (" ++ expected.text
        ++ ")"

/-! ### Errors -/

/-- The kinds of error. -/
inductive ErrorKind where
  /-- A value, position or size out of bounds. -/
  | range
  /-- Something that does not exist. -/
  | notFound
  /-- A request that the current state does not allow. -/
  | operation
  /-- A mismatch of types. -/
  | type
  /-- An invalid argument. -/
  | argument
  /-- Bytes that are no code. -/
  | encoding
  /-- No way to compile. -/
  | environment
  /-- A fault of a running procedure. -/
  | execution
deriving DecidableEq

/-- An error of the builder, the module lifecycle or an execution. -/
inductive Error where
  /-- A value, position or size out of bounds. -/
  | range (cause : RangeCause)
  /-- Something that does not exist. -/
  | missing (cause : MissingCause)
  /-- A request that the current state does not allow. -/
  | misuse (cause : MisuseCause)
  /-- A mismatch of types. -/
  | type (cause : TypeCause)
  /-- An invalid argument. -/
  | argument (cause : ArgumentCause)
  /-- Bytes that are no code. -/
  | encoding (error : CodecError)
  /-- No code generator is available. -/
  | noCodeGenerator
  /-- A fault of a running procedure. -/
  | execution (fault : ExecFault)
  /-- A violation of the scope discipline, with its procedure and instruction. -/
  | scope (proc : ProcId) (position : Nat) (violation : ScopeViolation)
deriving DecidableEq

namespace Error

/-- The kind of an error. -/
def kind : Error → ErrorKind
  | range _ => .range
  | missing _ => .notFound
  | misuse _ | scope .. => .operation
  | type _ => .type
  | argument _ => .argument
  | encoding _ => .encoding
  | noCodeGenerator => .environment
  | execution _ => .execution

/-- The wording of an error. -/
def message : Error → String
  | range cause => "range fault: " ++ cause.message
  | missing cause => "not found: " ++ cause.message
  | misuse cause => "invalid operation: " ++ cause.message
  | type cause => "type fault: " ++ cause.message
  | argument cause => "invalid argument: " ++ cause.message
  | encoding error => "encoding fault: " ++ error.message
  | noCodeGenerator => "environment fault: no code generator"
  | execution fault => "execution fault: " ++ fault.message
  | scope proc position violation =>
      "scope fault in " ++ proc.text ++ " at instruction " ++ position.repr ++ ": "
        ++ violation.message

/-- A failure of the byte format as an error. Bytes that do not read as an instruction are an
encoding fault, values that do not fit are a range fault. -/
def ofCodec : CodecError → Error
  | error@(.endOfData _) | error@(.invalidOpcode _) => encoding error
  | error@(.registerOutOfRange _) | error@(.parameterOutOfRange ..)
  | error@(.instructionTooLarge _) => range (.codec error)

end Error

/-- A result of the byte format as a result with general errors. -/
def liftCodec {α : Type} : Except CodecError α → Except Error α
  | .ok value => .ok value
  | .error error => .error (.ofCodec error)

/-- The value that an option holds, or an error. -/
def orError {α : Type} (error : Error) : Option α → Except Error α
  | some value => .ok value
  | none => .error error

end ScopeMachine
