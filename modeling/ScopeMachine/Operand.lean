import ScopeMachine.Id

/-! # Operand kinds of the instruction set

Every instruction is an opcode followed by a fixed sequence of operands. `OperandKind` says what
an operand means, and `OperandKind.Value` is the type of the values it ranges over, so that an
operand outside its domain cannot be written down. -/

namespace ScopeMachine

/-- What one operand of an instruction means. -/
inductive OperandKind where
  /-- A register. -/
  | register
  /-- A one-byte literal. -/
  | literal1
  /-- A two-byte literal. -/
  | literal2
  /-- A four-byte literal. -/
  | literal4
  /-- An eight-byte literal. -/
  | literal8
  /-- A jump distance in instructions, relative to the jump. -/
  | jumpOffset
  /-- A number of scopes. -/
  | scopeCount
  /-- A byte position within an element. -/
  | byteOffset
  /-- An owned reference slot. -/
  | referenceSlot
  /-- A procedure. -/
  | procedure
deriving DecidableEq

namespace OperandKind

/-- The values an operand of each kind ranges over. -/
abbrev Value : OperandKind → Type
  | register => RegId
  | literal1 => Int8
  | literal2 => Int16
  | literal4 => Int32
  | literal8 => Int64
  | jumpOffset => Int32
  | scopeCount => UInt32
  | byteOffset => UInt32
  | referenceSlot => UInt32
  | procedure => ProcId

/-- How an operand is called in a message about a value outside its domain. -/
def label : OperandKind → String
  | register => "register"
  | literal1 => "cpi1 literal"
  | literal2 => "cpi2 literal"
  | literal4 => "cpi4 literal"
  | literal8 => "cpi8 literal"
  | jumpOffset => "jump offset"
  | scopeCount => "scope count"
  | byteOffset => "byte offset"
  | referenceSlot => "reference slot"
  | procedure => "procedure id"

end OperandKind

/-- The operands of one instruction whose operand kinds are given. -/
abbrev Operands : List OperandKind → Type
  | [] => Unit
  | kind :: kinds => kind.Value × Operands kinds

end ScopeMachine
