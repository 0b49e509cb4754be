import ScopeMachine.Instruction
import ScopeMachine.CodecError
import ScopeMachine.Json

/-! # Instructions as JSON

An instruction as a row: its mnemonic, and its operands in the order in which they are written.
Operands are numbers, except that an eight-byte literal is written as a text, since many readers of
JSON keep fewer than 64 bits of a number.

* `Instruction.toJson` writes a row;
* `Instruction.ofJson` reads one, its operands from left to right. -/

namespace ScopeMachine

/-- Why a row is no instruction. -/
inductive RowError where
  /-- It has another form than a row. -/
  | malformed
  /-- It names a register that does not exist. -/
  | codec (error : CodecError)
deriving DecidableEq

/-- A part of a row that must have the right form. -/
def RowError.require {α : Type} : Option α → Except RowError α
  | some value => .ok value
  | none => .error .malformed

/-! ### Operands -/

namespace OperandKind

/-- An operand of a row. -/
def toJson : (kind : OperandKind) → kind.Value → Json
  | register, reg => .nat reg.index
  | literal1, literal => .int literal.toInt
  | literal2, literal => .int literal.toInt
  | literal4, literal => .int literal.toInt
  | literal8, literal => .str literal.toInt.repr
  | jumpOffset, offset => .int offset.toInt
  | scopeCount, count => .nat count.toNat
  | byteOffset, offset => .nat offset.toNat
  | referenceSlot, slot => .nat slot.toNat
  | procedure, proc => .nat proc.index.toNat

/-- A signed integer of a kind that has `half` negative values. -/
def signed (half : Nat) (json : Json) : Except RowError Int :=
  RowError.require (json.int?.filter fun value => -(half : Int) ≤ value && value < half)

/-- An unsigned integer of 32 bits. -/
def unsigned (json : Json) : Except RowError UInt32 :=
  (RowError.require (json.natBelow? UInt32.size)).map UInt32.ofNat

/-- The operand of a row. -/
def ofJson : (kind : OperandKind) → Json → Except RowError kind.Value
  | register, json => do
      match RegId.ofIndex (← unsigned json).toNat with
      | .ok reg => return reg
      | .error error => throw (.codec error)
  | literal1, json => (signed 0x80 json).map Int8.ofInt
  | literal2, json => (signed 0x8000 json).map Int16.ofInt
  | literal4, json => (signed 0x80000000 json).map Int32.ofInt
  | literal8, json => RowError.require json.word?
  | jumpOffset, json => (signed 0x80000000 json).map Int32.ofInt
  | scopeCount, json => unsigned json
  | byteOffset, json => unsigned json
  | referenceSlot, json => unsigned json
  | procedure, json => (unsigned json).map ProcId.mk

end OperandKind

namespace Operands

/-- The operands of a row. -/
def toJson : (kinds : List OperandKind) → Operands kinds → List Json
  | [], _ => []
  | kind :: kinds, (value, values) => kind.toJson value :: toJson kinds values

/-- The operands that a row gives, from left to right. -/
def ofJson : (kinds : List OperandKind) → List Json → Except RowError (Operands kinds)
  | [], [] => .ok ()
  | kind :: kinds, json :: rest => do
      let value ← kind.ofJson json
      return (value, ← ofJson kinds rest)
  | _, _ => .error .malformed

end Operands

/-! ### Instructions -/

/-- The opcode with a given mnemonic. -/
def Opcode.ofMnemonic? (name : String) : Option Opcode :=
  all.find? fun opcode => opcode.mnemonic == name

namespace Instruction

/-- The row of an instruction. -/
def toJson (instruction : Instruction) : Json :=
  .arr (.str instruction.opcode.mnemonic
    :: Operands.toJson instruction.opcode.signature instruction.operands)

/-- The instruction that a row describes. -/
def ofJson (json : Json) : Except RowError Instruction :=
  match json with
  | .arr (.str name :: operands) => do
      let opcode ← RowError.require (Opcode.ofMnemonic? name)
      return assemble opcode (← Operands.ofJson opcode.signature operands)
  | _ => .error .malformed

end Instruction

end ScopeMachine
