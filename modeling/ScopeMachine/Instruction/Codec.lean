import ScopeMachine.Instruction
import ScopeMachine.Varint

/-! # Encoded instructions

An encoded instruction is the opcode byte followed by one variable-length integer for each operand.
Jump distances and literals are written as signed integers, everything else as unsigned ones.

* `Instruction.encode` writes an instruction and `Instruction.decode` reads one from the front of a
  byte string, reporting the bytes it took;
* `Instruction.encodeAll` and `Instruction.decodeAll` do the same for a whole procedure.

The reader accepts integers that are longer than necessary, as long as every value is in its
operand's domain and the instruction stays within `maxInstructionSize` bytes. -/

namespace ScopeMachine

/-! ### Operands -/

namespace OperandKind

/-- The written form of one operand. -/
def encode : (kind : OperandKind) → kind.Value → List UInt8
  | register, reg => Varint.encodeUnsigned (UInt64.ofNat reg.index)
  | literal1, literal => Varint.encodeSigned (Int64.ofInt literal.toInt)
  | literal2, literal => Varint.encodeSigned (Int64.ofInt literal.toInt)
  | literal4, literal => Varint.encodeSigned (Int64.ofInt literal.toInt)
  | literal8, literal => Varint.encodeSigned literal
  | jumpOffset, offset => Varint.encodeSigned (Int64.ofInt offset.toInt)
  | scopeCount, count => Varint.encodeUnsigned (UInt64.ofNat count.toNat)
  | byteOffset, offset => Varint.encodeUnsigned (UInt64.ofNat offset.toNat)
  | referenceSlot, slot => Varint.encodeUnsigned (UInt64.ofNat slot.toNat)
  | procedure, proc => Varint.encodeUnsigned (UInt64.ofNat proc.index.toNat)

/-- The value of a 32-bit operand, if it fits. -/
def narrowUnsigned (kind : OperandKind) (value : UInt64) : Except CodecError UInt32 :=
  if value.toNat < UInt32.size then .ok (UInt32.ofNat value.toNat)
  else .error (.parameterOutOfRange kind value.toNat)

/-- The register with a written index. An index beyond 32 bits is reported as the largest one. -/
def narrowRegister (value : UInt64) : Except CodecError RegId :=
  if value.toNat < UInt32.size then RegId.ofIndex value.toNat
  else .error (.registerOutOfRange (UInt32.size - 1))

/-- The value of a signed operand that has `half` negative values, if it fits. -/
def narrowSigned (kind : OperandKind) (half : Nat) (value : Int64) : Except CodecError Int :=
  if -(half : Int) ≤ value.toInt ∧ value.toInt < half then .ok value.toInt
  else .error (.parameterOutOfRange kind value.toInt)

/-- The value of an operand, from the integer read for it. -/
def ofUnsigned {α : Type} (narrow : UInt64 → Except CodecError α) (bytes : List UInt8) :
    Except CodecError (α × Nat) := do
  let (value, used) ← Varint.decodeUnsigned bytes
  return (← narrow value, used)

/-- The value of a signed operand, from the integer read for it. -/
def ofSigned {α : Type} (narrow : Int64 → Except CodecError α) (bytes : List UInt8) :
    Except CodecError (α × Nat) := do
  let (value, used) ← Varint.decodeSigned bytes
  return (← narrow value, used)

/-- Read one operand from the front of a byte string; its value and the number of bytes read. -/
def decode : (kind : OperandKind) → List UInt8 → Except CodecError (kind.Value × Nat)
  | register => ofUnsigned narrowRegister
  | literal1 => ofSigned fun value => (narrowSigned literal1 0x80 value).map Int8.ofInt
  | literal2 => ofSigned fun value => (narrowSigned literal2 0x8000 value).map Int16.ofInt
  | literal4 => ofSigned fun value => (narrowSigned literal4 0x80000000 value).map Int32.ofInt
  | literal8 => ofSigned fun value => .ok value
  | jumpOffset => ofSigned fun value => (narrowSigned jumpOffset 0x80000000 value).map Int32.ofInt
  | scopeCount => ofUnsigned (narrowUnsigned scopeCount)
  | byteOffset => ofUnsigned (narrowUnsigned byteOffset)
  | referenceSlot => ofUnsigned (narrowUnsigned referenceSlot)
  | procedure => ofUnsigned fun value => (narrowUnsigned procedure value).map ProcId.mk

end OperandKind

namespace Operands

/-- The written form of a row of operands. -/
def encode : (kinds : List OperandKind) → Operands kinds → List UInt8
  | [], _ => []
  | kind :: kinds, (value, values) => kind.encode value ++ encode kinds values

/-- Read a row of operands from the front of a byte string. Offsets in errors are relative to that
front. -/
def decode : (kinds : List OperandKind) → List UInt8 → Except CodecError (Operands kinds × Nat)
  | [], _ => .ok ((), 0)
  | kind :: kinds, bytes =>
      match kind.decode bytes with
      | .error error => .error error
      | .ok (value, used) =>
          match decode kinds (bytes.drop used) with
          | .error error => .error (error.shift used)
          | .ok (values, more) => .ok ((value, values), used + more)

end Operands

/-! ### Instructions -/

namespace Instruction

/-- The written form of an instruction. -/
def encode (instruction : Instruction) : List UInt8 :=
  instruction.opcode.byte :: Operands.encode instruction.opcode.signature instruction.operands

/-- The size of an instruction's written form. -/
def encodedSize (instruction : Instruction) : Nat :=
  instruction.encode.length

/-- Read one instruction from the front of a byte string; the instruction and the number of bytes
it took. Bytes after it are not looked at. -/
def decode : List UInt8 → Except CodecError (Instruction × Nat)
  | [] => .error (.endOfData 0)
  | byte :: rest =>
      match Opcode.ofByte? byte with
      | none => .error (.invalidOpcode byte)
      | some opcode =>
          match Operands.decode opcode.signature rest with
          | .error error => .error (error.shift 1)
          | .ok (operands, used) =>
              if maxInstructionSize < used + 1 then .error (.instructionTooLarge (used + 1))
              else .ok (assemble opcode operands, used + 1)

/-! ### Instruction streams -/

/-- The written form of a list of instructions. -/
def encodeAll (code : List Instruction) : List UInt8 :=
  code.flatMap encode

/-- Read instructions to the end of a byte string that starts `position` bytes into the whole,
after passing over `skip` bytes that belong to the instruction read last. -/
def decodeFrom : (skip position : Nat) → (read : Array Instruction) → List UInt8 →
    Except CodecError (Array Instruction)
  | _, _, read, [] => .ok read
  | skip + 1, position, read, _ :: rest => decodeFrom skip (position + 1) read rest
  | 0, position, read, byte :: rest =>
      match decode (byte :: rest) with
      | .error error => .error (error.shift position)
      | .ok (instruction, used) =>
          decodeFrom (used - 1) (position + 1) (read.push instruction) rest

/-- Read a whole byte string as instructions. -/
def decodeAll (bytes : List UInt8) : Except CodecError (Array Instruction) :=
  decodeFrom 0 0 #[] bytes

end Instruction

end ScopeMachine
