import ScopeMachine.Operand
import ScopeMachine.Text

/-! # Errors of the byte format

The ways in which a byte string fails to be an encoded instruction or instruction stream. Decoders
report the end of the data by its offset, and `CodecError.shift` moves that offset when a decoder
ran on a later part of a longer input. -/

namespace ScopeMachine

/-- The largest number of bytes one encoded instruction may occupy. -/
def maxInstructionSize : Nat := 12

/-- A failure to encode or decode. -/
inductive CodecError where
  /-- The bytes ended, at this offset, before the value they encode did. -/
  | endOfData (offset : Nat)
  /-- A register index outside the 14-bit range. -/
  | registerOutOfRange (index : Nat)
  /-- A first byte that names no instruction. -/
  | invalidOpcode (byte : UInt8)
  /-- An operand whose value does not fit its kind. -/
  | parameterOutOfRange (kind : OperandKind) (value : Int)
  /-- An instruction that occupies too many bytes. -/
  | instructionTooLarge (size : Nat)
deriving DecidableEq

namespace CodecError

/-- Move an end-of-data offset forward; every other error is independent of position. -/
def shift (distance : Nat) : CodecError → CodecError
  | endOfData offset => endOfData (distance + offset)
  | error => error

/-- Moving by nothing changes nothing. -/
@[simp] theorem shift_zero (error : CodecError) : error.shift 0 = error := by
  cases error <;> simp [shift]

/-- Moving twice moves by the sum. -/
@[simp] theorem shift_shift (first second : Nat) (error : CodecError) :
    (error.shift first).shift second = error.shift (second + first) := by
  cases error <;> simp [shift, Nat.add_assoc]

/-- The wording of each error. -/
def message : CodecError → String
  | endOfData offset => "unexpected end of data at byte " ++ offset.repr
  | registerOutOfRange index =>
      "register id " ++ index.repr ++ " out of range (max " ++ RegId.maxIndex.repr ++ ")"
  | invalidOpcode byte => "invalid opcode: 0x" ++ Text.hexByte byte
  | parameterOutOfRange kind value =>
      kind.label ++ " value " ++ value.repr ++ " out of range"
  | instructionTooLarge size =>
      "instruction occupies " ++ size.repr ++ " bytes (max " ++ maxInstructionSize.repr ++ ")"

end CodecError

/-- The register with a given index, or the error that the index is out of range. -/
def RegId.ofIndex (index : Nat) : Except CodecError RegId :=
  match RegId.ofIndex? index with
  | some reg => .ok reg
  | none => .error (.registerOutOfRange index)

end ScopeMachine
