import ScopeMachine.Proofs.Codec

/-! # Streams behind streams

Instructions stand one behind the other without anything between them, and a reader finds their
boundaries on its own. What it reads behind a written stream is what it would have read there alone,
with the offsets of its errors moved by the length of that stream.

* `Instruction.decodeFrom_eq` says that a reader in the middle of a stream does what one at the
  start of the remaining bytes does;
* `Instruction.encodedSize_le` bounds the size of an instruction by its opcode;
* `Instruction.decodeAll_append` is the law of the whole codec. -/

namespace ScopeMachine.Instruction

/-! ### Readers in the middle of a stream -/

/-- What a reader has found, behind `read`, when it started `position` bytes into the whole. -/
def resume (position : Nat) (read : Array Instruction) :
    Except CodecError (Array Instruction) → Except CodecError (Array Instruction)
  | .ok more => .ok (read ++ more)
  | .error error => .error (error.shift position)

/-- Resuming twice is resuming once, further on. -/
theorem resume_resume (first second : Nat) (read more : Array Instruction)
    (result : Except CodecError (Array Instruction)) :
    resume first read (resume second more result) =
      resume (first + second) (read ++ more) result := by
  cases result <;> simp [resume, Array.append_assoc]

/-- A reader in the middle of a stream does what one at the start does. -/
theorem decodeFrom_eq (skip position : Nat) (read : Array Instruction) (bytes : List UInt8) :
    decodeFrom skip position read bytes =
      resume position read (decodeFrom skip 0 #[] bytes) := by
  -- both readers take the same steps, so the induction is on the bytes, for all positions
  induction bytes generalizing skip position read with
  | nil => simp [decodeFrom, resume]
  | cons byte bytes ih =>
      cases skip with
      | succ skip =>
          rw [decodeFrom, decodeFrom, ih, ih skip (0 + 1), resume_resume]
          simp
      | zero =>
          rw [decodeFrom, decodeFrom]
          cases decode (byte :: bytes) with
          | error error => simp [resume]
          | ok result =>
              dsimp only
              rw [ih, ih _ (0 + 1), resume_resume]
              simp

/-! ### Sizes -/

/-- The size of an instruction is that of its operands, and the opcode byte. -/
theorem encodedSize_le (instruction : Instruction) :
    instruction.encodedSize ≤ Operands.maxSize instruction.opcode.signature + 1 :=
  Nat.succ_le_succ (Operands.length_encode_le _ instruction.operands)

/-- Only an eight-byte literal makes an instruction longer than ten bytes. -/
theorem maxSize_signature_le {opcode : Opcode} (short : opcode ≠ .cpi8) :
    Operands.maxSize opcode.signature + 1 ≤ 10 := by
  cases opcode with
  | cpi8 => exact absurd rfl short
  | _ => decide

/-! ### The codec -/

/-- **What is written is read back, whatever stands behind it.** A stream in front of other bytes is
read as its instructions and then what those bytes hold, or the error in them, with an end of the
data reported as far into the whole. One instruction is read by taking exactly the bytes written for
it, of which there are at most twelve, and at most ten without an eight-byte literal. -/
theorem decodeAll_append (code : List Instruction) (rest : List UInt8) :
    (decodeAll (encodeAll code ++ rest) =
      match decodeAll rest with
      | .ok more => .ok (code.toArray ++ more)
      | .error error => .error (error.shift (encodeAll code).length)) ∧
    decodeAll (encodeAll code) = .ok code.toArray ∧
    ∀ instruction : Instruction,
      decode (instruction.encode ++ rest) = .ok (instruction, instruction.encodedSize) ∧
      instruction.encode.length = instruction.encodedSize ∧
      instruction.encodedSize ≤ 12 ∧
      (instruction.opcode ≠ .cpi8 → instruction.encodedSize ≤ 10) := by
  refine ⟨?_, decodeAll_encodeAll code, fun instruction => ?_⟩
  · have behind := decodeFrom_encodeAll code 0 #[] rest
    rw [decodeFrom_eq _ (0 + _), Nat.zero_add, Array.empty_append] at behind
    exact behind
  · refine ⟨instruction.decode_encode rest, rfl, instruction.length_encode_le, fun short => ?_⟩
    exact Nat.le_trans instruction.encodedSize_le (maxSize_signature_le short)

end ScopeMachine.Instruction
