import ScopeMachine.Instruction.Codec
import ScopeMachine.Proofs.Sequencing

/-! # What is written can be read

Reading takes exactly the bytes that writing has produced, whatever follows them, and gives the
value back.

* `Varint.decodeUnsigned_encodeUnsigned` and `Varint.decodeSigned_encodeSigned` for integers;
* `OperandKind.decode_encode` and `Operands.decode_encode` for operands, with the largest size of
  each kind in `OperandKind.maxSize`;
* `Instruction.decode_encode` for one instruction and `Instruction.decodeFrom_encodeAll` for a
  stream, whose reader knows no boundaries but those it finds. -/

namespace ScopeMachine

/-! ### Variable-length integers -/

namespace Varint

/-- The number of values of so many groups. -/
def groupRange : (groups : Nat) → Nat
  | 0 => 1
  | groups + 1 => 128 * groupRange groups

/-- A number below 256 is what its byte stands for. -/
theorem toNat_byte {value : Nat} (small : value < 256) : (UInt8.ofNat value).toNat = value :=
  UInt8.toNat_ofNat_of_lt' small

/-- Reading gives an unsigned value back that fits the groups. -/
theorem readUnsigned_unsignedGroups {groups value : Nat} (fits : value < 256 * groupRange groups)
    (rest : List UInt8) :
    readUnsigned groups (unsignedGroups groups value ++ rest) =
      .ok (value, (unsignedGroups groups value).length) := by
  induction groups generalizing value with
  | zero =>
      -- the final byte has all eight bits for the value, and so no bit to say that more follows
      unfold groupRange at fits
      have byte : (UInt8.ofNat value).toNat = value := toNat_byte (by omega)
      show Except.ok ((UInt8.ofNat value).toNat, 1) = _
      rw [byte]
      rfl
  | succ groups ih =>
      unfold groupRange at fits
      unfold unsignedGroups
      by_cases small : value < 128
      · -- the last group
        have byte : (UInt8.ofNat value).toNat = value := toNat_byte (by omega)
        rw [if_pos small, List.singleton_append, readUnsigned, byte, if_pos small]
        rfl
      · -- the low group is marked as continued, and the higher ones are read by hypothesis
        have byte : (UInt8.ofNat (128 + value % 128)).toNat = 128 + value % 128 :=
          toNat_byte (by omega)
        have continued : ¬ 128 + value % 128 < 128 := by omega
        have whole : 128 + value % 128 - 128 + 128 * (value / 128) = value := by omega
        rw [if_neg small, List.cons_append, readUnsigned, byte, if_neg continued,
          ih (by omega), List.length_cons]
        dsimp only
        rw [whole]

/-- **Unsigned integers can be read back.** -/
theorem decodeUnsigned_encodeUnsigned (value : UInt64) (rest : List UInt8) :
    decodeUnsigned (encodeUnsigned value ++ rest) = .ok (value, (encodeUnsigned value).length) := by
  have fits : value.toNat < 256 * groupRange groupBytes := value.toNat_lt
  unfold decodeUnsigned
  rw [encodeUnsigned, readUnsigned_unsignedGroups fits]
  dsimp only
  rw [UInt64.ofNat_toNat]

/-- Reading gives a signed value back that fits the groups. -/
theorem readSigned_signedGroups {groups : Nat} {value : Int}
    (low : -(128 * groupRange groups : Nat) ≤ value)
    (high : value < (128 * groupRange groups : Nat)) (rest : List UInt8) :
    readSigned groups (signedGroups groups value ++ rest) =
      .ok (value, (signedGroups groups value).length) := by
  induction groups generalizing value with
  | zero =>
      unfold groupRange at low high
      have byte : (UInt8.ofNat (value % 256).toNat).toNat = (value % 256).toNat :=
        toNat_byte (by omega)
      have extended : signExtend 128 (value % 256).toNat = value := by
        unfold signExtend
        split <;> omega
      show Except.ok (signExtend 128 (UInt8.ofNat (value % 256).toNat).toNat, 1) = _
      rw [byte, extended]
      rfl
  | succ groups ih =>
      unfold groupRange at low high
      unfold signedGroups
      by_cases small : -64 ≤ value ∧ value < 64
      · -- seven bits, the highest of which is the sign
        have byte : (UInt8.ofNat (value % 128).toNat).toNat = (value % 128).toNat :=
          toNat_byte (by omega)
        have last : (value % 128).toNat < 128 := by omega
        have extended : signExtend 64 (value % 128).toNat = value := by
          unfold signExtend
          split <;> omega
        rw [if_pos small, List.singleton_append, readSigned, byte, if_pos last, extended]
        rfl
      · have byte : (UInt8.ofNat (128 + (value % 128).toNat)).toNat =
            128 + (value % 128).toNat :=
          toNat_byte (by omega)
        have continued : ¬ 128 + (value % 128).toNat < 128 := by omega
        have whole : ((128 + (value % 128).toNat - 128 : Nat) : Int) + 128 * (value / 128) =
            value := by omega
        rw [if_neg small, List.cons_append, readSigned, byte, if_neg continued,
          ih (by omega) (by omega), List.length_cons]
        dsimp only
        rw [whole]

/-- **Signed integers can be read back.** -/
theorem decodeSigned_encodeSigned (value : Int64) (rest : List UInt8) :
    decodeSigned (encodeSigned value ++ rest) = .ok (value, (encodeSigned value).length) := by
  have low : -(128 * groupRange groupBytes : Nat) ≤ value.toInt := value.le_toInt
  have high : value.toInt < (128 * groupRange groupBytes : Nat) := value.toInt_lt
  unfold decodeSigned
  rw [encodeSigned, readSigned_signedGroups low high]
  dsimp only
  rw [Int64.ofInt_toInt]

/-! ### Sizes of integers -/

/-- An unsigned value of so many seven-bit groups takes so many bytes. -/
theorem length_unsignedGroups_le {groups size value : Nat} (fits : value < 128 * groupRange size) :
    (unsignedGroups groups value).length ≤ size + 1 := by
  induction groups generalizing size value with
  | zero => exact Nat.le_add_left 1 size
  | succ groups ih =>
      unfold unsignedGroups
      by_cases small : value < 128
      · rw [if_pos small]
        exact Nat.le_add_left 1 size
      · cases size with
        | zero => exact absurd fits small
        | succ size =>
            unfold groupRange at fits
            rw [if_neg small, List.length_cons]
            exact Nat.succ_le_succ (ih (by omega))

/-- A signed value of so many seven-bit groups takes so many bytes. -/
theorem length_signedGroups_le {groups size : Nat} {value : Int}
    (low : -(64 * groupRange size : Nat) ≤ value) (high : value < (64 * groupRange size : Nat)) :
    (signedGroups groups value).length ≤ size + 1 := by
  induction groups generalizing size value with
  | zero => exact Nat.le_add_left 1 size
  | succ groups ih =>
      unfold signedGroups
      by_cases small : -64 ≤ value ∧ value < 64
      · rw [if_pos small]
        exact Nat.le_add_left 1 size
      · cases size with
        | zero => exact absurd ⟨low, high⟩ small
        | succ size =>
            unfold groupRange at low high
            rw [if_neg small, List.length_cons]
            exact Nat.succ_le_succ (ih (by omega) (by omega))

/-- No signed value takes more bytes than there are groups, and a final byte. -/
theorem length_signedGroups_le_succ (groups : Nat) (value : Int) :
    (signedGroups groups value).length ≤ groups + 1 := by
  induction groups generalizing value with
  | zero => exact Nat.le_refl 1
  | succ groups ih =>
      unfold signedGroups
      split
      · exact Nat.le_add_left 1 (groups + 1)
      · exact Nat.succ_le_succ (ih _)

end Varint

/-! ### Operands -/

namespace OperandKind

/-- An unsigned operand can be read back if its value is admitted. -/
theorem ofUnsigned_encodeUnsigned {α : Type} {narrow : UInt64 → Except CodecError α}
    {value : UInt64} {result : α} (narrowed : narrow value = .ok result) (rest : List UInt8) :
    ofUnsigned narrow (Varint.encodeUnsigned value ++ rest) =
      .ok (result, (Varint.encodeUnsigned value).length) := by
  unfold ofUnsigned
  rw [Varint.decodeUnsigned_encodeUnsigned]
  show (narrow value >>= fun admitted => pure (admitted, _)) = _
  rw [narrowed]
  rfl

/-- A signed operand can be read back if its value is admitted. -/
theorem ofSigned_encodeSigned {α : Type} {narrow : Int64 → Except CodecError α}
    {value : Int64} {result : α} (narrowed : narrow value = .ok result) (rest : List UInt8) :
    ofSigned narrow (Varint.encodeSigned value ++ rest) =
      .ok (result, (Varint.encodeSigned value).length) := by
  unfold ofSigned
  rw [Varint.decodeSigned_encodeSigned]
  show (narrow value >>= fun admitted => pure (admitted, _)) = _
  rw [narrowed]
  rfl

/-- A number below 2^32 is what its 64-bit value stands for. -/
theorem toNat_wide {value : Nat} (small : value < UInt32.size) :
    (UInt64.ofNat value).toNat = value := by
  have wide : UInt32.size ≤ UInt64.size := by decide
  exact UInt64.toNat_ofNat_of_lt' (Nat.lt_of_lt_of_le small wide)

/-- Every 32-bit value is admitted. -/
theorem narrowUnsigned_ofNat (kind : OperandKind) (value : UInt32) :
    narrowUnsigned kind (UInt64.ofNat value.toNat) = .ok value := by
  have fits : value.toNat < UInt32.size := value.toNat_lt
  unfold narrowUnsigned
  rw [toNat_wide fits, if_pos fits, UInt32.ofNat_toNat]

/-- Every register is admitted. -/
theorem narrowRegister_ofNat (reg : RegId) :
    narrowRegister (UInt64.ofNat reg.index) = .ok reg := by
  have wide : RegId.maxIndex < UInt32.size := by decide
  have fits : reg.index < UInt32.size := Nat.lt_of_le_of_lt reg.index_le wide
  unfold narrowRegister
  rw [toNat_wide fits, if_pos fits, RegId.ofIndex, RegId.ofIndex?_index]

/-- Every signed value of the operand's width is admitted. -/
theorem narrowSigned_ofInt (kind : OperandKind) {half : Nat} {value : Int}
    (narrow : half ≤ 0x80000000) (low : -(half : Int) ≤ value) (high : value < half) :
    narrowSigned kind half (Int64.ofInt value) = .ok value := by
  have wide : (Int64.ofInt value).toInt = value := by
    rw [Int64.toInt_ofInt_of_le (by omega) (by omega)]
  unfold narrowSigned
  rw [wide, if_pos ⟨low, high⟩]

/-- **Operands can be read back.** -/
theorem decode_encode (kind : OperandKind) (value : kind.Value) (rest : List UInt8) :
    kind.decode (kind.encode value ++ rest) = .ok (value, (kind.encode value).length) := by
  cases kind with
  | register => exact ofUnsigned_encodeUnsigned (narrowRegister_ofNat value) rest
  | scopeCount => exact ofUnsigned_encodeUnsigned (narrowUnsigned_ofNat _ value) rest
  | byteOffset => exact ofUnsigned_encodeUnsigned (narrowUnsigned_ofNat _ value) rest
  | referenceSlot => exact ofUnsigned_encodeUnsigned (narrowUnsigned_ofNat _ value) rest
  | procedure =>
      unfold decode
      refine ofUnsigned_encodeUnsigned ?_ rest
      rw [narrowUnsigned_ofNat]
      rfl
  | literal8 => exact ofSigned_encodeSigned rfl rest
  | literal1 =>
      unfold decode
      refine ofSigned_encodeSigned ?_ rest
      rw [narrowSigned_ofInt _ (by decide) value.le_toInt value.toInt_lt]
      exact congrArg Except.ok (Int8.ofInt_toInt value)
  | literal2 =>
      unfold decode
      refine ofSigned_encodeSigned ?_ rest
      rw [narrowSigned_ofInt _ (by decide) value.le_toInt value.toInt_lt]
      exact congrArg Except.ok (Int16.ofInt_toInt value)
  | literal4 | jumpOffset =>
      unfold decode
      refine ofSigned_encodeSigned ?_ rest
      rw [narrowSigned_ofInt _ (by decide) value.le_toInt value.toInt_lt]
      exact congrArg Except.ok (Int32.ofInt_toInt value)

/-- The largest number of bytes of an operand. -/
def maxSize : OperandKind → Nat
  | register | literal1 => 2
  | literal2 => 3
  | literal4 | jumpOffset | scopeCount | byteOffset | referenceSlot | procedure => 5
  | literal8 => 9

/-- A 32-bit operand takes at most five bytes. -/
theorem length_encodeUnsigned_le (value : UInt32) :
    (Varint.encodeUnsigned (UInt64.ofNat value.toNat)).length ≤ 5 := by
  unfold Varint.encodeUnsigned
  rw [toNat_wide value.toNat_lt]
  exact Varint.length_unsignedGroups_le (Nat.lt_trans value.toNat_lt (by decide))

/-- A signed operand of so many seven-bit groups takes so many bytes. -/
theorem length_encodeSigned_le {size : Nat} {value : Int}
    (narrow : Varint.groupRange size ≤ 0x10000000)
    (low : -(64 * Varint.groupRange size : Nat) ≤ value)
    (high : value < (64 * Varint.groupRange size : Nat)) :
    (Varint.encodeSigned (Int64.ofInt value)).length ≤ size + 1 := by
  have wide : (Int64.ofInt value).toInt = value :=
    Int64.toInt_ofInt_of_le (by omega) (by omega)
  unfold Varint.encodeSigned
  rw [wide]
  exact Varint.length_signedGroups_le low high

/-- No operand takes more bytes than its kind allows. -/
theorem length_encode_le (kind : OperandKind) (value : kind.Value) :
    (kind.encode value).length ≤ kind.maxSize := by
  cases kind with
  | register =>
      have wide : RegId.maxIndex < UInt32.size := by decide
      have fits : value.index < 128 * Varint.groupRange 1 := Nat.lt_succ_of_le value.index_le
      show (Varint.encodeUnsigned (UInt64.ofNat value.index)).length ≤ 2
      unfold Varint.encodeUnsigned
      rw [toNat_wide (Nat.lt_of_le_of_lt value.index_le wide)]
      exact Varint.length_unsignedGroups_le fits
  | scopeCount => exact length_encodeUnsigned_le value
  | byteOffset => exact length_encodeUnsigned_le value
  | referenceSlot => exact length_encodeUnsigned_le value
  | procedure => exact length_encodeUnsigned_le value.index
  | literal8 => exact Varint.length_signedGroups_le_succ _ _
  | literal1 =>
      exact length_encodeSigned_le (by decide) (Int.le_trans (by decide) value.le_toInt)
        (Int.lt_of_lt_of_le value.toInt_lt (by decide))
  | literal2 =>
      exact length_encodeSigned_le (by decide) (Int.le_trans (by decide) value.le_toInt)
        (Int.lt_of_lt_of_le value.toInt_lt (by decide))
  | literal4 | jumpOffset =>
      exact length_encodeSigned_le (by decide) (Int.le_trans (by decide) value.le_toInt)
        (Int.lt_of_lt_of_le value.toInt_lt (by decide))

end OperandKind

namespace Operands

/-- **Rows of operands can be read back.** -/
theorem decode_encode (kinds : List OperandKind) (operands : Operands kinds)
    (rest : List UInt8) :
    decode kinds (encode kinds operands ++ rest) =
      .ok (operands, (encode kinds operands).length) := by
  induction kinds with
  | nil => rfl
  | cons kind kinds ih =>
      obtain ⟨value, values⟩ := operands
      unfold decode encode
      rw [List.append_assoc, OperandKind.decode_encode]
      dsimp only
      rw [List.drop_left, ih, List.length_append]

/-- The largest number of bytes of a row of operands. -/
def maxSize : (kinds : List OperandKind) → Nat
  | [] => 0
  | kind :: kinds => kind.maxSize + maxSize kinds

/-- No row of operands takes more bytes than its kinds allow. -/
theorem length_encode_le (kinds : List OperandKind) (operands : Operands kinds) :
    (encode kinds operands).length ≤ maxSize kinds := by
  induction kinds with
  | nil => exact Nat.le_refl 0
  | cons kind kinds ih =>
      obtain ⟨value, values⟩ := operands
      unfold encode maxSize
      rw [List.length_append]
      exact Nat.add_le_add (kind.length_encode_le value) (ih values)

end Operands

/-! ### Instructions -/

namespace Instruction

/-- No instruction takes more bytes than allowed. -/
theorem length_encode_le (instruction : Instruction) :
    instruction.encode.length ≤ maxInstructionSize := by
  have operands := Operands.length_encode_le _ instruction.operands
  -- the longest is a register with an eight-byte literal
  have all : ∀ opcode : Opcode, Operands.maxSize opcode.signature + 1 ≤ maxInstructionSize := by
    intro opcode
    cases opcode <;> decide
  exact Nat.le_trans (Nat.succ_le_succ operands) (all instruction.opcode)

/-- **An instruction can be read back**, and exactly its bytes are taken. -/
theorem decode_encode (instruction : Instruction) (rest : List UInt8) :
    decode (instruction.encode ++ rest) = .ok (instruction, instruction.encode.length) := by
  have small : ¬ maxInstructionSize < instruction.encode.length :=
    Nat.not_lt.mpr instruction.length_encode_le
  have size : instruction.encode.length =
      (Operands.encode instruction.opcode.signature instruction.operands).length + 1 := rfl
  show decode (instruction.opcode.byte :: (Operands.encode _ instruction.operands ++ rest)) = _
  unfold decode
  dsimp only
  rw [Opcode.ofByte?_byte]
  dsimp only
  rw [Operands.decode_encode]
  dsimp only
  rw [← size, if_neg small, assemble_opcode_operands]

/-! ### Instruction streams -/

/-- Bytes that belong to the instruction read last are passed over. -/
theorem decodeFrom_skip (skipped : List UInt8) (position : Nat) (read : Array Instruction)
    (rest : List UInt8) :
    decodeFrom skipped.length position read (skipped ++ rest) =
      decodeFrom 0 (position + skipped.length) read rest := by
  induction skipped generalizing position with
  | nil => rfl
  | cons byte skipped ih =>
      rw [List.length_cons, List.cons_append, decodeFrom, ih]
      congr 1
      omega

/-- One written instruction at the front of a stream is read. -/
theorem decodeFrom_encode (instruction : Instruction) (position : Nat)
    (read : Array Instruction) (rest : List UInt8) :
    decodeFrom 0 position read (instruction.encode ++ rest) =
      decodeFrom 0 (position + instruction.encode.length) (read.push instruction) rest := by
  have decoded := instruction.decode_encode rest
  -- the opcode byte is read where it stands, the operand bytes are passed over
  obtain ⟨operands, shape⟩ : ∃ operands, instruction.encode =
      instruction.opcode.byte :: operands := ⟨_, rfl⟩
  rw [shape, List.cons_append] at decoded ⊢
  rw [decodeFrom, decoded]
  dsimp only
  rw [List.length_cons, Nat.add_sub_cancel, decodeFrom_skip]
  congr 1
  omega

/-- **A stream can be read back**, whatever follows it. -/
theorem decodeFrom_encodeAll (code : List Instruction) (position : Nat)
    (read : Array Instruction) (rest : List UInt8) :
    decodeFrom 0 position read (encodeAll code ++ rest) =
      decodeFrom 0 (position + (encodeAll code).length) (read ++ code.toArray) rest := by
  induction code generalizing position read with
  | nil =>
      show decodeFrom 0 position read rest = decodeFrom 0 position (read ++ #[]) rest
      rw [Array.append_empty]
  | cons instruction code ih =>
      have whole : encodeAll (instruction :: code) = instruction.encode ++ encodeAll code := rfl
      have joined : read.push instruction ++ code.toArray =
          read ++ (instruction :: code).toArray := by
        rw [← Array.toList_inj]
        simp
      rw [whole, List.append_assoc, decodeFrom_encode, ih, List.length_append, joined,
        Nat.add_assoc]

/-- A written stream is read as what was written. -/
theorem decodeAll_encodeAll (code : List Instruction) :
    decodeAll (encodeAll code) = .ok code.toArray := by
  have read := decodeFrom_encodeAll code 0 #[] []
  rw [List.append_nil, Array.empty_append] at read
  exact read

/-- Writing one more instruction adds its bytes. -/
theorem encodeAll_concat (code : List Instruction) (instruction : Instruction) :
    encodeAll (code ++ [instruction]) = encodeAll code ++ instruction.encode := by
  unfold encodeAll
  rw [List.flatMap_append, List.flatMap_singleton]

end Instruction

end ScopeMachine
