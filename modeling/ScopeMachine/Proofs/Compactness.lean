import ScopeMachine.Proofs.Codec

/-! # What is read can be written as briefly

Integers may be written with more groups than they need, and readers accept that. Whatever form a
value was read from, the form that is written for it takes no more bytes.

* `Varint.readUnsigned_bounds` and `Varint.readSigned_bounds` for integers;
* `OperandKind.length_encode_le_of_decode`, `Operands.length_encode_le_of_decode` and
  `Instruction.length_encode_le_of_decode` for what is made of them;
* `Instruction.length_encodeAll_le_of_decodeAll` for whole streams. -/

namespace ScopeMachine

/-! ### Variable-length integers -/

namespace Varint

/-- There is at least one value of any number of groups. -/
theorem groupRange_pos (groups : Nat) : 0 < groupRange groups := by
  induction groups with
  | zero => exact Nat.one_pos
  | succ groups ih => exact Nat.mul_pos (by decide) ih

variable {groups used : Nat} {bytes : List UInt8}

/-- An unsigned value that was read fits the groups, its shortest form takes no more bytes than were
read, and no more were read than there are. -/
theorem readUnsigned_bounds {value : Nat} (read : readUnsigned groups bytes = .ok (value, used)) :
    value < 256 * groupRange groups ∧ (unsignedGroups groups value).length ≤ used ∧
      used ≤ bytes.length := by
  fun_induction readUnsigned groups bytes generalizing value used with
  | case1 => cases read
  | case2 byte rest =>
      cases read
      have small := byte.toNat_lt
      simp [groupRange, unsignedGroups, small]
  | case3 groups byte rest last =>
      cases read
      have positive := groupRange_pos groups.succ
      refine ⟨by omega, ?_, by simp⟩
      simp [unsignedGroups, last]
  | case4 groups byte rest continued higher more readRest ih =>
      cases read
      obtain ⟨fits, shortest, inside⟩ := ih readRest
      have small := byte.toNat_lt
      have shifted : (byte.toNat - 128 + 128 * higher) / 128 = higher := by omega
      refine ⟨by rw [groupRange]; omega, ?_, Nat.succ_le_succ inside⟩
      -- a value below 128 may have been read from many groups, but is written in one
      rw [unsignedGroups]
      split
      · exact Nat.le_add_left 1 more
      · rw [List.length_cons, shifted]
        exact Nat.succ_le_succ shortest
  | case5 => cases read

/-- A signed value that was read fits the groups, its shortest form takes no more bytes than were
read, and no more were read than there are. -/
theorem readSigned_bounds {value : Int} (read : readSigned groups bytes = .ok (value, used)) :
    -(128 * groupRange groups : Nat) ≤ value ∧ value < (128 * groupRange groups : Nat) ∧
      (signedGroups groups value).length ≤ used ∧ used ≤ bytes.length := by
  fun_induction readSigned groups bytes generalizing value used with
  | case1 => cases read
  | case2 byte rest =>
      cases read
      have small := byte.toNat_lt
      refine ⟨?_, ?_, Nat.le_refl 1, by simp⟩ <;>
      · rw [groupRange, signExtend]
        split <;> omega
  | case3 groups byte rest last =>
      cases read
      have positive := groupRange_pos groups.succ
      have low : -64 ≤ signExtend 64 byte.toNat := by
        rw [signExtend]
        split <;> omega
      have high : signExtend 64 byte.toNat < 64 := by
        rw [signExtend]
        split <;> omega
      refine ⟨by omega, by omega, ?_, by simp⟩
      simp [signedGroups, low, high]
  | case4 groups byte rest continued higher more readRest ih =>
      cases read
      obtain ⟨low, high, shortest, inside⟩ := ih readRest
      have small := byte.toNat_lt
      have shifted : ((byte.toNat - 128 : Nat) + 128 * higher) / 128 = higher := by omega
      refine ⟨by rw [groupRange]; omega, by rw [groupRange]; omega, ?_, Nat.succ_le_succ inside⟩
      rw [signedGroups]
      split
      · exact Nat.le_add_left 1 more
      · rw [List.length_cons, shifted]
        exact Nat.succ_le_succ shortest
  | case5 => cases read

/-- The shortest form of an unsigned integer takes no more bytes than it was read from. -/
theorem length_encodeUnsigned_le_of_decode {value : UInt64}
    (decoded : decodeUnsigned bytes = .ok (value, used)) :
    (encodeUnsigned value).length ≤ used ∧ used ≤ bytes.length := by
  unfold decodeUnsigned at decoded
  split at decoded
  next number taken read =>
    cases decoded
    obtain ⟨fits, bounds⟩ := readUnsigned_bounds read
    have same : (UInt64.ofNat number).toNat = number := UInt64.toNat_ofNat_of_lt' fits
    rw [encodeUnsigned, same]
    exact bounds
  next => cases decoded

/-- The shortest form of a signed integer takes no more bytes than it was read from. -/
theorem length_encodeSigned_le_of_decode {value : Int64}
    (decoded : decodeSigned bytes = .ok (value, used)) :
    (encodeSigned value).length ≤ used ∧ used ≤ bytes.length := by
  unfold decodeSigned at decoded
  split at decoded
  next number taken read =>
    cases decoded
    obtain ⟨low, high, bounds⟩ := readSigned_bounds read
    have same : (Int64.ofInt number).toInt = number := Int64.toInt_ofInt_of_le low high
    rw [encodeSigned, same]
    exact bounds
  next => cases decoded

end Varint

/-! ### Operands -/

namespace OperandKind

variable {α : Type} {used : Nat} {bytes : List UInt8}

/-- An unsigned operand is the value of an integer that was read. -/
theorem exists_of_ofUnsigned {narrow : UInt64 → Except CodecError α} {result : α}
    (decoded : ofUnsigned narrow bytes = .ok (result, used)) :
    ∃ value, Varint.decodeUnsigned bytes = .ok (value, used) ∧ narrow value = .ok result := by
  obtain ⟨⟨value, taken⟩, read, decoded⟩ := bind_eq_ok.mp decoded
  obtain ⟨narrowed, isNarrowed, same⟩ := bind_eq_ok.mp decoded
  cases same
  exact ⟨value, read, isNarrowed⟩

/-- A signed operand is the value of an integer that was read. -/
theorem exists_of_ofSigned {narrow : Int64 → Except CodecError α} {result : α}
    (decoded : ofSigned narrow bytes = .ok (result, used)) :
    ∃ value, Varint.decodeSigned bytes = .ok (value, used) ∧ narrow value = .ok result := by
  obtain ⟨⟨value, taken⟩, read, decoded⟩ := bind_eq_ok.mp decoded
  obtain ⟨narrowed, isNarrowed, same⟩ := bind_eq_ok.mp decoded
  cases same
  exact ⟨value, read, isNarrowed⟩

/-- A 32-bit value that was admitted is written as the integer that was read. -/
theorem ofNat_of_narrowUnsigned {kind : OperandKind} {value : UInt64} {result : UInt32}
    (narrowed : narrowUnsigned kind value = .ok result) : UInt64.ofNat result.toNat = value := by
  unfold narrowUnsigned at narrowed
  split at narrowed
  next small =>
    cases narrowed
    rw [UInt32.toNat_ofNat_of_lt' small, UInt64.ofNat_toNat]
  next => cases narrowed

/-- A register that was admitted is written as the integer that was read. -/
theorem ofNat_of_narrowRegister {value : UInt64} {reg : RegId}
    (narrowed : narrowRegister value = .ok reg) : UInt64.ofNat reg.index = value := by
  unfold narrowRegister RegId.ofIndex RegId.ofIndex? at narrowed
  split at narrowed
  · split at narrowed
    next found =>
      split at found
      · cases found
        cases narrowed
        exact UInt64.ofNat_toNat
      · cases found
    next => cases narrowed
  next => cases narrowed

/-- A signed operand of limited width is made from the integer that was read, which is within that
width. -/
theorem exists_of_narrowSigned {kind : OperandKind} {half : Nat} {make : Int → α} {result : α}
    (decoded : ofSigned (fun value => (narrowSigned kind half value).map make) bytes =
      .ok (result, used)) :
    ∃ value : Int64, Varint.decodeSigned bytes = .ok (value, used) ∧ result = make value.toInt ∧
      -(half : Int) ≤ value.toInt ∧ value.toInt < half := by
  obtain ⟨value, read, narrowed⟩ := exists_of_ofSigned decoded
  obtain ⟨number, within, made⟩ := map_eq_ok.mp narrowed
  unfold narrowSigned at within
  split at within
  next bounds =>
    cases within
    exact ⟨value, read, made, bounds⟩
  next => cases within

/-- The written form of an operand takes no more bytes than it was read from. -/
theorem length_encode_le_of_decode {kind : OperandKind} {value : kind.Value}
    (decoded : kind.decode bytes = .ok (value, used)) :
    (kind.encode value).length ≤ used ∧ used ≤ bytes.length := by
  cases kind with
  | register =>
      obtain ⟨number, read, narrowed⟩ := exists_of_ofUnsigned decoded
      rw [encode, ofNat_of_narrowRegister narrowed]
      exact Varint.length_encodeUnsigned_le_of_decode read
  | scopeCount | byteOffset | referenceSlot =>
      obtain ⟨number, read, narrowed⟩ := exists_of_ofUnsigned decoded
      rw [encode, ofNat_of_narrowUnsigned narrowed]
      exact Varint.length_encodeUnsigned_le_of_decode read
  | procedure =>
      obtain ⟨number, read, narrowed⟩ := exists_of_ofUnsigned
        (show ofUnsigned (fun value => (narrowUnsigned .procedure value).map ProcId.mk) bytes =
          .ok (value, used) from decoded)
      obtain ⟨index, narrowedIndex, rfl⟩ := map_eq_ok.mp narrowed
      rw [encode, ofNat_of_narrowUnsigned narrowedIndex]
      exact Varint.length_encodeUnsigned_le_of_decode read
  | literal8 =>
      obtain ⟨number, read, same⟩ := exists_of_ofSigned decoded
      cases same
      exact Varint.length_encodeSigned_le_of_decode read
  | literal1 =>
      obtain ⟨number, read, rfl, low, high⟩ := exists_of_narrowSigned decoded
      rw [encode, Int8.toInt_ofInt_of_le low high, Int64.ofInt_toInt]
      exact Varint.length_encodeSigned_le_of_decode read
  | literal2 =>
      obtain ⟨number, read, rfl, low, high⟩ := exists_of_narrowSigned decoded
      rw [encode, Int16.toInt_ofInt_of_le low high, Int64.ofInt_toInt]
      exact Varint.length_encodeSigned_le_of_decode read
  | literal4 | jumpOffset =>
      obtain ⟨number, read, rfl, low, high⟩ := exists_of_narrowSigned decoded
      rw [encode, Int32.toInt_ofInt_of_le low high, Int64.ofInt_toInt]
      exact Varint.length_encodeSigned_le_of_decode read

end OperandKind

/-- The written form of a row of operands takes no more bytes than it was read from. -/
theorem Operands.length_encode_le_of_decode {kinds : List OperandKind} {operands : Operands kinds}
    {used : Nat} {bytes : List UInt8} (decoded : decode kinds bytes = .ok (operands, used)) :
    (encode kinds operands).length ≤ used ∧ used ≤ bytes.length := by
  induction kinds generalizing bytes used with
  | nil =>
      cases decoded
      exact ⟨Nat.le_refl 0, Nat.zero_le _⟩
  | cons kind kinds ih =>
      rw [decode] at decoded
      split at decoded
      next => cases decoded
      next value taken decodedFirst =>
        split at decoded
        next => cases decoded
        next values more decodedRest =>
          cases decoded
          have first := kind.length_encode_le_of_decode decodedFirst
          have others := ih decodedRest
          rw [List.length_drop] at others
          rw [encode, List.length_append]
          omega

/-! ### Instructions -/

namespace Instruction

/-- An assembled instruction is written as its parts are. -/
theorem encode_assemble (opcode : Opcode) (operands : Operands opcode.signature) :
    (assemble opcode operands).encode =
      opcode.byte :: Operands.encode opcode.signature operands := by
  cases opcode <;> rfl

/-- The written form of an instruction takes no more bytes than it was read from. -/
theorem length_encode_le_of_decode {bytes : List UInt8} {instruction : Instruction} {used : Nat}
    (decoded : decode bytes = .ok (instruction, used)) :
    instruction.encode.length ≤ used ∧ used ≤ bytes.length := by
  unfold decode at decoded
  split at decoded
  next => cases decoded
  next byte rest =>
    split at decoded
    next => cases decoded
    next opcode found =>
      split at decoded
      next => cases decoded
      next operands taken read =>
        split at decoded
        next => cases decoded
        next =>
          cases decoded
          obtain ⟨shortest, inside⟩ := Operands.length_encode_le_of_decode read
          rw [encode_assemble]
          exact ⟨Nat.succ_le_succ shortest, Nat.succ_le_succ inside⟩

/-- A stream is read behind what has been read before, and what is read can be written in the bytes
that were not passed over. -/
theorem decodeFrom_bounds {skip position : Nat} {read code : Array Instruction}
    {bytes : List UInt8} (decoded : decodeFrom skip position read bytes = .ok code) :
    ∃ more, code.toList = read.toList ++ more ∧
      (encodeAll more).length ≤ bytes.length - skip := by
  fun_induction decodeFrom skip position read bytes with
  | case1 skip position read =>
      cases decoded
      exact ⟨[], by simp, by simp [encodeAll]⟩
  | case2 position read skip byte rest ih =>
      obtain ⟨more, isCode, bound⟩ := ih decoded
      refine ⟨more, isCode, ?_⟩
      rw [List.length_cons]
      omega
  | case3 => cases decoded
  | case4 position read byte rest instruction used readOne ih =>
      obtain ⟨more, isCode, bound⟩ := ih decoded
      obtain ⟨shortest, inside⟩ := length_encode_le_of_decode readOne
      refine ⟨instruction :: more, by simpa using isCode, ?_⟩
      have whole : encodeAll (instruction :: more) = instruction.encode ++ encodeAll more := rfl
      rw [whole, List.length_append]
      rw [List.length_cons] at inside ⊢
      omega

/-- **A stream can be written in no more bytes than it was read from.** -/
theorem length_encodeAll_le_of_decodeAll {bytes : List UInt8} {code : Array Instruction}
    (decoded : decodeAll bytes = .ok code) : (encodeAll code.toList).length ≤ bytes.length := by
  obtain ⟨more, isCode, bound⟩ := decodeFrom_bounds decoded
  rw [isCode]
  exact bound

end Instruction

end ScopeMachine
