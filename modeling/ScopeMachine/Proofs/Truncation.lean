import Mathlib.Algebra.Group.Nat.Defs
import ScopeMachine.Proofs.Forms

/-! # Where bytes end too early

A reader that comes to the end of its bytes before it has what it looks for says so, and says where
the bytes end. In all other cases it has made up its mind: bytes that are appended change nothing.

* `Settles` says that a reader has made up its mind, and `ReportsEnd` that it has or says where the
  bytes end;
* `Varint.Reads.reportsEnd`, `OperandKind.reportsEnd`, `Operands.reportsEnd` and
  `Instruction.reportsEnd` go from integers to instructions, and
  `Instruction.offset_eq_of_decodeFrom` to streams;
* `Instruction.exists_split` finds the instruction that a cut goes through;
* `Instruction.truncation_reported` puts together what is known of cut off bytes. -/

namespace ScopeMachine

/-! ### Readers -/

section
variable {α : Type}

/-- A reader does not need more bytes: it does not say that they have ended, and what it says does
not depend on what follows. -/
structure Settles (read : List UInt8 → Except CodecError (α × Nat)) (bytes : List UInt8) :
    Prop where
  /-- The end of the bytes is not reported. -/
  complete : ∀ offset, read bytes ≠ .error (.endOfData offset)
  /-- Bytes that follow change nothing. -/
  unchanged : ∀ rest, read (bytes ++ rest) = read bytes

/-- A reader that needs more bytes than there are says where they end. -/
def ReportsEnd (read : List UInt8 → Except CodecError (α × Nat)) : Prop :=
  ∀ bytes, read bytes = .error (.endOfData bytes.length) ∨ Settles read bytes

variable {read : List UInt8 → Except CodecError (α × Nat)} {bytes : List UInt8}

/-- The end of the bytes is where it is reported. -/
theorem ReportsEnd.offset_eq (reports : ReportsEnd read) {offset : Nat}
    (ended : read bytes = .error (.endOfData offset)) : offset = bytes.length := by
  rcases reports bytes with isEnd | settles
  · rw [isEnd] at ended
    cases ended
    rfl
  · exact absurd ended (settles.complete offset)

/-- Bytes that follow change what is read exactly if the end of the bytes was reported. -/
theorem ReportsEnd.append_ne_iff (reports : ReportsEnd read) (bytes rest : List UInt8) :
    read (bytes ++ rest) ≠ read bytes ↔
      rest ≠ [] ∧ ∃ offset, read bytes = .error (.endOfData offset) := by
  constructor
  · intro changed
    refine ⟨?_, bytes.length, ?_⟩
    · rintro rfl
      exact changed (by rw [List.append_nil])
    · exact (reports bytes).resolve_right fun settles => changed (settles.unchanged rest)
  · rintro ⟨some, offset, ended⟩ same
    -- the end would be reported at the same place, but it has moved
    have before := reports.offset_eq ended
    have behind := reports.offset_eq (same.trans ended)
    have positive := List.length_pos_iff.mpr some
    rw [List.length_append] at behind
    omega

end

/-- Errors that are not about the end of the bytes do not become one when they are moved. -/
theorem CodecError.shift_ne_endOfData {error : CodecError}
    (other : ∀ offset, error ≠ .endOfData offset) (distance offset : Nat) :
    error.shift distance ≠ .endOfData offset := by
  cases error with
  | endOfData offset => exact absurd rfl (other offset)
  | _ => nofun

/-! ### Integers -/

/-- **Readers of integers say where the bytes end.** -/
theorem Varint.Reads.reportsEnd {α : Type} {read : List UInt8 → Except CodecError (α × Nat)}
    {valueOf : List UInt8 → α} (reads : Reads read valueOf) : ReportsEnd read := by
  intro bytes
  rcases exists_form_or_unfinished groupBytes bytes with ⟨form, behind, rfl, isForm⟩ | unfinished
  · refine .inr ⟨fun offset ended => ?_, fun rest => ?_⟩
    · rw [reads.form isForm] at ended
      cases ended
    · rw [List.append_assoc, reads.form isForm, reads.form isForm]
  · exact .inl (reads.unfinished unfinished)

/-! ### Operands -/

namespace OperandKind

/-- What is made of an integer says where the bytes end if the reader of the integer does, since
whether a value is admitted has nothing to do with the bytes. -/
theorem reportsEnd_narrowed {α β : Type} {read : List UInt8 → Except CodecError (α × Nat)}
    (reports : ReportsEnd read) (narrow : α → Except CodecError β)
    (narrows : ∀ value offset, narrow value ≠ .error (.endOfData offset)) :
    ReportsEnd fun bytes => do
      let (value, used) ← read bytes
      return (← narrow value, used) := by
  intro bytes
  rcases reports bytes with ended | settles
  · exact .inl (bind_eq_error.mpr (.inl ended))
  · refine .inr ⟨fun offset failed => ?_, fun rest => ?_⟩
    · rcases bind_eq_error.mp failed with ended | ⟨⟨value, used⟩, -, failed⟩
      · exact settles.complete offset ended
      · rcases bind_eq_error.mp failed with refused | ⟨_, -, failed⟩
        · exact narrows value offset refused
        · cases failed
    · dsimp only
      rw [settles.unchanged]

/-- No 32-bit value is refused for the end of the bytes. -/
theorem narrowUnsigned_ne_endOfData (kind : OperandKind) (value : UInt64) (offset : Nat) :
    narrowUnsigned kind value ≠ .error (.endOfData offset) := by
  unfold narrowUnsigned
  split <;> nofun

/-- No register is refused for the end of the bytes. -/
theorem narrowRegister_ne_endOfData (value : UInt64) (offset : Nat) :
    narrowRegister value ≠ .error (.endOfData offset) := by
  unfold narrowRegister RegId.ofIndex
  split
  · split <;> nofun
  · nofun

/-- No signed value of limited width is refused for the end of the bytes. -/
theorem narrowSigned_ne_endOfData (kind : OperandKind) (half : Nat) (value : Int64)
    (offset : Nat) : narrowSigned kind half value ≠ .error (.endOfData offset) := by
  unfold narrowSigned
  split <;> nofun

/-- What is made of an admitted value is not refused either. -/
theorem map_ne_endOfData {α β : Type} {make : α → β} {narrowed : Except CodecError α}
    {offset : Nat} (other : narrowed ≠ .error (.endOfData offset)) :
    narrowed.map make ≠ .error (.endOfData offset) := by
  cases narrowed with
  | error error => exact fun failed => other (congrArg Except.error (Except.error.inj failed))
  | ok value => nofun

/-- Readers of operands say where the bytes end. -/
theorem reportsEnd (kind : OperandKind) : ReportsEnd kind.decode := by
  have unsigned {α : Type} (narrow : UInt64 → Except CodecError α) :=
    reportsEnd_narrowed Varint.reads_decodeUnsigned.reportsEnd narrow
  have signed {α : Type} (narrow : Int64 → Except CodecError α) :=
    reportsEnd_narrowed Varint.reads_decodeSigned.reportsEnd narrow
  cases kind with
  | register => exact unsigned _ narrowRegister_ne_endOfData
  | scopeCount | byteOffset | referenceSlot => exact unsigned _ (narrowUnsigned_ne_endOfData _)
  | procedure =>
      exact unsigned (fun value => (narrowUnsigned .procedure value).map ProcId.mk)
        fun value offset => map_ne_endOfData (narrowUnsigned_ne_endOfData _ value offset)
  | literal8 => exact signed _ nofun
  | literal1 | literal2 | literal4 | jumpOffset =>
      exact signed _ fun value offset =>
        map_ne_endOfData (narrowSigned_ne_endOfData _ _ value offset)

end OperandKind

/-- Readers of rows of operands say where the bytes end. -/
theorem Operands.reportsEnd (kinds : List OperandKind) : ReportsEnd (decode kinds) := by
  induction kinds with
  | nil => exact fun _ => .inr ⟨nofun, fun _ => rfl⟩
  | cons kind kinds ih =>
      intro bytes
      rcases kind.reportsEnd bytes with ended | settles
      · exact .inl (by rw [decode, ended])
      cases first : kind.decode bytes with
      | error error =>
          refine .inr ⟨fun offset failed => ?_, fun rest => ?_⟩
          · rw [decode, first] at failed
            cases failed
            exact settles.complete offset first
          · rw [decode, decode, settles.unchanged, first]
      | ok result =>
          obtain ⟨value, used⟩ := result
          obtain ⟨-, inside⟩ := kind.length_encode_le_of_decode first
          -- the others are read behind the first, and an end that they report is moved as far
          rcases ih (bytes.drop used) with ended | settlesRest
          · refine .inl ?_
            rw [decode, first]
            dsimp only
            rw [ended]
            dsimp only [CodecError.shift]
            rw [List.length_drop, Nat.add_sub_cancel' inside]
          · refine .inr ⟨fun offset failed => ?_, fun rest => ?_⟩
            · rw [decode, first] at failed
              dsimp only at failed
              cases others : decode kinds (bytes.drop used) with
              | error error =>
                  have complete : ∀ offset, error ≠ .endOfData offset :=
                    fun offset isEnd => settlesRest.complete offset (isEnd ▸ others)
                  rw [others] at failed
                  exact CodecError.shift_ne_endOfData complete used offset
                    (Except.error.inj failed)
              | ok values =>
                  rw [others] at failed
                  cases failed
            · rw [decode, decode, settles.unchanged, first]
              dsimp only
              rw [List.drop_append_of_le_length inside, settlesRest.unchanged]

/-! ### Instructions -/

namespace Instruction

/-- **Readers of instructions say where the bytes end.** -/
theorem reportsEnd : ReportsEnd decode := by
  intro bytes
  cases bytes with
  | nil => exact .inl rfl
  | cons byte bytes =>
      cases found : Opcode.ofByte? byte with
      | none =>
          refine .inr ⟨fun offset failed => ?_, fun rest => ?_⟩
          · rw [decode, found] at failed
            cases failed
          · rw [List.cons_append, decode, decode, found]
      | some opcode =>
          rcases Operands.reportsEnd opcode.signature bytes with ended | settles
          · refine .inl ?_
            rw [decode, found]
            dsimp only
            rw [ended]
            dsimp only [CodecError.shift]
            rw [List.length_cons, Nat.add_comm]
          · refine .inr ⟨fun offset failed => ?_, fun rest => ?_⟩
            · rw [decode, found] at failed
              dsimp only at failed
              cases read : Operands.decode opcode.signature bytes with
              | error error =>
                  have complete : ∀ offset, error ≠ .endOfData offset :=
                    fun offset isEnd => settles.complete offset (isEnd ▸ read)
                  rw [read] at failed
                  exact CodecError.shift_ne_endOfData complete 1 offset (Except.error.inj failed)
              | ok result =>
                  rw [read] at failed
                  dsimp only at failed
                  split at failed <;> cases failed
            · rw [List.cons_append, decode, decode, found]
              dsimp only
              rw [settles.unchanged]

/-- The beginning of a written instruction is not read as anything. -/
theorem decode_take (instruction : Instruction) {size : Nat}
    (short : size < instruction.encode.length) :
    decode (instruction.encode.take size) = .error (.endOfData size) := by
  have length : (instruction.encode.take size).length = size :=
    List.length_take_of_le (Nat.le_of_lt short)
  rcases reportsEnd (instruction.encode.take size) with ended | settles
  · rw [ended, length]
  · -- otherwise all of the instruction would have been read from these bytes
    have same := settles.unchanged (instruction.encode.drop size)
    have whole := instruction.decode_encode []
    rw [List.append_nil] at whole
    rw [List.take_append_drop, whole] at same
    obtain ⟨-, inside⟩ := length_encode_le_of_decode same.symm
    omega

/-! ### Streams -/

/-- A stream ends where the end of one of its instructions is missing. -/
theorem offset_eq_of_decodeFrom {skip position offset : Nat} {read : Array Instruction}
    {bytes : List UInt8}
    (ended : decodeFrom skip position read bytes = .error (.endOfData offset)) :
    offset = position + bytes.length := by
  fun_induction decodeFrom skip position read bytes with
  | case1 => cases ended
  | case2 position read skip byte rest ih =>
      rw [ih ended, List.length_cons]
      omega
  | case3 position read byte rest error failed =>
      cases error with
      | endOfData found =>
          cases ended
          rw [reportsEnd.offset_eq failed]
      | _ => cases ended
  | case4 position read byte rest instruction used decoded ih =>
      rw [ih ended, List.length_cons]
      omega

/-- A position within a written stream is within one of its instructions, or at its first byte. -/
theorem exists_split {code : List Instruction} {size : Nat}
    (inside : size < (encodeAll code).length) :
    ∃ before instruction after rest, code = before ++ instruction :: after ∧
      size = (encodeAll before).length + rest ∧ rest < instruction.encode.length := by
  induction code generalizing size with
  | nil => cases inside
  | cons instruction code ih =>
      have whole : encodeAll (instruction :: code) = instruction.encode ++ encodeAll code := rfl
      by_cases first : size < instruction.encode.length
      · exact ⟨[], instruction, code, size, rfl, (Nat.zero_add size).symm, first⟩
      · rw [whole, List.length_append] at inside
        obtain ⟨before, cut, after, rest, rfl, isSize, short⟩ :=
          @ih (size - instruction.encode.length) (by omega)
        have length : (encodeAll (instruction :: before)).length =
            instruction.encode.length + (encodeAll before).length := by
          rw [← List.length_append]
          rfl
        exact ⟨instruction :: before, cut, after, rest, rfl, by omega, short⟩

/-- Streams are written one behind the other. -/
theorem encodeAll_append (code more : List Instruction) :
    encodeAll (code ++ more) = encodeAll code ++ encodeAll more :=
  List.flatMap_append

/-- **A cut between instructions** leaves those before it. -/
theorem decodeAll_take_boundary (code : List Instruction) (count : Nat) :
    decodeAll ((encodeAll code).take (encodeAll (code.take count)).length) =
      .ok (code.take count).toArray := by
  have whole : encodeAll code = encodeAll (code.take count) ++ encodeAll (code.drop count) := by
    rw [← encodeAll_append, List.take_append_drop]
  rw [whole, List.take_left, decodeAll_encodeAll]

/-- **A cut through an instruction** is reported. -/
theorem decodeAll_take_within (before after : List Instruction) (instruction : Instruction)
    {rest : Nat} (some : 0 < rest) (short : rest < instruction.encode.length) :
    decodeAll
        ((encodeAll (before ++ instruction :: after)).take ((encodeAll before).length + rest)) =
      .error (.endOfData ((encodeAll before).length + rest)) := by
  have whole : encodeAll (before ++ instruction :: after) =
      encodeAll before ++ (instruction.encode ++ encodeAll after) := encodeAll_append _ _
  have cut : (encodeAll (before ++ instruction :: after)).take ((encodeAll before).length + rest) =
      encodeAll before ++ instruction.encode.take rest := by
    rw [whole, List.take_length_add_append, List.take_append_of_le_length (Nat.le_of_lt short)]
  have ended := instruction.decode_take short
  obtain ⟨byte, bytes, isCons⟩ : ∃ byte bytes, instruction.encode.take rest = byte :: bytes := by
    refine List.exists_cons_of_length_pos ?_
    rwa [List.length_take_of_le (Nat.le_of_lt short)]
  have read := decodeFrom_encodeAll before 0 #[] (byte :: bytes)
  rw [decodeFrom, ← isCons, ended, Nat.zero_add] at read
  rw [cut]
  exact read

/-! ### Cut off bytes -/

/-- **Bytes that are cut off are reported as such, and only these.** Of a written stream that is cut
somewhere, the instructions in front of the cut are read if it is between two instructions;
otherwise the end of the data is reported, at the cut. On any bytes, the end of the data is where it
is reported, by the reader of one instruction and by that of streams. Bytes that are appended change
what the reader of one instruction says exactly if it has reported the end of the data. -/
theorem truncation_reported (code : List Instruction) (bytes : List UInt8) :
    (∀ size < (encodeAll code).length,
      (∀ count, (encodeAll (code.take count)).length = size →
        decodeAll ((encodeAll code).take size) = .ok (code.take count).toArray) ∧
      ((∀ count, (encodeAll (code.take count)).length ≠ size) →
        decodeAll ((encodeAll code).take size) = .error (.endOfData size))) ∧
    (∀ offset, decode bytes = .error (.endOfData offset) → offset = bytes.length) ∧
    (∀ offset, decodeAll bytes = .error (.endOfData offset) → offset = bytes.length) ∧
    ∀ rest, decode (bytes ++ rest) ≠ decode bytes ↔
      rest ≠ [] ∧ ∃ offset, decode bytes = .error (.endOfData offset) := by
  refine ⟨fun size inside => ⟨?_, fun noBoundary => ?_⟩, fun offset => reportsEnd.offset_eq,
    fun offset ended => ?_, reportsEnd.append_ne_iff bytes⟩
  · rintro count rfl
    exact decodeAll_take_boundary code count
  · obtain ⟨before, instruction, after, rest, rfl, rfl, short⟩ := exists_split inside
    refine decodeAll_take_within before after instruction (Nat.pos_of_ne_zero ?_) short
    rintro rfl
    exact noBoundary before.length (by rw [List.take_left, Nat.add_zero])
  · rw [offset_eq_of_decodeFrom ended, Nat.zero_add]

/-- The literal one million takes three bytes in a stream of six. A cut behind two of them is
reported, to readers of streams and of instructions, and goes away with the third; a cut behind all
of them leaves the first instruction. -/
theorem truncation_million :
    decodeAll ((encodeAll [.cpi4 ⟨1, by decide⟩ 1000000, .ret]).take 4) = .error (.endOfData 4) ∧
      decodeAll ((encodeAll [.cpi4 ⟨1, by decide⟩ 1000000, .ret]).take 5) =
        .ok #[.cpi4 ⟨1, by decide⟩ 1000000] ∧
      4 = [0x12, 0x01, 0xC0, 0x84].length ∧
      decode ([0x12, 0x01, 0xC0, 0x84] ++ [0x3D]) ≠ decode [0x12, 0x01, 0xC0, 0x84] := by
  have readOne : decode [0x12, 0x01, 0xC0, 0x84] = .error (.endOfData 4) := rfl
  obtain ⟨cuts, offset, -, appended⟩ :=
    truncation_reported [.cpi4 ⟨1, by decide⟩ 1000000, .ret] [0x12, 0x01, 0xC0, 0x84]
  refine ⟨?_, ?_, offset 4 readOne, ?_⟩
  · refine (cuts 4 (by decide)).2 fun count => ?_
    match count with
    | 0 => decide
    | 1 => decide
    | count + 2 =>
        rw [List.take_of_length_le (Nat.le_add_left 2 count)]
        decide
  · exact (cuts 5 (by decide)).1 1 rfl
  · exact (appended [0x3D]).mpr ⟨List.cons_ne_nil _ _, 4, readOne⟩

end Instruction

end ScopeMachine
