import Mathlib.Algebra.Group.Nat.Defs
import Mathlib.Data.List.Forall2
import ScopeMachine.Proofs.Stream
import ScopeMachine.Proofs.Compactness

/-! # Which bytes are instructions

Readers take integers in every form, also in those that no writer would use, and so there are byte
strings that are read as an instruction and are not its written form. Here the forms are described
without a reader: where an integer ends, which value its groups have, and which values an operand
admits. Readers accept these forms and no others.

* `Varint.Form` says which bytes are an integer, `Varint.numeral` and `Varint.signedNumeral` which
  one; `Varint.Reads` is what their two readers have in common;
* `OperandKind.Spells` says which operand a form is, and `OperandKind.Fits` that it is one;
* `Operands.decode_eq_ok` and `Instruction.decode_eq_ok` are about rows of operands and
  instructions;
* `Instruction.decode_normalizes` puts together what is known of reading arbitrary bytes. -/

namespace ScopeMachine

/-! ### Forms of integers -/

namespace Varint

/-- Bytes that are an integer of at most `groups` groups and a final byte: every byte but the last
says that another follows, and the last says that none does, unless it is the final byte, which has
no bit to say so. -/
structure Form (groups : Nat) (form : List UInt8) : Prop where
  /-- There is a last byte. -/
  nonempty : form ≠ []
  /-- There are no more bytes than groups, and a final byte. -/
  size : form.length ≤ groups + 1
  /-- All bytes but the last are continued. -/
  continued : ∀ byte ∈ form.dropLast, 128 ≤ byte.toNat
  /-- The last byte is not, unless it is the final one. -/
  ended : form.length ≤ groups → ∀ byte ∈ form.getLast?, byte.toNat < 128

/-- The number whose groups of seven bits, the lowest first, are in the given bytes. The last byte
counts as a whole. -/
def numeral : (form : List UInt8) → Nat
  | [] => 0
  | [byte] => byte.toNat
  | byte :: next :: rest => byte.toNat % 128 + 128 * numeral (next :: rest)

/-- The number of bits in so many bytes: seven in each, and one more in a final byte. -/
def width (groups size : Nat) : Nat := 7 * size + if size = groups + 1 then 1 else 0

/-- The number whose two's complement the bits in the given bytes are. -/
def signedNumeral (groups : Nat) (form : List UInt8) : Int :=
  Int.bmod (numeral form) (2 ^ width groups form.length)

section
variable {groups : Nat} {byte : UInt8} {form rest : List UInt8}

/-- Without groups there is the final byte only. -/
theorem form_zero : Form 0 form ↔ ∃ byte, form = [byte] := by
  constructor
  · rintro ⟨nonempty, size, -, -⟩
    exact List.length_eq_one_iff.mp (Nat.le_antisymm size (List.length_pos_iff.mpr nonempty))
  · rintro ⟨byte, rfl⟩
    exact ⟨List.cons_ne_nil _ _, Nat.le_refl 1, by simp, by simp⟩

/-- The first of some groups is the last of the integer, or continued by the rest. -/
theorem form_succ_cons : Form (groups + 1) (byte :: rest) ↔
    byte.toNat < 128 ∧ rest = [] ∨ 128 ≤ byte.toNat ∧ Form groups rest := by
  constructor
  · rintro ⟨-, size, continued, ended⟩
    cases rest with
    | nil => exact .inl ⟨ended (by simp) byte (by simp), rfl⟩
    | cons next rest =>
        rw [List.dropLast_cons_cons, List.forall_mem_cons] at continued
        refine .inr
          ⟨continued.1, List.cons_ne_nil _ _, Nat.le_of_succ_le_succ size, continued.2, ?_⟩
        intro short
        rw [List.getLast?_cons_cons] at ended
        exact ended (Nat.succ_le_succ short)
  · rintro (⟨last, rfl⟩ | ⟨more, nonempty, size, continued, ended⟩)
    · exact ⟨List.cons_ne_nil _ _, by simp, by simp, by simpa using last⟩
    · obtain ⟨next, rest, rfl⟩ := List.exists_cons_of_ne_nil nonempty
      refine ⟨List.cons_ne_nil _ _, Nat.succ_le_succ size, ?_, ?_⟩
      · rw [List.dropLast_cons_cons, List.forall_mem_cons]
        exact ⟨more, continued⟩
      · rw [List.getLast?_cons_cons]
        exact fun short => ended (Nat.le_of_succ_le_succ short)

/-- A continued byte brings the lowest group. -/
theorem numeral_cons (nonempty : rest ≠ []) :
    numeral (byte :: rest) = byte.toNat % 128 + 128 * numeral rest := by
  obtain ⟨next, rest, rfl⟩ := List.exists_cons_of_ne_nil nonempty
  rfl

/-- One more group brings seven more bits. -/
theorem width_succ (size : Nat) : width (groups + 1) (size + 1) = width groups size + 7 := by
  unfold width
  simp only [Nat.add_right_cancel_iff]
  omega

/-- A group below a number in two's complement leaves the sign to the number. -/
theorem bmod_group {low : Nat} (small : low < 128) (high : Nat) {bits : Nat} (some : 0 < bits) :
    Int.bmod ((low + 128 * high : Nat) : Int) (2 ^ (bits + 7)) =
      low + 128 * Int.bmod high (2 ^ bits) := by
  obtain ⟨half, isHalf⟩ : ∃ half, 2 ^ bits = 2 * half := ⟨2 ^ (bits - 1), by
    rw [← Nat.pow_succ', Nat.succ_eq_add_one, Nat.sub_add_cancel some]⟩
  have range : 2 ^ (bits + 7) = 128 * (2 * half) := by rw [Nat.pow_add, isHalf, Nat.mul_comm]
  have positive : 0 < 2 * half := isHalf ▸ Nat.two_pow_pos bits
  have least := Int.le_bmod (x := high) positive
  have most := Int.bmod_lt (x := high) positive
  have whole := Int.bmod_add_bdiv high (2 * half)
  rw [isHalf, range]
  -- both sides differ by a multiple of the range, and the right one is within it
  have split : ((low + 128 * high : Nat) : Int) =
      low + 128 * Int.bmod high (2 * half) +
        ((128 * (2 * half) : Nat) : Int) * Int.bdiv high (2 * half) := by
    rw [Int.natCast_mul 128, Int.mul_assoc]
    omega
  rw [split, Int.add_mul_bmod_self_left, Int.bmod_eq_of_le]
  · omega
  · omega

/-- A continued byte leaves the sign to the bytes that follow. -/
theorem signedNumeral_cons (nonempty : rest ≠ []) :
    signedNumeral (groups + 1) (byte :: rest) =
      (byte.toNat % 128 : Nat) + 128 * signedNumeral groups rest := by
  have positive : 0 < width groups rest.length := by
    have := List.length_pos_iff.mpr nonempty
    unfold width
    omega
  unfold signedNumeral
  rw [numeral_cons nonempty, List.length_cons, width_succ]
  exact bmod_group (Nat.mod_lt _ (by decide)) _ positive

/-- Bits are read as two's complement by looking at the highest one. -/
theorem signExtend_eq_bmod {half bits : Nat} (within : bits < 2 * half) :
    signExtend half bits = Int.bmod bits (2 * half) := by
  unfold signExtend
  rw [Int.bmod, Int.emod_eq_of_lt (Int.natCast_nonneg bits) (by omega)]
  split <;> split <;> omega

/-- Bytes that end before an integer does: all of them are continued, and none is the final byte. -/
structure Unfinished (groups : Nat) (bytes : List UInt8) : Prop where
  /-- There is no final byte. -/
  size : bytes.length ≤ groups
  /-- All bytes are continued. -/
  continued : ∀ byte ∈ bytes, 128 ≤ byte.toNat

/-- **Bytes start with an integer or end before one does.** -/
theorem exists_form_or_unfinished (groups : Nat) (bytes : List UInt8) :
    (∃ form rest, bytes = form ++ rest ∧ Form groups form) ∨ Unfinished groups bytes := by
  induction groups generalizing bytes with
  | zero =>
      cases bytes with
      | nil => exact .inr ⟨Nat.le_refl 0, by simp⟩
      | cons byte rest => exact .inl ⟨[byte], rest, rfl, form_zero.mpr ⟨byte, rfl⟩⟩
  | succ groups ih =>
      cases bytes with
      | nil => exact .inr ⟨Nat.zero_le _, by simp⟩
      | cons byte bytes =>
          by_cases last : byte.toNat < 128
          · exact .inl ⟨[byte], bytes, rfl, form_succ_cons.mpr (.inl ⟨last, rfl⟩)⟩
          · have more : 128 ≤ byte.toNat := Nat.le_of_not_lt last
            rcases ih bytes with ⟨form, rest, rfl, isForm⟩ | ⟨size, continued⟩
            · exact .inl ⟨byte :: form, rest, rfl, form_succ_cons.mpr (.inr ⟨more, isForm⟩)⟩
            · exact .inr ⟨Nat.succ_le_succ size, List.forall_mem_cons.mpr ⟨more, continued⟩⟩

/-! ### Readers of integers -/

/-- A form is read as its number, whatever follows. -/
theorem Form.readUnsigned (isForm : Form groups form) (rest : List UInt8) :
    Varint.readUnsigned groups (form ++ rest) = .ok (numeral form, form.length) := by
  induction groups generalizing form with
  | zero =>
      obtain ⟨byte, rfl⟩ := form_zero.mp isForm
      rfl
  | succ groups ih =>
      obtain ⟨byte, form, rfl⟩ := List.exists_cons_of_ne_nil isForm.nonempty
      rw [List.cons_append, Varint.readUnsigned]
      rcases form_succ_cons.mp isForm with ⟨last, rfl⟩ | ⟨more, isForm⟩
      · rw [if_pos last]
        rfl
      · have group : byte.toNat - 128 = byte.toNat % 128 := by
          have := byte.toNat_lt
          omega
        rw [if_neg (Nat.not_lt_of_le more), ih isForm, numeral_cons isForm.nonempty, group]
        rfl

/-- A form is read as its number in two's complement, whatever follows. -/
theorem Form.readSigned (isForm : Form groups form) (rest : List UInt8) :
    Varint.readSigned groups (form ++ rest) = .ok (signedNumeral groups form, form.length) := by
  induction groups generalizing form with
  | zero =>
      obtain ⟨byte, rfl⟩ := form_zero.mp isForm
      rw [List.singleton_append, Varint.readSigned, signExtend_eq_bmod byte.toNat_lt]
      rfl
  | succ groups ih =>
      obtain ⟨byte, form, rfl⟩ := List.exists_cons_of_ne_nil isForm.nonempty
      rw [List.cons_append, Varint.readSigned]
      rcases form_succ_cons.mp isForm with ⟨last, rfl⟩ | ⟨more, isForm⟩
      · have bits : width (groups + 1) 1 = 7 := by simp [width]
        rw [if_pos last, signExtend_eq_bmod last, signedNumeral, List.length_singleton, bits]
        rfl
      · have group : byte.toNat - 128 = byte.toNat % 128 := by
          have := byte.toNat_lt
          omega
        rw [if_neg (Nat.not_lt_of_le more), ih isForm, signedNumeral_cons isForm.nonempty, group]
        rfl

/-- A reader fails where there are no bytes, and behind a byte that is continued if it fails on what
follows. -/
structure GoesOn {α : Type} (read : Nat → List UInt8 → Except CodecError (α × Nat)) : Prop where
  /-- There are no bytes. -/
  nil : ∀ groups, read groups [] = .error (.endOfData 0)
  /-- A byte is continued. -/
  cons : ∀ {groups : Nat} {byte : UInt8} {rest : List UInt8} {error : CodecError},
    128 ≤ byte.toNat → read groups rest = .error error →
      read (groups + 1) (byte :: rest) = .error (error.shift 1)

/-- Of bytes that end too early, all are read. -/
theorem Unfinished.read_eq {α : Type} {read : Nat → List UInt8 → Except CodecError (α × Nat)}
    (unfinished : Unfinished groups form) (goesOn : GoesOn read) :
    read groups form = .error (.endOfData form.length) := by
  induction form generalizing groups with
  | nil => exact goesOn.nil groups
  | cons byte form ih =>
      obtain ⟨size, continued⟩ := unfinished
      obtain ⟨more, continued⟩ := List.forall_mem_cons.mp continued
      cases groups with
      | zero => cases size
      | succ groups =>
          rw [goesOn.cons more (ih ⟨Nat.le_of_succ_le_succ size, continued⟩), List.length_cons,
            Nat.add_comm]
          rfl

/-- Unsigned values are read group by group. -/
theorem goesOn_readUnsigned : GoesOn Varint.readUnsigned where
  nil groups := by cases groups <;> rfl
  cons more failed := by rw [Varint.readUnsigned, if_neg (Nat.not_lt_of_le more), failed]

/-- Signed values are read group by group. -/
theorem goesOn_readSigned : GoesOn Varint.readSigned where
  nil groups := by cases groups <;> rfl
  cons more failed := by rw [Varint.readSigned, if_neg (Nat.not_lt_of_le more), failed]

end

section
variable {α : Type}

/-- A reader takes every form for one value, whatever follows. Where there is no form, it says where
the bytes end. -/
structure Reads (read : List UInt8 → Except CodecError (α × Nat)) (valueOf : List UInt8 → α) :
    Prop where
  /-- A form is read as its value. -/
  form : ∀ {form : List UInt8}, Form groupBytes form →
    ∀ rest, read (form ++ rest) = .ok (valueOf form, form.length)
  /-- The end of the bytes is reported. -/
  unfinished : ∀ {bytes : List UInt8}, Unfinished groupBytes bytes →
    read bytes = .error (.endOfData bytes.length)

variable {read : List UInt8 → Except CodecError (α × Nat)} {valueOf : List UInt8 → α}
  {bytes : List UInt8}

/-- **Which bytes are read as an integer**: those that start with a form of it. -/
theorem Reads.eq_ok_iff (reads : Reads read valueOf) {value : α} {used : Nat} :
    read bytes = .ok (value, used) ↔
      ∃ form rest, bytes = form ++ rest ∧ Form groupBytes form ∧ form.length = used ∧
        valueOf form = value := by
  constructor
  · intro done
    rcases exists_form_or_unfinished groupBytes bytes with ⟨form, rest, rfl, isForm⟩ | unfinished
    · rw [reads.form isForm] at done
      cases done
      exact ⟨form, rest, rfl, isForm, rfl, rfl⟩
    · rw [reads.unfinished unfinished] at done
      cases done
  · rintro ⟨form, rest, rfl, isForm, rfl, rfl⟩
    exact reads.form isForm rest

/-- **Which bytes are no integer**: those that end before it does. -/
theorem Reads.eq_error_iff (reads : Reads read valueOf) {error : CodecError} :
    read bytes = .error error ↔
      Unfinished groupBytes bytes ∧ error = .endOfData bytes.length := by
  constructor
  · intro failed
    rcases exists_form_or_unfinished groupBytes bytes with ⟨form, rest, rfl, isForm⟩ | unfinished
    · rw [reads.form isForm] at failed
      cases failed
    · rw [reads.unfinished unfinished] at failed
      cases failed
      exact ⟨unfinished, rfl⟩
  · rintro ⟨unfinished, rfl⟩
    exact reads.unfinished unfinished

/-- Unsigned integers are read. -/
theorem reads_decodeUnsigned :
    Reads decodeUnsigned fun form => UInt64.ofNat (numeral form) where
  form isForm rest := by rw [decodeUnsigned, isForm.readUnsigned]
  unfinished unfinished := by rw [decodeUnsigned, unfinished.read_eq goesOn_readUnsigned]

/-- Signed integers are read. -/
theorem reads_decodeSigned :
    Reads decodeSigned fun form => Int64.ofInt (signedNumeral groupBytes form) where
  form isForm rest := by rw [decodeSigned, isForm.readSigned]
  unfinished unfinished := by rw [decodeSigned, unfinished.read_eq goesOn_readSigned]

end

section
variable {bytes : List UInt8} {used : Nat}

/-- An unsigned number that fits so many groups is read from any of its forms. -/
theorem Form.numeral_lt {groups : Nat} {form : List UInt8} (isForm : Form groups form) :
    numeral form < 256 * groupRange groups := by
  have read := isForm.readUnsigned []
  exact (readUnsigned_bounds read).1

/-- Bytes are read as an unsigned integer if they start with a form whose number it is. -/
theorem decodeUnsigned_eq_ok {value : UInt64} : decodeUnsigned bytes = .ok (value, used) ↔
    ∃ form rest, bytes = form ++ rest ∧ Form groupBytes form ∧ form.length = used ∧
      numeral form = value.toNat := by
  rw [reads_decodeUnsigned.eq_ok_iff]
  constructor
  · rintro ⟨form, rest, rfl, isForm, size, rfl⟩
    exact ⟨form, rest, rfl, isForm, size, (UInt64.toNat_ofNat_of_lt' isForm.numeral_lt).symm⟩
  · rintro ⟨form, rest, rfl, isForm, size, number⟩
    exact ⟨form, rest, rfl, isForm, size, by rw [number, UInt64.ofNat_toNat]⟩

/-- Bytes are read as a signed integer if they start with a form whose number, with its sign, it
is. -/
theorem decodeSigned_eq_ok {value : Int64} : decodeSigned bytes = .ok (value, used) ↔
    ∃ form rest, bytes = form ++ rest ∧ Form groupBytes form ∧ form.length = used ∧
      signedNumeral groupBytes form = value.toInt := by
  rw [reads_decodeSigned.eq_ok_iff]
  constructor
  · rintro ⟨form, rest, rfl, isForm, size, rfl⟩
    obtain ⟨low, high, -⟩ := readSigned_bounds (isForm.readSigned [])
    exact ⟨form, rest, rfl, isForm, size, (Int64.toInt_ofInt_of_le low high).symm⟩
  · rintro ⟨form, rest, rfl, isForm, size, number⟩
    exact ⟨form, rest, rfl, isForm, size, by rw [number, Int64.ofInt_toInt]⟩

end

end Varint

/-! ### Forms of operands -/

namespace OperandKind

/-- Whether operands can be negative. -/
def isSigned : OperandKind → Bool
  | literal1 | literal2 | literal4 | literal8 | jumpOffset => true
  | register | scopeCount | byteOffset | referenceSlot | procedure => false

/-- The lowest number of an operand. -/
def lowest : OperandKind → Int
  | literal1 => -0x80
  | literal2 => -0x8000
  | literal4 | jumpOffset => -0x80000000
  | literal8 => -0x8000000000000000
  | register | scopeCount | byteOffset | referenceSlot | procedure => 0

/-- The highest number of an operand. -/
def highest : OperandKind → Int
  | register => 0x3FFF
  | literal1 => 0x7F
  | literal2 => 0x7FFF
  | literal4 | jumpOffset => 0x7FFFFFFF
  | literal8 => 0x7FFFFFFFFFFFFFFF
  | scopeCount | byteOffset | referenceSlot | procedure => 0xFFFFFFFF

/-- The number that stands for an operand. -/
def number : (kind : OperandKind) → kind.Value → Int
  | register, reg => reg.index
  | literal1, literal => literal.toInt
  | literal2, literal => literal.toInt
  | literal4, literal => literal.toInt
  | literal8, literal => literal.toInt
  | jumpOffset, offset => offset.toInt
  | scopeCount, count => count.toNat
  | byteOffset, offset => offset.toNat
  | referenceSlot, slot => slot.toNat
  | procedure, proc => proc.index.toNat

/-- The number in a form. -/
def numberIn (kind : OperandKind) (form : List UInt8) : Int :=
  if kind.isSigned then Varint.signedNumeral Varint.groupBytes form else Varint.numeral form

/-- Bytes are a form of an operand. -/
structure Spells (kind : OperandKind) (value : kind.Value) (form : List UInt8) : Prop where
  /-- They are an integer. -/
  isForm : Varint.Form Varint.groupBytes form
  /-- It stands for the operand. -/
  number : kind.numberIn form = kind.number value

/-- Bytes are a form of some operand. -/
structure Fits (kind : OperandKind) (form : List UInt8) : Prop where
  /-- They are an integer. -/
  isForm : Varint.Form Varint.groupBytes form
  /-- It is not too low. -/
  low : kind.lowest ≤ kind.numberIn form
  /-- It is not too high. -/
  high : kind.numberIn form ≤ kind.highest

/-- The numbers of operands are those between the lowest and the highest. -/
theorem exists_number_iff (kind : OperandKind) (number : Int) :
    (∃ value, kind.number value = number) ↔ kind.lowest ≤ number ∧ number ≤ kind.highest := by
  constructor
  · rintro ⟨value, rfl⟩
    cases kind with
    | register => exact ⟨Int.natCast_nonneg _, Int.ofNat_le.mpr value.index_le⟩
    | literal1 | literal2 | literal4 | literal8 | jumpOffset =>
        exact ⟨value.le_toInt, Int.le_sub_one_of_lt value.toInt_lt⟩
    | scopeCount | byteOffset | referenceSlot =>
        have := value.toNat_lt
        simp only [OperandKind.number, lowest, highest]
        omega
    | procedure =>
        have := value.index.toNat_lt
        simp only [OperandKind.number, lowest, highest]
        omega
  · rintro ⟨low, high⟩
    cases kind with
    | register => exact ⟨⟨number.toNat, Int.toNat_le.mpr high⟩, Int.toNat_of_nonneg low⟩
    | literal1 => exact ⟨Int8.ofInt number, Int8.toInt_ofInt_of_le low (Int.lt_add_one_of_le high)⟩
    | literal2 =>
        exact ⟨Int16.ofInt number, Int16.toInt_ofInt_of_le low (Int.lt_add_one_of_le high)⟩
    | literal4 | jumpOffset =>
        exact ⟨Int32.ofInt number, Int32.toInt_ofInt_of_le low (Int.lt_add_one_of_le high)⟩
    | literal8 =>
        exact ⟨Int64.ofInt number, Int64.toInt_ofInt_of_le low (Int.lt_add_one_of_le high)⟩
    | scopeCount | byteOffset | referenceSlot =>
        refine ⟨UInt32.ofNat number.toNat, ?_⟩
        simp only [lowest, highest] at low high
        simp only [OperandKind.number]
        rw [UInt32.toNat_ofNat_of_lt' (by show _ < 4294967296; omega), Int.toNat_of_nonneg low]
    | procedure =>
        refine ⟨⟨UInt32.ofNat number.toNat⟩, ?_⟩
        simp only [lowest, highest] at low high
        simp only [OperandKind.number]
        rw [UInt32.toNat_ofNat_of_lt' (by show _ < 4294967296; omega), Int.toNat_of_nonneg low]

/-- A form fits exactly if it is a form of some operand. -/
theorem fits_iff {kind : OperandKind} {form : List UInt8} :
    kind.Fits form ↔ ∃ value, kind.Spells value form := by
  constructor
  · rintro ⟨isForm, low, high⟩
    obtain ⟨value, isNumber⟩ := (kind.exists_number_iff _).mpr ⟨low, high⟩
    exact ⟨value, isForm, isNumber.symm⟩
  · rintro ⟨value, isForm, isNumber⟩
    obtain ⟨low, high⟩ := (kind.exists_number_iff _).mp ⟨value, isNumber.symm⟩
    exact ⟨isForm, low, high⟩

/-! ### Readers of operands -/

section
variable {kind : OperandKind} {bytes : List UInt8} {used : Nat} {result : kind.Value}

/-- An unsigned operand is read from its forms if it is admitted by its number. -/
theorem ofUnsigned_eq_ok (unsigned : kind.isSigned = false)
    {narrow : UInt64 → Except CodecError kind.Value}
    (narrows : ∀ value, narrow value = .ok result ↔ (value.toNat : Int) = kind.number result) :
    ofUnsigned narrow bytes = .ok (result, used) ↔
      ∃ form rest, bytes = form ++ rest ∧ kind.Spells result form ∧ form.length = used := by
  have number : ∀ form, kind.numberIn form = Varint.numeral form := fun form => by
    rw [numberIn, unsigned]
    rfl
  constructor
  · intro decoded
    obtain ⟨value, read, narrowed⟩ := exists_of_ofUnsigned decoded
    obtain ⟨form, rest, rfl, isForm, size, isValue⟩ := Varint.decodeUnsigned_eq_ok.mp read
    refine ⟨form, rest, rfl, ⟨isForm, ?_⟩, size⟩
    rw [number, isValue]
    exact (narrows value).mp narrowed
  · rintro ⟨form, rest, rfl, ⟨isForm, isNumber⟩, rfl⟩
    have value : (UInt64.ofNat (Varint.numeral form)).toNat = Varint.numeral form :=
      UInt64.toNat_ofNat_of_lt' isForm.numeral_lt
    refine bind_eq_ok.mpr ⟨(UInt64.ofNat (Varint.numeral form), form.length),
      Varint.decodeUnsigned_eq_ok.mpr ⟨form, rest, rfl, isForm, rfl, value.symm⟩, ?_⟩
    refine bind_eq_ok.mpr ⟨result, (narrows _).mpr ?_, rfl⟩
    rw [value, ← number]
    exact isNumber

/-- A signed operand is read from its forms if it is admitted by its number. -/
theorem ofSigned_eq_ok (signed : kind.isSigned = true)
    {narrow : Int64 → Except CodecError kind.Value}
    (narrows : ∀ value, narrow value = .ok result ↔ value.toInt = kind.number result) :
    ofSigned narrow bytes = .ok (result, used) ↔
      ∃ form rest, bytes = form ++ rest ∧ kind.Spells result form ∧ form.length = used := by
  have number : ∀ form, kind.numberIn form = Varint.signedNumeral Varint.groupBytes form :=
    fun form => by rw [numberIn, if_pos signed]
  constructor
  · intro decoded
    obtain ⟨value, read, narrowed⟩ := exists_of_ofSigned decoded
    obtain ⟨form, rest, rfl, isForm, size, isValue⟩ := Varint.decodeSigned_eq_ok.mp read
    refine ⟨form, rest, rfl, ⟨isForm, ?_⟩, size⟩
    rw [number, isValue]
    exact (narrows value).mp narrowed
  · rintro ⟨form, rest, rfl, ⟨isForm, isNumber⟩, rfl⟩
    obtain ⟨low, high, -⟩ := Varint.readSigned_bounds (isForm.readSigned [])
    have value : (Int64.ofInt (Varint.signedNumeral Varint.groupBytes form)).toInt =
        Varint.signedNumeral Varint.groupBytes form := Int64.toInt_ofInt_of_le low high
    refine bind_eq_ok.mpr ⟨(Int64.ofInt _, form.length),
      Varint.decodeSigned_eq_ok.mpr ⟨form, rest, rfl, isForm, rfl, value.symm⟩, ?_⟩
    refine bind_eq_ok.mpr ⟨result, (narrows _).mpr ?_, rfl⟩
    rw [value, ← number]
    exact isNumber

end

/-- A 32-bit value is admitted if it is the one that was read. -/
theorem narrowUnsigned_eq_ok {kind : OperandKind} {value : UInt64} {result : UInt32} :
    narrowUnsigned kind value = .ok result ↔ (value.toNat : Int) = result.toNat := by
  constructor
  · intro narrowed
    rw [← ofNat_of_narrowUnsigned narrowed, toNat_wide result.toNat_lt]
  · intro same
    have isValue : value = UInt64.ofNat result.toNat := by
      rw [← Int.ofNat_inj.mp same, UInt64.ofNat_toNat]
    rw [isValue]
    exact narrowUnsigned_ofNat kind result

/-- A register is admitted if its index is the one that was read. -/
theorem narrowRegister_eq_ok {value : UInt64} {reg : RegId} :
    narrowRegister value = .ok reg ↔ (value.toNat : Int) = reg.index := by
  constructor
  · intro narrowed
    have wide : RegId.maxIndex < UInt32.size := by decide
    rw [← ofNat_of_narrowRegister narrowed, toNat_wide (Nat.lt_of_le_of_lt reg.index_le wide)]
  · intro same
    have isValue : value = UInt64.ofNat reg.index := by
      rw [← Int.ofNat_inj.mp same, UInt64.ofNat_toNat]
    rw [isValue]
    exact narrowRegister_ofNat reg

/-- A signed value of limited width is admitted if it is the one that was read. -/
theorem narrowSigned_map_eq_ok {kind : OperandKind} {half : Nat} {α : Type} {make : Int → α}
    {toInt : α → Int}
    (within : ∀ result, -(half : Int) ≤ toInt result ∧ toInt result < half)
    (made : ∀ number : Int, -(half : Int) ≤ number → number < half → toInt (make number) = number)
    (unmade : ∀ result, make (toInt result) = result) {value : Int64} {result : α} :
    (narrowSigned kind half value).map make = .ok result ↔ value.toInt = toInt result := by
  constructor
  · intro narrowed
    obtain ⟨number, isNumber, rfl⟩ := map_eq_ok.mp narrowed
    unfold narrowSigned at isNumber
    split at isNumber
    next bounds =>
      cases isNumber
      exact (made _ bounds.1 bounds.2).symm
    next => cases isNumber
  · intro same
    obtain ⟨low, high⟩ := within result
    rw [narrowSigned, same, if_pos ⟨low, high⟩]
    exact congrArg Except.ok (unmade result)

/-- **Which bytes are read as an operand**: those that start with a form of it. -/
theorem decode_eq_ok {kind : OperandKind} {bytes : List UInt8} {value : kind.Value} {used : Nat} :
    kind.decode bytes = .ok (value, used) ↔
      ∃ form rest, bytes = form ++ rest ∧ kind.Spells value form ∧ form.length = used := by
  cases kind with
  | register =>
      have unsigned : isSigned .register = false := rfl
      exact ofUnsigned_eq_ok unsigned fun _ => narrowRegister_eq_ok
  | scopeCount =>
      have unsigned : isSigned .scopeCount = false := rfl
      exact ofUnsigned_eq_ok unsigned fun _ => narrowUnsigned_eq_ok
  | byteOffset =>
      have unsigned : isSigned .byteOffset = false := rfl
      exact ofUnsigned_eq_ok unsigned fun _ => narrowUnsigned_eq_ok
  | referenceSlot =>
      have unsigned : isSigned .referenceSlot = false := rfl
      exact ofUnsigned_eq_ok unsigned fun _ => narrowUnsigned_eq_ok
  | procedure =>
      have unsigned : isSigned .procedure = false := rfl
      obtain ⟨index⟩ := value
      have narrows : ∀ number, (narrowUnsigned .procedure number).map ProcId.mk = .ok ⟨index⟩ ↔
          (number.toNat : Int) = index.toNat := by
        intro number
        rw [map_eq_ok]
        refine Iff.trans ⟨?_, fun narrowed => ⟨index, narrowed, rfl⟩⟩ narrowUnsigned_eq_ok
        rintro ⟨_, narrowed, ⟨⟩⟩
        exact narrowed
      exact ofUnsigned_eq_ok unsigned narrows
  | literal8 =>
      have signed : isSigned .literal8 = true := rfl
      have narrows : ∀ number, (.ok number : Except CodecError Int64) = .ok value ↔
          number.toInt = value.toInt := by
        intro number
        rw [Except.ok.injEq, Int64.toInt_inj]
      exact ofSigned_eq_ok signed narrows
  | literal1 =>
      have signed : isSigned .literal1 = true := rfl
      exact ofSigned_eq_ok signed fun _ => narrowSigned_map_eq_ok
        (fun literal : Int8 => ⟨literal.le_toInt, literal.toInt_lt⟩)
        (fun _ => Int8.toInt_ofInt_of_le) Int8.ofInt_toInt
  | literal2 =>
      have signed : isSigned .literal2 = true := rfl
      exact ofSigned_eq_ok signed fun _ => narrowSigned_map_eq_ok
        (fun literal : Int16 => ⟨literal.le_toInt, literal.toInt_lt⟩)
        (fun _ => Int16.toInt_ofInt_of_le) Int16.ofInt_toInt
  | literal4 =>
      have signed : isSigned .literal4 = true := rfl
      exact ofSigned_eq_ok signed fun _ => narrowSigned_map_eq_ok
        (fun literal : Int32 => ⟨literal.le_toInt, literal.toInt_lt⟩)
        (fun _ => Int32.toInt_ofInt_of_le) Int32.ofInt_toInt
  | jumpOffset =>
      have signed : isSigned .jumpOffset = true := rfl
      exact ofSigned_eq_ok signed fun _ => narrowSigned_map_eq_ok
        (fun literal : Int32 => ⟨literal.le_toInt, literal.toInt_lt⟩)
        (fun _ => Int32.toInt_ofInt_of_le) Int32.ofInt_toInt

end OperandKind

/-! ### Forms of rows of operands -/

namespace Operands

/-- Pieces of bytes are forms of a row of operands: one piece for each operand, in their order. -/
inductive Spells : (kinds : List OperandKind) → Operands kinds → List (List UInt8) → Prop
  /-- No operands are no pieces. -/
  | nil : Spells [] () []
  /-- The first piece is a form of the first operand, and the others of the others. -/
  | cons {kind : OperandKind} {kinds : List OperandKind} {value : kind.Value}
      {values : Operands kinds} {form : List UInt8} {forms : List (List UInt8)}
      (first : kind.Spells value form) (others : Spells kinds values forms) :
      Spells (kind :: kinds) (value, values) (form :: forms)

/-- Pieces are forms of some row of operands exactly if each fits its operand. -/
theorem exists_spells_iff {kinds : List OperandKind} {forms : List (List UInt8)} :
    (∃ operands, Spells kinds operands forms) ↔ List.Forall₂ OperandKind.Fits kinds forms := by
  constructor
  · rintro ⟨operands, spells⟩
    induction spells with
    | nil => exact .nil
    | cons first others ih => exact .cons (OperandKind.fits_iff.mpr ⟨_, first⟩) ih
  · intro fits
    induction fits with
    | nil => exact ⟨(), .nil⟩
    | cons first others ih =>
        obtain ⟨value, first⟩ := OperandKind.fits_iff.mp first
        obtain ⟨values, others⟩ := ih
        exact ⟨(value, values), .cons first others⟩

/-- **Which bytes are read as a row of operands**: those that start with forms of them, one after
another. -/
theorem decode_eq_ok {kinds : List OperandKind} {bytes : List UInt8} {operands : Operands kinds}
    {used : Nat} : decode kinds bytes = .ok (operands, used) ↔
      ∃ forms rest, bytes = forms.flatten ++ rest ∧ Spells kinds operands forms ∧
        forms.flatten.length = used := by
  induction kinds generalizing bytes used with
  | nil =>
      constructor
      · intro decoded
        cases decoded
        exact ⟨[], bytes, rfl, .nil, rfl⟩
      · rintro ⟨_, _, _, ⟨⟩, rfl⟩
        rfl
  | cons kind kinds ih =>
      constructor
      · intro decoded
        rw [decode] at decoded
        split at decoded
        next => cases decoded
        next value taken decodedFirst =>
          split at decoded
          next => cases decoded
          next values more decodedRest =>
            cases decoded
            -- the other operands are read behind the bytes that the first one has taken
            obtain ⟨form, rest, rfl, first, rfl⟩ := OperandKind.decode_eq_ok.mp decodedFirst
            rw [List.drop_left] at decodedRest
            obtain ⟨forms, rest, rfl, others, rfl⟩ := ih.mp decodedRest
            refine ⟨form :: forms, rest, ?_, .cons first others, ?_⟩
            · rw [List.flatten_cons, List.append_assoc]
            · rw [List.flatten_cons, List.length_append]
      · rintro ⟨_, rest, rfl, spells, rfl⟩
        cases spells with
        | @cons _ _ value values form forms first others =>
            have decodedFirst : kind.decode (form ++ (forms.flatten ++ rest)) =
                .ok (value, form.length) :=
              OperandKind.decode_eq_ok.mpr ⟨form, _, rfl, first, rfl⟩
            have decodedRest : decode kinds (forms.flatten ++ rest) =
                .ok (values, forms.flatten.length) := ih.mpr ⟨forms, rest, rfl, others, rfl⟩
            rw [List.flatten_cons, List.append_assoc, decode, decodedFirst]
            dsimp only
            rw [List.drop_left, decodedRest, List.length_append]

end Operands

/-! ### Forms of instructions -/

namespace Instruction

/-- Bytes are a form of an instruction: its opcode byte and forms of its operands, and no more bytes
than an instruction may have. -/
structure Spells (instruction : Instruction) (bytes : List UInt8) : Prop where
  /-- After the byte of the opcode there are forms of the operands. -/
  parts : ∃ opcode operands forms, instruction = assemble opcode operands ∧
    bytes = opcode.byte :: List.flatten forms ∧ Operands.Spells opcode.signature operands forms
  /-- There are not too many bytes. -/
  size : bytes.length ≤ maxInstructionSize

/-- **Which bytes are read as an instruction**: those that start with a form of it. -/
theorem decode_eq_ok {bytes : List UInt8} {instruction : Instruction} {used : Nat} :
    decode bytes = .ok (instruction, used) ↔
      ∃ form rest, bytes = form ++ rest ∧ instruction.Spells form ∧ form.length = used := by
  constructor
  · intro decoded
    unfold decode at decoded
    split at decoded
    next => cases decoded
    next byte bytes =>
      split at decoded
      next => cases decoded
      next opcode found =>
        split at decoded
        next => cases decoded
        next operands taken read =>
          split at decoded
          next => cases decoded
          next small =>
            cases decoded
            obtain ⟨forms, rest, rfl, spells, rfl⟩ := Operands.decode_eq_ok.mp read
            refine ⟨opcode.byte :: forms.flatten, rest, ?_,
              ⟨⟨opcode, operands, forms, rfl, rfl, spells⟩, Nat.le_of_not_lt small⟩, rfl⟩
            rw [Opcode.byte_of_ofByte? found, List.cons_append]
  · rintro ⟨_, rest, rfl, ⟨⟨opcode, operands, forms, rfl, rfl, spells⟩, size⟩, rfl⟩
    have read : Operands.decode opcode.signature (forms.flatten ++ rest) =
        .ok (operands, forms.flatten.length) :=
      Operands.decode_eq_ok.mpr ⟨forms, rest, rfl, spells, rfl⟩
    unfold decode
    dsimp only [List.cons_append]
    rw [Opcode.ofByte?_byte]
    dsimp only
    rw [read]
    dsimp only
    exact if_neg (Nat.not_lt_of_le size)

/-- **Arbitrary bytes are read as an instruction that has a form of its own.** What is read takes at
least one byte and at most twelve, and depends on these bytes only; the instruction can be written
in as few bytes, and is read back from what is written. Bytes are read as an instruction exactly if
they start with the byte of an opcode and then one integer for each of its operands, in any form,
whose value is one that the operand can have, and these are at most twelve bytes. -/
theorem decode_normalizes (bytes : List UInt8) :
    (∀ instruction used, decode bytes = .ok (instruction, used) →
      (1 ≤ used ∧ used ≤ min 12 bytes.length) ∧
      (∀ other, bytes.take used <+: other → decode other = .ok (instruction, used)) ∧
      instruction.encodedSize ≤ used ∧
      decode instruction.encode = .ok (instruction, instruction.encodedSize)) ∧
    ((∃ result, decode bytes = .ok result) ↔
      ∃ (opcode : Opcode) (forms : List (List UInt8)) (rest : List UInt8),
        bytes = opcode.byte :: forms.flatten ++ rest ∧
        List.Forall₂ OperandKind.Fits opcode.signature forms ∧
        forms.flatten.length + 1 ≤ 12) := by
  refine ⟨fun instruction used decoded => ?_, ?_, ?_⟩
  · obtain ⟨shorter, -⟩ := length_encode_le_of_decode decoded
    obtain ⟨form, rest, rfl, spells, rfl⟩ := decode_eq_ok.mp decoded
    have size : form.length ≤ 12 := spells.size
    refine ⟨⟨?_, ?_⟩, ?_, shorter, ?_⟩
    · obtain ⟨opcode, operands, forms, -, rfl, -⟩ := spells.parts
      exact Nat.succ_le_succ (Nat.zero_le _)
    · rw [List.length_append]
      omega
    · -- the form is the same whatever follows it
      rw [List.take_left]
      rintro _ ⟨more, rfl⟩
      exact decode_eq_ok.mpr ⟨form, more, rfl, spells, rfl⟩
    · have readBack := instruction.decode_encode []
      rw [List.append_nil] at readBack
      exact readBack
  · rintro ⟨⟨instruction, used⟩, decoded⟩
    obtain ⟨_, rest, rfl, ⟨⟨opcode, operands, forms, -, rfl, spells⟩, size⟩, -⟩ :=
      decode_eq_ok.mp decoded
    exact ⟨opcode, forms, rest, rfl, Operands.exists_spells_iff.mp ⟨operands, spells⟩, size⟩
  · rintro ⟨opcode, forms, rest, rfl, fits, size⟩
    obtain ⟨operands, spells⟩ := Operands.exists_spells_iff.mpr fits
    exact ⟨(assemble opcode operands, _), decode_eq_ok.mpr
      ⟨opcode.byte :: forms.flatten, rest, rfl, ⟨⟨opcode, operands, forms, rfl, rfl, spells⟩, size⟩,
        rfl⟩⟩

/-- Register 5 and the literal -1, both in three bytes where one would do: the instruction that is
read from seven bytes is written in three. -/
theorem decode_stretched :
    decode [0x10, 0x85, 0x80, 0x00, 0xFF, 0xFF, 0x7F, 0x70] = .ok (.cpi1 ⟨5, by decide⟩ (-1), 7) ∧
      decode [0x10, 0x85, 0x80, 0x00, 0xFF, 0xFF, 0x7F] = .ok (.cpi1 ⟨5, by decide⟩ (-1), 7) ∧
      (cpi1 ⟨5, by decide⟩ (-1)).encodedSize = 3 ∧
      decode (cpi1 ⟨5, by decide⟩ (-1)).encode = .ok (.cpi1 ⟨5, by decide⟩ (-1), 3) ∧
      ∃ (opcode : Opcode) (forms : List (List UInt8)) (rest : List UInt8),
        [0x10, 0x85, 0x80, 0x00, 0xFF, 0xFF, 0x7F, 0x70] = opcode.byte :: forms.flatten ++ rest ∧
        List.Forall₂ OperandKind.Fits opcode.signature forms ∧ forms.flatten.length + 1 ≤ 12 := by
  have decoded : decode [0x10, 0x85, 0x80, 0x00, 0xFF, 0xFF, 0x7F, 0x70] =
      .ok (.cpi1 ⟨5, by decide⟩ (-1), 7) := rfl
  have size : (cpi1 ⟨5, by decide⟩ (-1)).encodedSize = 3 := rfl
  obtain ⟨normal, accepted⟩ :=
    decode_normalizes [0x10, 0x85, 0x80, 0x00, 0xFF, 0xFF, 0x7F, 0x70]
  obtain ⟨-, only, -, readBack⟩ := normal _ _ decoded
  rw [size] at readBack
  exact ⟨decoded, only _ (by decide), size, readBack, accepted.mp ⟨_, decoded⟩⟩

end Instruction

end ScopeMachine
