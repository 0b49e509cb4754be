import Mathlib.Data.Nat.Bitwise
import ScopeMachine.Proofs.Shifts
import ScopeMachine.Proofs.Truncation

/-! # The shortest form

An integer has many forms, of which the one that is written is the shortest, and no other is as
short. How long it is can be told from the number of significant bits.

* `bitLength_le` and `bitLength_div` are what is known of the number of bits;
* `length_encodeUnsigned` and `length_encodeSigned` say that sizes are told right;
* `Form.eq_unsignedGroups` and `Form.eq_signedGroups` say that a form of that size is the one that
  is written;
* `unsigned_shortest` and `signed_shortest` put together what is known of integers. -/

namespace ScopeMachine.Varint

/-! ### Bits -/

/-- A number has at most so many bits if it is below that power of two. -/
theorem bitLength_le {value size : Nat} : bitLength value ≤ size ↔ value < 2 ^ size := by
  unfold bitLength
  split
  · next zero => simp [zero]
  · next some => exact Nat.log2_lt some

/-- Taking a group off a number takes seven bits off. -/
theorem bitLength_div (value : Nat) : bitLength (value / 128) = bitLength value - 7 := by
  refine eq_of_forall_ge_iff fun size => ?_
  rw [bitLength_le, Nat.div_lt_iff_lt_mul (by decide), Nat.sub_le_iff_le_add, bitLength_le,
    Nat.pow_add]

/-! ### Sizes -/

/-- The groups of an unsigned value, counted by its bits. -/
theorem length_unsignedGroups (groups value : Nat) :
    (unsignedGroups groups value).length =
      max 1 (min ((bitLength value + 6) / 7) (groups + 1)) := by
  induction groups generalizing value with
  | zero =>
      show 1 = _
      omega
  | succ groups ih =>
      have oneGroup : bitLength value ≤ 7 ↔ value < 128 := bitLength_le
      rw [unsignedGroups]
      by_cases small : value < 128
      · have bits := oneGroup.mpr small
        rw [if_pos small, List.length_singleton]
        omega
      · have bits := mt oneGroup.mp small
        rw [if_neg small, List.length_cons, ih, bitLength_div]
        omega

/-- The number whose bits are those of a signed value, or their complement if it is negative. -/
def magnitude (value : Int) : Nat := (if value < 0 then -value - 1 else value).toNat

/-- The groups of a signed value, counted by its bits and one for the sign. -/
theorem length_signedGroups (groups : Nat) (value : Int) :
    (signedGroups groups value).length =
      max 1 (min ((bitLength (magnitude value) + 1 + 6) / 7) (groups + 1)) := by
  induction groups generalizing value with
  | zero =>
      show 1 = _
      omega
  | succ groups ih =>
      have oneGroup : bitLength (magnitude value) ≤ 6 ↔ -64 ≤ value ∧ value < 64 := by
        rw [bitLength_le, magnitude]
        split <;> omega
      have higher : magnitude (value / 128) = magnitude value / 128 := by
        unfold magnitude
        split <;> split <;> omega
      rw [signedGroups]
      by_cases small : -64 ≤ value ∧ value < 64
      · have bits := oneGroup.mpr small
        rw [if_pos small, List.length_singleton]
        omega
      · have bits := mt oneGroup.mp small
        rw [if_neg small, List.length_cons, ih, higher, bitLength_div]
        omega

/-- The size of an unsigned value is that of its written form. -/
theorem length_encodeUnsigned (value : UInt64) :
    (encodeUnsigned value).length = unsignedSize value :=
  length_unsignedGroups groupBytes value.toNat

/-- The size of a signed value is that of its written form. -/
theorem length_encodeSigned (value : Int64) : (encodeSigned value).length = signedSize value :=
  length_signedGroups groupBytes value.toInt

/-- No value takes more than nine bytes. -/
theorem sizeOfBits_le (bits : Nat) : sizeOfBits bits ≤ 9 := by
  have maximum : maxSize = 9 := rfl
  unfold sizeOfBits
  omega

/-! ### Forms of the smallest size -/

section
variable {groups : Nat} {form : List UInt8}

/-- **A form of an unsigned value that is as short as the written one** is the written one. -/
theorem Form.eq_unsignedGroups (isForm : Form groups form)
    (short : form.length ≤ (unsignedGroups groups (numeral form)).length) :
    form = unsignedGroups groups (numeral form) := by
  induction groups generalizing form with
  | zero =>
      obtain ⟨byte, rfl⟩ := form_zero.mp isForm
      exact congrArg (fun byte => [byte]) (eq_ofNat rfl)
  | succ groups ih =>
      obtain ⟨byte, form, rfl⟩ := List.exists_cons_of_ne_nil isForm.nonempty
      rcases form_succ_cons.mp isForm with ⟨last, rfl⟩ | ⟨more, isForm⟩
      · rw [unsignedGroups, if_pos (show numeral [byte] < 128 from last)]
        exact congrArg (fun byte => [byte]) (eq_ofNat rfl)
      · have byteSmall := byte.toNat_lt
        rw [numeral_cons isForm.nonempty, unsignedGroups] at short ⊢
        by_cases small : byte.toNat % 128 + 128 * numeral form < 128
        · -- one group would do, but there is another byte
          rw [if_pos small, List.length_cons, List.length_singleton] at short
          have some := List.length_pos_iff.mpr isForm.nonempty
          omega
        · have higher : (byte.toNat % 128 + 128 * numeral form) / 128 = numeral form := by omega
          rw [if_neg small, higher] at short ⊢
          rw [← ih isForm (Nat.le_of_succ_le_succ short)]
          exact congrArg (· :: form) (eq_ofNat (by omega))

/-- **A form of a signed value that is as short as the written one** is the written one. -/
theorem Form.eq_signedGroups (isForm : Form groups form)
    (short : form.length ≤ (signedGroups groups (signedNumeral groups form)).length) :
    form = signedGroups groups (signedNumeral groups form) := by
  induction groups generalizing form with
  | zero =>
      obtain ⟨byte, rfl⟩ := form_zero.mp isForm
      have small := byte.toNat_lt
      have number : signedNumeral 0 [byte] = _ := formNumber_singleton true 0 128 rfl small
      refine congrArg (fun byte => [byte]) (eq_ofNat ?_)
      split at number <;> omega
  | succ groups ih =>
      obtain ⟨byte, form, rfl⟩ := List.exists_cons_of_ne_nil isForm.nonempty
      rcases form_succ_cons.mp isForm with ⟨last, rfl⟩ | ⟨more, isForm⟩
      · have number : signedNumeral (groups + 1) [byte] = _ :=
          formNumber_singleton true (groups + 1) 64 (by simp [width]) last
        simp only [true_and] at number
        have fits : -64 ≤ signedNumeral (groups + 1) [byte] ∧
            signedNumeral (groups + 1) [byte] < 64 := by
          split at number <;> omega
        rw [signedGroups, if_pos fits]
        refine congrArg (fun byte => [byte]) (eq_ofNat ?_)
        split at number <;> omega
      · have byteSmall := byte.toNat_lt
        rw [signedNumeral_cons isForm.nonempty, signedGroups] at short ⊢
        generalize number : signedNumeral groups form = high at short ih ⊢
        by_cases small : -64 ≤ ((byte.toNat % 128 : Nat) : Int) + 128 * high ∧
            ((byte.toNat % 128 : Nat) : Int) + 128 * high < 64
        · rw [if_pos small, List.length_cons, List.length_singleton] at short
          have some := List.length_pos_iff.mpr isForm.nonempty
          omega
        · have higher : (((byte.toNat % 128 : Nat) : Int) + 128 * high) / 128 = high := by omega
          rw [if_neg small, higher, ← number] at short ⊢
          rw [← ih isForm (Nat.le_of_succ_le_succ short)]
          exact congrArg (· :: form) (eq_ofNat (by omega))

end

/-! ### Integers -/

section
variable {bytes : List UInt8} {used : Nat}

/-- An unsigned value that was read from as many bytes as it is written with was read from what is
written. -/
theorem take_eq_encodeUnsigned {value : UInt64}
    (decoded : decodeUnsigned bytes = .ok (value, used)) (short : used = unsignedSize value) :
    bytes.take used = encodeUnsigned value := by
  obtain ⟨form, rest, rfl, isForm, rfl, number⟩ := decodeUnsigned_eq_ok.mp decoded
  have written := length_encodeUnsigned value
  rw [encodeUnsigned, ← number] at written
  rw [List.take_left, encodeUnsigned, ← number]
  exact isForm.eq_unsignedGroups (by omega)

/-- A signed value that was read from as many bytes as it is written with was read from what is
written. -/
theorem take_eq_encodeSigned {value : Int64}
    (decoded : decodeSigned bytes = .ok (value, used)) (short : used = signedSize value) :
    bytes.take used = encodeSigned value := by
  obtain ⟨form, rest, rfl, isForm, rfl, number⟩ := decodeSigned_eq_ok.mp decoded
  have written := length_encodeSigned value
  rw [encodeSigned, ← number] at written
  rw [List.take_left, encodeSigned, ← number]
  exact isForm.eq_signedGroups (by omega)

/-- Bytes that end too early are fewer than nine, each of which says that another one follows. -/
theorem unfinished_iff : Unfinished groupBytes bytes ↔
    bytes.length < 9 ∧ ∀ byte ∈ bytes, byte &&& continuation ≠ 0 := by
  have continued (byte : UInt8) : byte &&& continuation ≠ 0 ↔ 128 ≤ byte.toNat := by
    rw [ne_eq, and_continuation_eq_zero, Nat.not_lt]
  simp only [continued]
  exact ⟨fun ⟨size, more⟩ => ⟨Nat.lt_succ_of_le size, more⟩,
    fun ⟨size, more⟩ => ⟨Nat.le_of_lt_succ size, more⟩⟩

/-- Bytes hold no integer exactly if they end too early. -/
theorem Reads.exists_error_iff {α : Type} {read : List UInt8 → Except CodecError (α × Nat)}
    {valueOf : List UInt8 → α} (reads : Reads read valueOf) :
    (∃ error, read bytes = .error error) ↔
      bytes.length < 9 ∧ ∀ byte ∈ bytes, byte &&& continuation ≠ 0 := by
  simp only [reads.eq_error_iff, unfinished_iff, exists_and_left, exists_eq, and_true]

end

/-- **Unsigned integers are written exactly, and as shortly as can be.** They are written by shifts,
behind what is there and in as many bytes as their size tells, which is nine at most; what is
written is read again whatever follows it. No value is read from fewer bytes than it is written
with, nor from other ones that are as many. Only bytes that end too early hold no value. They are
read by shifts as well, each by less than the width of a word. -/
theorem unsigned_shortest (value : UInt64) (out : Array UInt8) (bytes rest : List UInt8) :
    appendUnsigned value out = (out ++ (encodeUnsigned value).toArray, unsignedSize value) ∧
    (encodeUnsigned value).length = unsignedSize value ∧ unsignedSize value ≤ 9 ∧
    decodeUnsigned (encodeUnsigned value ++ rest) = .ok (value, unsignedSize value) ∧
    (∀ used, decodeUnsigned bytes = .ok (value, used) →
      unsignedSize value ≤ used ∧ used ≤ bytes.length ∧
      (used = unsignedSize value → bytes.take used = encodeUnsigned value)) ∧
    ((∃ error, decodeUnsigned bytes = .error error) ↔
      bytes.length < 9 ∧ ∀ byte ∈ bytes, byte &&& continuation ≠ 0) ∧
    gatherUnsigned? bytes = some (decodeUnsigned bytes) := by
  have size := length_encodeUnsigned value
  refine ⟨size ▸ appendUnsigned_eq value out, size, sizeOfBits_le _,
    size ▸ decodeUnsigned_encodeUnsigned value rest, fun used decoded => ?_,
    reads_decodeUnsigned.exists_error_iff, gatherUnsigned?_eq bytes⟩
  obtain ⟨shortest, inside⟩ := length_encodeUnsigned_le_of_decode decoded
  exact ⟨size ▸ shortest, inside, take_eq_encodeUnsigned decoded⟩

/-- The value 300 takes two bytes, and only these two hold it; it can also be read from three. -/
theorem unsigned_shortest_300 :
    decodeUnsigned [0xAC, 0x02, 0x07] = .ok (300, 2) ∧
      [0xAC, 0x02] = encodeUnsigned 300 ∧
      decodeUnsigned [0xAC, 0x82, 0x00] = .ok (300, 3) ∧ unsignedSize 300 ≤ 3 := by
  have short : decodeUnsigned [0xAC, 0x02, 0x07] = .ok (300, 2) := rfl
  have long : decodeUnsigned [0xAC, 0x82, 0x00] = .ok (300, 3) := rfl
  obtain ⟨-, -, -, -, fromTwo, -⟩ := unsigned_shortest 300 #[] [0xAC, 0x02, 0x07] []
  obtain ⟨-, -, -, -, fromThree, -⟩ := unsigned_shortest 300 #[] [0xAC, 0x82, 0x00] []
  exact ⟨short, (fromTwo 2 short).2.2 (by decide), long, (fromThree 3 long).1⟩

/-- **Signed integers are written exactly, and as shortly as can be**, as unsigned ones are; the
last group has room for the sign. -/
theorem signed_shortest (value : Int64) (out : Array UInt8) (bytes rest : List UInt8) :
    appendSigned value out = (out ++ (encodeSigned value).toArray, signedSize value) ∧
    (encodeSigned value).length = signedSize value ∧ signedSize value ≤ 9 ∧
    decodeSigned (encodeSigned value ++ rest) = .ok (value, signedSize value) ∧
    (∀ used, decodeSigned bytes = .ok (value, used) →
      signedSize value ≤ used ∧ used ≤ bytes.length ∧
      (used = signedSize value → bytes.take used = encodeSigned value)) ∧
    ((∃ error, decodeSigned bytes = .error error) ↔
      bytes.length < 9 ∧ ∀ byte ∈ bytes, byte &&& continuation ≠ 0) ∧
    gatherSigned? bytes = some (decodeSigned bytes) := by
  have size := length_encodeSigned value
  refine ⟨size ▸ appendSigned_eq value out, size, sizeOfBits_le _,
    size ▸ decodeSigned_encodeSigned value rest, fun used decoded => ?_,
    reads_decodeSigned.exists_error_iff, gatherSigned?_eq bytes⟩
  obtain ⟨shortest, inside⟩ := length_encodeSigned_le_of_decode decoded
  exact ⟨size ▸ shortest, inside, take_eq_encodeSigned decoded⟩

/-- The value -65 does not fit the 64 negative values of one group, so it takes two, and only these
two bytes hold it; it can also be read from three. -/
theorem signed_shortest_65 :
    decodeSigned [0xBF, 0x7F, 0x07] = .ok (-65, 2) ∧
      [0xBF, 0x7F] = encodeSigned (-65) ∧
      decodeSigned [0xBF, 0xFF, 0x7F] = .ok (-65, 3) ∧ signedSize (-65) ≤ 3 := by
  have short : decodeSigned [0xBF, 0x7F, 0x07] = .ok (-65, 2) := rfl
  have long : decodeSigned [0xBF, 0xFF, 0x7F] = .ok (-65, 3) := rfl
  obtain ⟨-, -, -, -, fromTwo, -⟩ := signed_shortest (-65) #[] [0xBF, 0x7F, 0x07] []
  obtain ⟨-, -, -, -, fromThree, -⟩ := signed_shortest (-65) #[] [0xBF, 0xFF, 0x7F] []
  exact ⟨short, (fromTwo 2 short).2.2 (by decide), long, (fromThree 3 long).1⟩

end ScopeMachine.Varint
