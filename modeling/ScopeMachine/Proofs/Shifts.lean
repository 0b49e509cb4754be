import Mathlib.Data.Nat.Bitwise
import Mathlib.Tactic.Ring
import ScopeMachine.Varint.Shifts
import ScopeMachine.Proofs.Forms

/-! # Shifts and groups

Integers that are written and read by shifts of machine words are those that are written and read
group by group, and no shift is by the width of a word or more.

* `and_bit_eq_zero`, `toNat_or_continuation` and their like say what masks do to bytes as numbers,
  and `exists_or_shiftLeft` puts a group into a word that leaves its place free;
* `appendUnsigned_eq` and `appendSigned_eq` are about the writers: they append the written form and
  count its bytes;
* `gather?_form` and `gather?_unfinished` are about the common reader, `gatherUnsigned?_eq` and
  `gatherSigned?_eq` about the two that are made of it. -/

namespace ScopeMachine.Varint

/-! ### Masks -/

/-- A bit is clear in a byte if the binary digit at its place is zero. -/
theorem and_bit_eq_zero (byte : UInt8) {bit : UInt8} (place : Nat) (isBit : bit.toNat = 2 ^ place) :
    byte &&& bit = 0 ↔ byte.toNat / 2 ^ place % 2 = 0 := by
  have positive := Nat.two_pow_pos place
  rw [← UInt8.toNat_inj, UInt8.toNat_and, isBit, Nat.and_two_pow, Nat.testBit_eq_decide_div_mod_eq,
    UInt8.toNat_zero, Nat.mul_eq_zero]
  by_cases set : byte.toNat / 2 ^ place % 2 = 1
  · simp [set]
  · have clear : byte.toNat / 2 ^ place % 2 = 0 := by omega
    simp [clear]

/-- A byte is continued if it is 128 or more. -/
theorem and_continuation_eq_zero (byte : UInt8) :
    byte &&& continuation = 0 ↔ byte.toNat < 128 := by
  have small := byte.toNat_lt
  rw [and_bit_eq_zero byte 7 rfl]
  omega

/-- A group is negative if it is 64 or more. -/
theorem and_signBit_eq_zero {byte : UInt8} (group : byte.toNat < 128) :
    byte &&& signBit = 0 ↔ byte.toNat < 64 := by
  rw [and_bit_eq_zero byte 6 rfl]
  omega

/-- The group of a byte is the remainder by 128. -/
theorem toNat_and_groupMask (byte : UInt8) : (byte &&& groupMask).toNat = byte.toNat % 128 := by
  rw [UInt8.toNat_and]
  exact Nat.and_two_pow_sub_one_eq_mod byte.toNat 7

/-- Continuing a group adds 128. -/
theorem toNat_or_continuation {group : UInt8} (isGroup : group.toNat < 128) :
    (group ||| continuation).toNat = 128 + group.toNat := by
  rw [UInt8.toNat_or, Nat.or_comm]
  exact (Nat.two_pow_add_eq_or_of_lt (i := 7) isGroup 1).symm

/-! ### Writers -/

/-- What the low byte of a word brings to a group. -/
theorem toNat_group (word : UInt64) : (word.toUInt8 &&& groupMask).toNat = word.toNat % 128 := by
  rw [toNat_and_groupMask, UInt64.toNat_toUInt8]
  omega

/-- Shifting a group out of a word divides it by 128. -/
theorem toNat_shiftRight (word : UInt64) : (word >>> 7).toNat = word.toNat / 128 := by
  rw [UInt64.toNat_shiftRight]
  exact Nat.shiftRight_eq_div_pow word.toNat 7

/-- The same with the sign kept. -/
theorem toInt_shiftRight (word : Int64) : (word >>> 7).toInt = word.toInt / 128 := by
  show (word >>> 7).toBitVec.toInt = word.toInt / 128
  rw [Int64.toBitVec_shiftRight]
  show (word.toBitVec.sshiftRight 7).toInt = word.toInt / 128
  rw [BitVec.toInt_sshiftRight, Int.shiftRight_eq_div_pow]
  rfl

/-- The bits of a signed word as a number. -/
theorem toNat_toUInt64 (word : Int64) : (word.toUInt64.toNat : Int) = word.toInt % 2 ^ 64 := by
  show (word.toBitVec.toNat : Int) = word.toBitVec.toInt % 2 ^ 64
  have small := word.toBitVec.isLt
  rw [BitVec.toInt_eq_toNat_cond]
  split <;> omega

/-- The group of a byte is written as the number that it is. -/
theorem eq_ofNat {byte : UInt8} {number : Nat} (same : byte.toNat = number) :
    byte = UInt8.ofNat number := by
  rw [← same, UInt8.ofNat_toNat]

/-- **Unsigned values are written by shifts** as they are written group by group. -/
theorem appendUnsignedFrom_eq {groups written : Nat} (placed : written + groups = groupBytes)
    (rest : UInt64) (out : Array UInt8) :
    appendUnsignedFrom groups written rest out =
      (out ++ (unsignedGroups groups rest.toNat).toArray,
        written + (unsignedGroups groups rest.toNat).length) := by
  induction groups generalizing written rest out with
  | zero =>
      obtain rfl : written = groupBytes := placed
      have last : rest.toUInt8 = UInt8.ofNat rest.toNat := rfl
      rw [appendUnsignedFrom, last]
      rfl
  | succ groups ih =>
      have zero : rest >>> 7 = 0 ↔ rest.toNat < 128 := by
        rw [← UInt64.toNat_inj, toNat_shiftRight, UInt64.toNat_zero]
        omega
      have group := toNat_group rest
      rw [appendUnsignedFrom, unsignedGroups]
      by_cases small : rest.toNat < 128
      · rw [if_pos (zero.mpr small), if_pos small, eq_ofNat group, Nat.mod_eq_of_lt small]
        rfl
      · have continued : rest.toUInt8 &&& groupMask ||| continuation =
            UInt8.ofNat (128 + rest.toNat % 128) :=
          eq_ofNat (by rw [toNat_or_continuation (by omega), group])
        rw [if_neg (mt zero.mp small), if_neg small, ih (by omega), toNat_shiftRight, continued,
          List.length_cons]
        refine Prod.ext ?_ (by dsimp only; omega)
        simp

/-- **Unsigned values are appended** to what is there, and their bytes are counted. -/
theorem appendUnsigned_eq (value : UInt64) (out : Array UInt8) :
    appendUnsigned value out =
      (out ++ (encodeUnsigned value).toArray, (encodeUnsigned value).length) := by
  rw [appendUnsigned, appendUnsignedFrom_eq (Nat.zero_add _), Nat.zero_add]
  rfl

/-- **Signed values are written by shifts** as they are written group by group. -/
theorem appendSignedFrom_eq {groups written : Nat} (placed : written + groups = groupBytes)
    (rest : Int64) (out : Array UInt8) :
    appendSignedFrom groups written rest out =
      (out ++ (signedGroups groups rest.toInt).toArray,
        written + (signedGroups groups rest.toInt).length) := by
  have bits := toNat_toUInt64 rest
  induction groups generalizing written rest out with
  | zero =>
      obtain rfl : written = groupBytes := placed
      have last : rest.toUInt64.toUInt8 = UInt8.ofNat (rest.toInt % 256).toNat :=
        eq_ofNat (by rw [UInt64.toNat_toUInt8]; omega)
      rw [appendSignedFrom, last]
      rfl
  | succ groups ih =>
      have group : (rest.toUInt64.toUInt8 &&& groupMask).toNat = (rest.toInt % 128).toNat := by
        rw [toNat_group]
        omega
      have isGroup : (rest.toUInt64.toUInt8 &&& groupMask).toNat < 128 := by omega
      have shifted := toInt_shiftRight rest
      have zero : rest >>> 7 = 0 ↔ rest.toInt / 128 = 0 := by
        rw [← Int64.toInt_inj, shifted]
        rfl
      have ones : rest >>> 7 = -1 ↔ rest.toInt / 128 = -1 := by
        rw [← Int64.toInt_inj, shifted]
        rfl
      -- the last group is the first one whose sign is that of all bits above it
      have last : (rest >>> 7 == 0 && !(rest.toUInt64.toUInt8 &&& groupMask &&& signBit != 0) ||
          rest >>> 7 == -1 && rest.toUInt64.toUInt8 &&& groupMask &&& signBit != 0) = true ↔
          -64 ≤ rest.toInt ∧ rest.toInt < 64 := by
        have positive := and_signBit_eq_zero isGroup
        rw [group] at positive
        simp only [Bool.or_eq_true, Bool.and_eq_true, beq_iff_eq, Bool.not_eq_true',
          bne_eq_false_iff_eq, bne_iff_ne, ne_eq, zero, ones, positive]
        omega
      rw [appendSignedFrom, signedGroups]
      by_cases small : -64 ≤ rest.toInt ∧ rest.toInt < 64
      · rw [if_pos (last.mpr small), if_pos small, eq_ofNat group]
        rfl
      · have continued : rest.toUInt64.toUInt8 &&& groupMask ||| continuation =
            UInt8.ofNat (128 + (rest.toInt % 128).toNat) :=
          eq_ofNat (by rw [toNat_or_continuation isGroup, group])
        rw [if_neg (mt last.mp small), if_neg small, ih (by omega) _ _ (toNat_toUInt64 _), shifted,
          continued, List.length_cons]
        refine Prod.ext ?_ (by dsimp only; omega)
        simp

/-- **Signed values are appended** to what is there, and their bytes are counted. -/
theorem appendSigned_eq (value : Int64) (out : Array UInt8) :
    appendSigned value out =
      (out ++ (encodeSigned value).toArray, (encodeSigned value).length) := by
  rw [appendSigned, appendSignedFrom_eq (Nat.zero_add _), Nat.zero_add]
  rfl

/-! ### Shifts -/

/-- A shift by less than the width multiplies by a power of two, and drops what leaves the word. -/
theorem exists_shiftLeft (part : UInt64) {distance : Nat} (short : distance < 64) :
    ∃ shifted, shiftLeft? part distance = some shifted ∧
      shifted.toNat = part.toNat * 2 ^ distance % 2 ^ 64 := by
  have place : (UInt64.ofNat distance).toNat % 64 = distance := by
    rw [UInt64.toNat_ofNat_of_lt' (Nat.lt_trans short (by decide)), Nat.mod_eq_of_lt short]
  refine ⟨part <<< UInt64.ofNat distance, if_pos short, ?_⟩
  rw [UInt64.toNat_shiftLeft, place, Nat.shiftLeft_eq]

/-- A part that fits behind the bits of a word is added at its place. -/
theorem exists_or_shiftLeft {value : UInt64} (part : UInt64) {distance : Nat}
    (short : distance < 64) (below : value.toNat < 2 ^ distance)
    (fits : part.toNat * 2 ^ distance < 2 ^ 64) :
    ∃ shifted, shiftLeft? part distance = some shifted ∧
      (value ||| shifted).toNat = value.toNat + part.toNat * 2 ^ distance := by
  obtain ⟨shifted, done, number⟩ := exists_shiftLeft part short
  refine ⟨shifted, done, ?_⟩
  rw [Nat.mod_eq_of_lt fits, Nat.mul_comm] at number
  rw [UInt64.toNat_or, number, Nat.or_comm, ← Nat.two_pow_add_eq_or_of_lt below, Nat.add_comm,
    Nat.mul_comm]

/-- Ones above the bits of a word take away the next power of two, as numbers wrap around. -/
theorem exists_or_ones {value : UInt64} {distance : Nat} (short : distance < 64)
    (below : value.toNat < 2 ^ distance) :
    ∃ shifted, shiftLeft? 0xFFFFFFFFFFFFFFFF distance = some shifted ∧
      (value ||| shifted).toNat + 2 ^ distance = value.toNat + 2 ^ 64 := by
  obtain ⟨shifted, done, number⟩ := exists_shiftLeft 0xFFFFFFFFFFFFFFFF short
  refine ⟨shifted, done, ?_⟩
  have positive := Nat.two_pow_pos distance
  have fits : 2 ^ distance ≤ 2 ^ 64 := Nat.pow_le_pow_right (by decide) (Nat.le_of_lt short)
  have whole : 2 ^ 64 = 2 ^ distance * 2 ^ (64 - distance) := by
    rw [← Nat.pow_add, Nat.add_sub_cancel' (Nat.le_of_lt short)]
  -- the shifted ones are a multiple of the power, so they do not overlap with the bits below it
  have ones : shifted.toNat = 2 ^ distance * (2 ^ (64 - distance) - 1) := by
    have turns : (2 ^ 64 - 1) * 2 ^ distance =
        (2 ^ 64 - 2 ^ distance) + 2 ^ 64 * (2 ^ distance - 1) := by omega
    rw [number, show (0xFFFFFFFFFFFFFFFF : UInt64).toNat = 2 ^ 64 - 1 from rfl, turns,
      Nat.add_mul_mod_self_left, Nat.mod_eq_of_lt (by omega), Nat.mul_sub, ← whole, Nat.mul_one]
  rw [UInt64.toNat_or, ones, Nat.or_comm, ← Nat.two_pow_add_eq_or_of_lt below, Nat.mul_sub, ← whole,
    Nat.mul_one]
  omega

/-! ### Readers -/

/-- The number in a form, with or without a sign. -/
def formNumber (signed : Bool) (groups : Nat) (form : List UInt8) : Int :=
  if signed then signedNumeral groups form else numeral form

/-- A continued byte brings the lowest group. -/
theorem formNumber_cons (signed : Bool) (groups : Nat) (byte : UInt8) {rest : List UInt8}
    (nonempty : rest ≠ []) : formNumber signed (groups + 1) (byte :: rest) =
      (byte.toNat % 128 : Nat) + 128 * formNumber signed groups rest := by
  cases signed with
  | true => exact signedNumeral_cons nonempty
  | false =>
      show (numeral (byte :: rest) : Int) = _ + 128 * (numeral rest : Int)
      rw [numeral_cons nonempty]
      omega

/-- The last byte of a signed form counts from its highest bit. -/
theorem formNumber_singleton (signed : Bool) (groups half : Nat) {byte : UInt8}
    (isWidth : 2 ^ width groups 1 = 2 * half) (within : byte.toNat < 2 * half) :
    formNumber signed groups [byte] =
      byte.toNat - if signed ∧ half ≤ byte.toNat then (2 * half : Nat) else 0 := by
  cases signed with
  | true =>
      show Int.bmod byte.toNat (2 ^ width groups 1) = _
      rw [isWidth, ← signExtend_eq_bmod within, signExtend]
      simp only [true_and]
      split <;> split <;> omega
  | false => simp [formNumber, numeral]

/-- A word is the one for a number from which it differs by whole turns. -/
theorem eq_ofInt {word : UInt64} {number : Int} (turns : Int)
    (same : (word.toNat : Int) = number + 2 ^ 64 * turns) : word = UInt64.ofInt number := by
  have small := word.toNat_lt
  have rest : number % 2 ^ 64 = word.toNat := by omega
  rw [UInt64.ofInt, rest, Int.toNat_natCast, UInt64.ofNat_toNat]

/-- The next group is put into a word that holds the groups before it. -/
theorem exists_or_group {index : Nat} (room : index < groupBytes) {value : UInt64}
    (below : value.toNat < 2 ^ (7 * index)) (byte : UInt8) :
    ∃ group, shiftLeft? (byte &&& groupMask).toUInt64 (7 * index) = some group ∧
      (value ||| group).toNat = value.toNat + byte.toNat % 128 * 2 ^ (7 * index) ∧
      (value ||| group).toNat < 2 ^ (7 * (index + 1)) := by
  have isGroup := toNat_and_groupMask byte
  have within : 7 * index ≤ 49 := Nat.mul_le_mul_left 7 (Nat.le_of_lt_succ room)
  have scale : 2 ^ (7 * index) ≤ 2 ^ 49 := Nat.pow_le_pow_right (by decide) within
  have size : byte.toNat % 128 * 2 ^ (7 * index) ≤ 127 * 2 ^ (7 * index) :=
    Nat.mul_le_mul_right _ (by omega)
  have next : 2 ^ (7 * (index + 1)) = 128 * 2 ^ (7 * index) := by
    rw [Nat.mul_succ, Nat.pow_add, Nat.mul_comm]
  obtain ⟨group, shifted, number⟩ := exists_or_shiftLeft (byte &&& groupMask).toUInt64
    (show 7 * index < 64 by omega) below (by rw [UInt8.toNat_toUInt64, isGroup]; omega)
  rw [UInt8.toNat_toUInt64, isGroup] at number
  exact ⟨group, shifted, number, by omega⟩

/-- **The last group** ends a form, with the bits above it filled if it is negative. -/
theorem gather?_last {signed : Bool} {groups index : Nat} (room : index < groupBytes)
    {value : UInt64} (below : value.toNat < 2 ^ (7 * index)) {byte : UInt8}
    (last : byte.toNat < 128) (rest : List UInt8) :
    gather? signed (groups + 1) index value (byte :: rest) =
      some (.ok (UInt64.ofInt (value.toNat + (2 ^ (7 * index) : Nat) *
        formNumber signed (groups + 1) [byte]), index + 1)) := by
  obtain ⟨group, shifted, number, within⟩ := exists_or_group room below byte
  have isNumber := formNumber_singleton signed (groups + 1) 64 (by simp [width]) last
  have next : 2 ^ (7 * (index + 1)) = 128 * 2 ^ (7 * index) := by
    rw [Nat.mul_succ, Nat.pow_add, Nat.mul_comm]
  rw [Nat.mod_eq_of_lt last] at number
  rw [gather?, shifted, isNumber, Int.mul_sub, ← Int.natCast_mul, Nat.mul_comm _ byte.toNat]
  show (if byte &&& continuation = 0 then _ else _) = _
  rw [if_pos ((and_continuation_eq_zero byte).mpr last)]
  by_cases negative : signed = true ∧ 64 ≤ byte.toNat
  · have set : (signed && byte &&& signBit != 0) = true := by
      simp [negative.1, and_signBit_eq_zero last, negative.2]
    obtain ⟨above, ones, filled⟩ := exists_or_ones
      (show 7 * (index + 1) < 64 by unfold groupBytes at room; omega) within
    rw [if_pos set, if_pos negative, ones]
    refine congrArg (fun word => some (Except.ok (word, index + 1))) (eq_ofInt 1 ?_)
    omega
  · have clear : ¬ (signed && byte &&& signBit != 0) = true := by
      simpa [and_signBit_eq_zero last] using negative
    rw [if_neg clear, if_neg negative]
    refine congrArg (fun word => some (Except.ok (word, index + 1))) (eq_ofInt 0 ?_)
    omega

/-- **The final byte** ends a form with all its eight bits. -/
theorem gather?_final {signed : Bool} {value : UInt64}
    (below : value.toNat < 2 ^ (7 * groupBytes)) (byte : UInt8) (rest : List UInt8) :
    gather? signed 0 groupBytes value (byte :: rest) =
      some (.ok (UInt64.ofInt (value.toNat + (2 ^ (7 * groupBytes) : Nat) *
        formNumber signed 0 [byte]), maxSize)) := by
  have small := byte.toNat_lt
  have below : value.toNat < 2 ^ 56 := below
  obtain ⟨top, shifted, number⟩ := exists_or_shiftLeft byte.toUInt64
    (show 56 < 64 by decide) below (by rw [UInt8.toNat_toUInt64]; omega)
  rw [UInt8.toNat_toUInt64] at number
  have isNumber := formNumber_singleton signed 0 128 rfl small
  have shifted : shiftLeft? byte.toUInt64 (7 * groupBytes) = some top := shifted
  rw [gather?, shifted, isNumber]
  have place : 2 ^ (7 * groupBytes) = 2 ^ 56 := rfl
  rw [place]
  by_cases negative : signed = true ∧ 128 ≤ byte.toNat
  · rw [if_pos negative]
    refine congrArg (fun word => some (Except.ok (word, maxSize))) (eq_ofInt 1 ?_)
    omega
  · rw [if_neg negative]
    refine congrArg (fun word => some (Except.ok (word, maxSize))) (eq_ofInt 0 ?_)
    omega

/-- **A form is gathered into a word** behind the groups that are there, with every shift by less
than the width. -/
theorem gather?_form {signed : Bool} {groups index : Nat} (placed : index + groups = groupBytes)
    {value : UInt64} (below : value.toNat < 2 ^ (7 * index)) {form : List UInt8}
    (isForm : Form groups form) (rest : List UInt8) :
    gather? signed groups index value (form ++ rest) =
      some (.ok (UInt64.ofInt (value.toNat + (2 ^ (7 * index) : Nat) *
        formNumber signed groups form), index + form.length)) := by
  induction groups generalizing index value form with
  | zero =>
      obtain ⟨byte, rfl⟩ := form_zero.mp isForm
      obtain rfl : index = groupBytes := placed
      exact gather?_final below byte rest
  | succ groups ih =>
      obtain ⟨byte, form, rfl⟩ := List.exists_cons_of_ne_nil isForm.nonempty
      have room : index < groupBytes := by omega
      rcases form_succ_cons.mp isForm with ⟨last, rfl⟩ | ⟨more, isForm⟩
      · exact gather?_last room below last rest
      · -- the group goes to its place, and the others are gathered behind it by hypothesis
        obtain ⟨group, shifted, number, within⟩ := exists_or_group room below byte
        have next : 2 ^ (7 * (index + 1)) = 128 * 2 ^ (7 * index) := by
          rw [Nat.mul_succ, Nat.pow_add, Nat.mul_comm]
        rw [List.cons_append, gather?, shifted]
        show (if byte &&& continuation = 0 then _ else _) = _
        rw [if_neg (mt (and_continuation_eq_zero byte).mp (Nat.not_lt_of_le more)),
          ih (by omega) within isForm, formNumber_cons _ _ _ isForm.nonempty, List.length_cons,
          number, next]
        refine congrArg₂ (fun (number : Int) used => some (Except.ok (UInt64.ofInt number, used)))
          ?_ (by omega)
        push_cast
        ring

/-- Bytes that end too early are all gathered, also with every shift by less than the width. -/
theorem gather?_unfinished {signed : Bool} {groups index : Nat}
    (placed : index + groups = groupBytes) {value : UInt64}
    (below : value.toNat < 2 ^ (7 * index)) {bytes : List UInt8}
    (unfinished : Unfinished groups bytes) :
    gather? signed groups index value bytes =
      some (.error (.endOfData (index + bytes.length))) := by
  induction bytes generalizing groups index value with
  | nil => cases groups <;> rfl
  | cons byte bytes ih =>
      obtain ⟨size, continued⟩ := unfinished
      obtain ⟨more, continued⟩ := List.forall_mem_cons.mp continued
      cases groups with
      | zero => cases size
      | succ groups =>
          obtain ⟨group, shifted, -, within⟩ :=
            exists_or_group (show index < groupBytes by omega) below byte
          rw [gather?, shifted]
          show (if byte &&& continuation = 0 then _ else _) = _
          rw [if_neg (mt (and_continuation_eq_zero byte).mp (Nat.not_lt_of_le more)),
            ih (by omega) within ⟨Nat.le_of_succ_le_succ size, continued⟩, List.length_cons,
            Nat.add_right_comm, Nat.add_assoc]

/-- Before the first byte, no groups have been gathered. -/
theorem zero_below : (0 : UInt64).toNat < 2 ^ (7 * 0) := Nat.one_pos

/-- What is gathered from the first byte on is the number. -/
theorem gathered_zero (number : Int) :
    ((0 : UInt64).toNat : Int) + (2 ^ (7 * 0) : Nat) * number = number := by
  simp

/-- **Unsigned values are read by shifts** as they are read group by group. -/
theorem gatherUnsigned?_eq (bytes : List UInt8) :
    gatherUnsigned? bytes = some (decodeUnsigned bytes) := by
  unfold gatherUnsigned?
  rcases exists_form_or_unfinished groupBytes bytes with ⟨form, rest, rfl, isForm⟩ | unfinished
  · have word : UInt64.ofNat (numeral form) = UInt64.ofInt (formNumber false groupBytes form) := by
      refine eq_ofInt 0 ?_
      rw [UInt64.toNat_ofNat_of_lt' isForm.numeral_lt]
      exact (Int.add_zero _).symm
    rw [gather?_form (Nat.zero_add _) zero_below isForm, reads_decodeUnsigned.form isForm,
      Nat.zero_add, gathered_zero, ← word]
  · rw [gather?_unfinished (Nat.zero_add _) zero_below unfinished,
      reads_decodeUnsigned.unfinished unfinished, Nat.zero_add]

/-- The word for a number, with its sign, is the signed word for it. -/
theorem toInt64_ofInt (number : Int) : (UInt64.ofInt number).toInt64 = Int64.ofInt number := by
  have bits : BitVec.ofNat 64 (number % 2 ^ 64).toNat = BitVec.ofInt 64 number := by
    apply BitVec.eq_of_toNat_eq
    rw [BitVec.toNat_ofNat, BitVec.toNat_ofInt, Nat.mod_eq_of_lt (by omega)]
    rfl
  exact congrArg Int64.ofBitVec bits

/-- **Signed values are read by shifts** as they are read group by group. -/
theorem gatherSigned?_eq (bytes : List UInt8) :
    gatherSigned? bytes = some (decodeSigned bytes) := by
  unfold gatherSigned?
  rcases exists_form_or_unfinished groupBytes bytes with ⟨form, rest, rfl, isForm⟩ | unfinished
  · rw [gather?_form (Nat.zero_add _) zero_below isForm, reads_decodeSigned.form isForm,
      Nat.zero_add, gathered_zero]
    exact congrArg (fun word => some (Except.ok (word, form.length))) (toInt64_ofInt _)
  · rw [gather?_unfinished (Nat.zero_add _) zero_below unfinished,
      reads_decodeSigned.unfinished unfinished, Nat.zero_add]
    rfl

end ScopeMachine.Varint
