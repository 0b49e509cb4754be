import ScopeMachine.CodecError

/-! # Variable-length integers

A 64-bit value is written as little-endian groups of seven bits, at most nine bytes in all. Each
of the first eight bytes carries one group and, in its top bit, whether another byte follows; a
ninth byte carries the eight remaining bits and nothing else.

Unsigned values stop when nothing but zeros remains. Signed values stop at the first group whose
top bit, extended, reproduces what remains, so the last group also tells the sign.

* `encodeUnsigned`, `encodeSigned` write the shortest form;
* `decodeUnsigned`, `decodeSigned` read any form from the front of a byte string and report how
  many bytes it took;
* `unsignedSize`, `signedSize` give the size of the written form from the number of significant
  bits alone. -/

namespace ScopeMachine.Varint

/-- The number of bytes that carry a seven-bit group and a continuation bit. -/
def groupBytes : Nat := 8

/-- The largest number of bytes of a written value. -/
def maxSize : Nat := groupBytes + 1

/-! ### Unsigned values -/

/-- Write `value` with at most `groups` groups before a final byte of eight plain bits. -/
def unsignedGroups : (groups : Nat) → (value : Nat) → List UInt8
  | 0, value => [UInt8.ofNat value]
  | groups + 1, value =>
      if value < 128 then [UInt8.ofNat value]
      else UInt8.ofNat (128 + value % 128) :: unsignedGroups groups (value / 128)

/-- The shortest written form of an unsigned value. -/
def encodeUnsigned (value : UInt64) : List UInt8 :=
  unsignedGroups groupBytes value.toNat

/-- Read at most `groups` groups and a final byte; the value and the number of bytes read. -/
def readUnsigned : (groups : Nat) → List UInt8 → Except CodecError (Nat × Nat)
  | _, [] => .error (.endOfData 0)
  | 0, byte :: _ => .ok (byte.toNat, 1)
  | groups + 1, byte :: rest =>
      if byte.toNat < 128 then .ok (byte.toNat, 1)
      else
        match readUnsigned groups rest with
        | .ok (value, used) => .ok (byte.toNat - 128 + 128 * value, used + 1)
        | .error error => .error (error.shift 1)

/-- Read an unsigned value from the front of a byte string. -/
def decodeUnsigned (bytes : List UInt8) : Except CodecError (UInt64 × Nat) :=
  match readUnsigned groupBytes bytes with
  | .ok (value, used) => .ok (UInt64.ofNat value, used)
  | .error error => .error error

/-! ### Signed values -/

/-- Write a signed `value` with at most `groups` groups before a final byte of eight plain bits. -/
def signedGroups : (groups : Nat) → (value : Int) → List UInt8
  | 0, value => [UInt8.ofNat (value % 256).toNat]
  | groups + 1, value =>
      if -64 ≤ value ∧ value < 64 then [UInt8.ofNat (value % 128).toNat]
      else UInt8.ofNat (128 + (value % 128).toNat) :: signedGroups groups (value / 128)

/-- The shortest written form of a signed value. -/
def encodeSigned (value : Int64) : List UInt8 :=
  signedGroups groupBytes value.toInt

/-- Read `bits` as a two's complement number of `2 * half` values. -/
def signExtend (half bits : Nat) : Int :=
  if bits < half then (bits : Int) else (bits : Int) - 2 * half

/-- Read at most `groups` groups and a final byte; the signed value and the number of bytes read. -/
def readSigned : (groups : Nat) → List UInt8 → Except CodecError (Int × Nat)
  | _, [] => .error (.endOfData 0)
  | 0, byte :: _ => .ok (signExtend 128 byte.toNat, 1)
  | groups + 1, byte :: rest =>
      if byte.toNat < 128 then .ok (signExtend 64 byte.toNat, 1)
      else
        match readSigned groups rest with
        | .ok (value, used) => .ok ((byte.toNat - 128 : Nat) + 128 * value, used + 1)
        | .error error => .error (error.shift 1)

/-- Read a signed value from the front of a byte string. -/
def decodeSigned (bytes : List UInt8) : Except CodecError (Int64 × Nat) :=
  match readSigned groupBytes bytes with
  | .ok (value, used) => .ok (Int64.ofInt value, used)
  | .error error => .error error

/-! ### Sizes -/

/-- The number of bits of a natural number, without leading zeros. -/
def bitLength (value : Nat) : Nat :=
  if value = 0 then 0 else value.log2 + 1

/-- The number of bytes that `bits` significant bits occupy: one for each seven, between one and
the maximum. -/
def sizeOfBits (bits : Nat) : Nat :=
  max 1 (min ((bits + 6) / 7) maxSize)

/-- The size of the written form of an unsigned value. -/
def unsignedSize (value : UInt64) : Nat :=
  sizeOfBits (bitLength value.toNat)

/-- The size of the written form of a signed value, which has one bit for the sign. -/
def signedSize (value : Int64) : Nat :=
  let magnitude := if value.toInt < 0 then -value.toInt - 1 else value.toInt
  sizeOfBits (bitLength magnitude.toNat + 1)

end ScopeMachine.Varint
