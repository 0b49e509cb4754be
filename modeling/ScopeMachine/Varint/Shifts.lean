import ScopeMachine.Varint

/-! # Integers by shifts

The same format on words of 64 bits. Writers cut the groups off the low end of a word by a mask and
a shift, append them to the bytes that are there, and count them. Readers gather the groups in a
word, each shifted to its place.

* `appendUnsigned` and `appendSigned` write a value behind other bytes and return how many bytes
  they have written;
* `gatherUnsigned?` and `gatherSigned?` read a value. They have no result if they come to shift by
  the width of a word or more, which `shiftLeft?` does not define. -/

namespace ScopeMachine.Varint

/-- The bit that tells that another byte follows. -/
def continuation : UInt8 := 0x80

/-- The bits of a byte that belong to a group. -/
def groupMask : UInt8 := 0x7F

/-- The highest bit of a group, which is the sign in the last one. -/
def signBit : UInt8 := 0x40

/-! ### Writing -/

/-- Write what remains of an unsigned value with at most `groups` groups before a final byte, behind
the `written` bytes of the value that have been written. -/
def appendUnsignedFrom :
    (groups written : Nat) → (rest : UInt64) → (out : Array UInt8) → Array UInt8 × Nat
  | 0, _, rest, out => (out.push rest.toUInt8, maxSize)
  | groups + 1, written, rest, out =>
      let group := rest.toUInt8 &&& groupMask
      let rest := rest >>> 7
      if rest = 0 then (out.push group, written + 1)
      else appendUnsignedFrom groups (written + 1) rest (out.push (group ||| continuation))

/-- Write an unsigned value behind other bytes; the bytes, and how many have been written. -/
def appendUnsigned (value : UInt64) (out : Array UInt8) : Array UInt8 × Nat :=
  appendUnsignedFrom groupBytes 0 value out

/-- Write what remains of a signed value with at most `groups` groups before a final byte, behind
the `written` bytes of the value that have been written. -/
def appendSignedFrom :
    (groups written : Nat) → (rest : Int64) → (out : Array UInt8) → Array UInt8 × Nat
  | 0, _, rest, out => (out.push rest.toUInt64.toUInt8, maxSize)
  | groups + 1, written, rest, out =>
      let group := rest.toUInt64.toUInt8 &&& groupMask
      let rest := rest >>> 7
      let negative := group &&& signBit != 0
      if rest == 0 && !negative || rest == -1 && negative then (out.push group, written + 1)
      else appendSignedFrom groups (written + 1) rest (out.push (group ||| continuation))

/-- Write a signed value behind other bytes; the bytes, and how many have been written. -/
def appendSigned (value : Int64) (out : Array UInt8) : Array UInt8 × Nat :=
  appendSignedFrom groupBytes 0 value out

/-! ### Reading -/

/-- Shift a word to the left by less than its width. -/
def shiftLeft? (word : UInt64) (distance : Nat) : Option UInt64 :=
  if distance < 64 then some (word <<< UInt64.ofNat distance) else none

/-- Read at most `groups` groups and a final byte into a word that holds the `index` groups before
them; the word, and the number of bytes of the whole value. The sign of a signed value fills the
bits above the last group. -/
def gather? (signed : Bool) : (groups index : Nat) → (value : UInt64) → List UInt8 →
    Option (Except CodecError (UInt64 × Nat))
  | _, index, _, [] => some (.error (.endOfData index))
  | 0, _, value, byte :: _ => do
      let top ← shiftLeft? byte.toUInt64 (7 * groupBytes)
      return .ok (value ||| top, maxSize)
  | groups + 1, index, value, byte :: rest => do
      let group ← shiftLeft? (byte &&& groupMask).toUInt64 (7 * index)
      let value := value ||| group
      if byte &&& continuation = 0 then
        if signed && byte &&& signBit != 0 then
          let above ← shiftLeft? 0xFFFFFFFFFFFFFFFF (7 * (index + 1))
          return .ok (value ||| above, index + 1)
        else return .ok (value, index + 1)
      else gather? signed groups (index + 1) value rest

/-- Read an unsigned value from the front of a byte string. -/
def gatherUnsigned? (bytes : List UInt8) : Option (Except CodecError (UInt64 × Nat)) :=
  gather? false groupBytes 0 0 bytes

/-- Read a signed value from the front of a byte string. -/
def gatherSigned? (bytes : List UInt8) : Option (Except CodecError (Int64 × Nat)) :=
  (gather? true groupBytes 0 0 bytes).map fun result =>
    result.map fun (value, used) => (value.toInt64, used)

end ScopeMachine.Varint
