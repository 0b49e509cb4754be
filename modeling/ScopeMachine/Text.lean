/-! # Text

Rules about characters that the written forms share: blank characters, hexadecimal digits, and
integers as they stand in arguments.

* `trimBlank` removes blank characters at both ends;
* `splitAt` cuts a text at every occurrence of a character;
* `hexValue?`, `hexNumber?` and `hexText` read and write hexadecimal digits;
* `hexBytes` and `bytesOfHex?` write and read bytes as pairs of hexadecimal digits;
* `integer?` reads a decimal integer with an optional sign, `word?` one of 64 bits, and
  `naturalBelow?` one without a minus sign. -/

namespace ScopeMachine.Text

/-! ### Blank characters -/

/-- Whether a character is blank: the characters with the Unicode property `White_Space`. -/
def isBlank (c : Char) : Bool :=
  let code := c.toNat
  (0x09 ≤ code && code ≤ 0x0D) || code == 0x20 || code == 0x85 || code == 0xA0 || code == 0x1680
    || (0x2000 ≤ code && code ≤ 0x200A) || code == 0x2028 || code == 0x2029 || code == 0x202F
    || code == 0x205F || code == 0x3000

/-- Remove the blank characters at both ends. -/
def trimBlank (text : List Char) : List Char :=
  ((text.dropWhile isBlank).reverse.dropWhile isBlank).reverse

/-- Cut a text at every occurrence of a character. There is one part more than occurrences. -/
def splitAt (separator : Char) : List Char → List (List Char)
  | [] => [[]]
  | c :: rest =>
      if c = separator then [] :: splitAt separator rest
      else
        match splitAt separator rest with
        | [] => [[c]]
        | part :: parts => (c :: part) :: parts

/-! ### Digits -/

/-- The value of a hexadecimal digit of either case. -/
def hexValue? (c : Char) : Option Nat :=
  if '0' ≤ c ∧ c ≤ '9' then some (c.toNat - '0'.toNat)
  else if 'a' ≤ c ∧ c ≤ 'f' then some (c.toNat - 'a'.toNat + 10)
  else if 'A' ≤ c ∧ c ≤ 'F' then some (c.toNat - 'A'.toNat + 10)
  else none

/-- The number that a text of hexadecimal digits denotes. -/
def hexNumber? (digits : List Char) : Option Nat :=
  if digits.isEmpty then none
  else digits.foldlM (fun value c => (hexValue? c).map (16 * value + ·)) 0

/-- The lower-case hexadecimal digits of a number, without leading zeros. -/
def hexText (number : Nat) : String :=
  String.ofList (Nat.toDigits 16 number)

/-- The two lower-case hexadecimal digits of a byte. -/
def hexByte (byte : UInt8) : String :=
  String.ofList [Nat.digitChar (byte.toNat / 16), Nat.digitChar (byte.toNat % 16)]

/-- Bytes as pairs of hexadecimal digits. -/
def hexBytes (bytes : List UInt8) : String := String.join (bytes.map hexByte)

/-- The bytes that pairs of hexadecimal digits denote. -/
def bytesOfHex? : List Char → Option (List UInt8)
  | [] => some []
  | [_] => none
  | high :: low :: rest =>
      match hexNumber? [high, low], bytesOfHex? rest with
      | some byte, some bytes => some (UInt8.ofNat byte :: bytes)
      | _, _ => none

/-- The value of a decimal digit. -/
def digitValue? (c : Char) : Option Nat :=
  if '0' ≤ c ∧ c ≤ '9' then some (c.toNat - '0'.toNat) else none

/-- The number that a text of decimal digits denotes. -/
def natural? (digits : List Char) : Option Nat :=
  if digits.isEmpty then none
  else digits.foldlM (fun value c => (digitValue? c).map (10 * value + ·)) 0

/-- The integer that a text denotes: decimal digits after an optional sign. -/
def integer? : List Char → Option Int
  | '-' :: digits => (natural? digits).map fun value => -(value : Int)
  | '+' :: digits => (natural? digits).map fun value => (value : Int)
  | digits => (natural? digits).map fun value => (value : Int)

/-- The signed 64-bit number that a text denotes. -/
def word? (text : List Char) : Option Int64 :=
  (integer? text).bind fun value =>
    if Int64.minValue.toInt ≤ value ∧ value ≤ Int64.maxValue.toInt then some (Int64.ofInt value)
    else none

/-- The number below a bound that a text denotes: decimal digits after an optional plus sign. -/
def naturalBelow? (bound : Nat) (text : List Char) : Option Nat :=
  let digits := match text with
    | '+' :: digits => digits
    | digits => digits
  (natural? digits).bind fun value => if value < bound then some value else none

end ScopeMachine.Text
