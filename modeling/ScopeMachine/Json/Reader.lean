import ScopeMachine.Json
import ScopeMachine.Text

/-! # Reading JSON

`Json.parse?` reads a text that holds one value and nothing else but blanks around it. A value is
read from the front of the characters, and what follows it is left over; `Option.none` means that
the characters do not start with a value.

Escapes of surrogates must come in pairs to name a character. A text in which they do not is well
formed, but unreadable. -/

namespace ScopeMachine.Json

/-- Drop blanks in front. -/
def skipBlanks (chars : List Char) : List Char :=
  chars.dropWhile fun c => c = ' ' || c = '\n' || c = '\t' || c = '\r'

/-! ### Texts -/

/-- The number of four hexadecimal digits. -/
def hex4? : List Char → Option (Nat × List Char)
  | a :: b :: c :: d :: rest => (Text.hexNumber? [a, b, c, d]).map fun value => (value, rest)
  | _ => none

/-- One unit of a text: a character, or half of a character that needs two escapes. -/
inductive TextUnit where
  /-- A character. -/
  | char (c : Char)
  /-- The first half of a character. -/
  | high (code : Nat)
  /-- The second half of a character. -/
  | low (code : Nat)

/-- The unit with a 16-bit code. -/
def TextUnit.ofCode (code : Nat) : TextUnit :=
  if 0xD800 ≤ code ∧ code ≤ 0xDBFF then .high code
  else if 0xDC00 ≤ code ∧ code ≤ 0xDFFF then .low code
  else .char (Char.ofNat code)

/-- The characters that units name, unless a half stands alone. -/
def joinUnits? : List TextUnit → Option (List Char)
  | [] => some []
  | .char c :: rest => (joinUnits? rest).map (c :: ·)
  | .high first :: .low second :: rest =>
      (joinUnits? rest).map
        (Char.ofNat (0x10000 + (first - 0xD800) * 0x400 + (second - 0xDC00)) :: ·)
  | _ => none

/-- The unit that a short escape names. -/
def shortEscape? (c : Char) : Option Char :=
  [('"', '"'), ('\\', '\\'), ('/', '/'), ('b', '\x08'), ('f', '\x0c'), ('n', '\n'), ('r', '\r'),
    ('t', '\t')].lookup c

/-- Read the units of a text after its opening quote; `units` holds those already read, the latest
first. -/
def readUnits? : (fuel : Nat) → (units : List TextUnit) → List Char →
    Option (List TextUnit × List Char)
  | 0, _, _ => none
  | _ + 1, _, [] => none
  | _ + 1, units, '"' :: rest => some (units.reverse, rest)
  | fuel + 1, units, '\\' :: 'u' :: rest => do
      let (code, rest) ← hex4? rest
      readUnits? fuel (.ofCode code :: units) rest
  | fuel + 1, units, '\\' :: c :: rest => do
      readUnits? fuel (.char (← shortEscape? c) :: units) rest
  | fuel + 1, units, c :: rest =>
      if c = '\\' || c.toNat < 32 then none else readUnits? fuel (.char c :: units) rest

/-- Read a text after its opening quote; `none` inside if it names no characters. -/
def readText? (fuel : Nat) (chars : List Char) : Option (Option String × List Char) := do
  let (units, rest) ← readUnits? fuel [] chars
  return ((joinUnits? units).map String.ofList, rest)

/-! ### Numbers -/

/-- The digits in front, and what follows them. -/
def spanDigits (chars : List Char) : List Char × List Char :=
  (chars.takeWhile Char.isDigit, chars.dropWhile Char.isDigit)

/-- Read the digits before the point: a zero alone, or digits that do not start with zero. -/
def readWhole? (chars : List Char) : Option (List Char × List Char) :=
  match spanDigits chars with
  | ([], _) => none
  | ('0' :: _ :: _, _) => none
  | (digits, rest) => some (digits, rest)

/-- Read the digits after a point, if there is a point. -/
def readFraction? : List Char → Option (List Char × List Char)
  | '.' :: rest =>
      match spanDigits rest with
      | ([], _) => none
      | (digits, rest) => some ('.' :: digits, rest)
  | rest => some ([], rest)

/-- Read an exponent, if there is one. -/
def readExponent? : List Char → Option (List Char × List Char)
  | mark :: rest =>
      if mark = 'e' || mark = 'E' then
        let (sign, rest) := match rest with
          | '+' :: rest => (['+'], rest)
          | '-' :: rest => (['-'], rest)
          | rest => ([], rest)
        match spanDigits rest with
        | ([], _) => none
        | (digits, rest) => some (mark :: sign ++ digits, rest)
      else some ([], mark :: rest)
  | [] => some ([], [])

/-- The value of a number without fraction and exponent. Zero has no negative. -/
def ofWhole (negative : Bool) (digits : List Char) : Json :=
  let size := (Text.natural? digits).getD 0
  let value : Int := if negative then -size else size
  if (negative && size = 0) || value < Int64.minValue.toInt || UInt64.size ≤ value then
    .real (String.ofList ((if negative then ['-'] else []) ++ digits))
  else .int value

/-- Read a number after its sign. -/
def readNumber? (negative : Bool) (chars : List Char) : Option (Json × List Char) := do
  let (whole, rest) ← readWhole? chars
  let (fraction, rest) ← readFraction? rest
  let (exponent, rest) ← readExponent? rest
  if fraction.isEmpty && exponent.isEmpty then return (ofWhole negative whole, rest)
  return (.real (String.ofList ((if negative then ['-'] else []) ++ whole ++ fraction ++ exponent)),
    rest)

/-! ### Values -/

mutual

/-- Read a value. -/
def readValue? : (fuel : Nat) → List Char → Option (Json × List Char)
  | 0, _ => none
  | fuel + 1, chars =>
      match skipBlanks chars with
      | 'n' :: 'u' :: 'l' :: 'l' :: rest => some (.null, rest)
      | 't' :: 'r' :: 'u' :: 'e' :: rest => some (.bool true, rest)
      | 'f' :: 'a' :: 'l' :: 's' :: 'e' :: rest => some (.bool false, rest)
      | '"' :: rest => do
          let (text, rest) ← readText? fuel rest
          return (text.elim .unreadable .str, rest)
      | '[' :: rest =>
          match skipBlanks rest with
          | ']' :: rest => some (.arr [], rest)
          | rest => readItems? fuel [] rest
      | '\x7b' :: rest =>
          match skipBlanks rest with
          | '\x7d' :: rest => some (.obj [], rest)
          | rest => readFields? fuel [] rest
      | '-' :: rest => readNumber? true rest
      | rest => readNumber? false rest

/-- Read the items of an array, from an item to the closing bracket; `items` holds those already
read, the latest first. -/
def readItems? : (fuel : Nat) → (items : List Json) → List Char → Option (Json × List Char)
  | 0, _, _ => none
  | fuel + 1, items, chars => do
      let (item, rest) ← readValue? fuel chars
      match skipBlanks rest with
      | ',' :: rest => readItems? fuel (item :: items) rest
      | ']' :: rest => some (.arr (item :: items).reverse, rest)
      | _ => none

/-- Read the fields of an object, from a name to the closing brace; `fields` holds those already
read, the latest first. A name that names no characters makes the object unreadable. -/
def readFields? : (fuel : Nat) → (fields : List (Option String × Json)) → List Char →
    Option (Json × List Char)
  | 0, _, _ => none
  | fuel + 1, fields, chars =>
      match skipBlanks chars with
      | '"' :: rest => do
          let (name, rest) ← readText? fuel rest
          match skipBlanks rest with
          | ':' :: rest =>
              let (value, rest) ← readValue? fuel rest
              let fields := (name, value) :: fields
              match skipBlanks rest with
              | ',' :: rest => readFields? fuel fields rest
              | '\x7d' :: rest =>
                  let named := fields.reverse.mapM fun field => field.1.map (·, field.2)
                  some (named.elim .unreadable .obj, rest)
              | _ => none
          | _ => none
      | _ => none

end

/-- The value that a text holds. -/
def parse? (text : String) : Option Json := do
  let chars := text.toList
  let (value, rest) ← readValue? (chars.length + 2) chars
  if (skipBlanks rest).isEmpty then return value
  none

end ScopeMachine.Json
