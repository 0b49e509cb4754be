import ScopeMachine.Text

/-! # Module identities

A module is identified by a 128-bit number, written as 32 hexadecimal digits in five groups.

* `ModuleId.text` writes an identity;
* `ModuleId.parse?` reads one, grouped, wrapped in braces or behind a scheme, or as bare digits;
* `ModuleId.random` marks 128 arbitrary bits as a generated identity. -/

namespace ScopeMachine

/-- The identity of a module. -/
structure ModuleId where
  /-- The 128 bits, most significant first. -/
  bits : BitVec 128
deriving DecidableEq

namespace ModuleId

/-- The identity of a module that has not been finished. -/
def nil : ModuleId := ⟨0⟩

/-- The identity generated from arbitrary bits: the version and variant fields are fixed, as for
every randomly generated identity. -/
def random (bits : BitVec 128) : ModuleId :=
  let versioned := (bits &&& ~~~(0xF000#128 <<< 64)) ||| (0x4000#128 <<< 64)
  ⟨(versioned &&& ~~~(0xC000000000000000#128)) ||| 0x8000000000000000#128⟩

/-- The 32 hexadecimal digits of an identity. -/
def digits (id : ModuleId) : List Char :=
  (List.range 32).map fun i => Nat.digitChar (id.bits.toNat >>> (4 * (31 - i)) % 16)

/-- The sizes of the groups of digits. -/
def groupSizes : List Nat := [8, 4, 4, 4, 12]

/-- Cut digits into groups, with a hyphen between them. -/
def hyphenate : List Nat → List Char → List Char
  | [], digits => digits
  | [_], digits => digits
  | size :: sizes, digits => digits.take size ++ '-' :: hyphenate sizes (digits.drop size)

/-- The written form of an identity. -/
def text (id : ModuleId) : String :=
  String.ofList (hyphenate groupSizes id.digits)

/-- The identity with the given 32 digits. -/
def ofDigits? (digits : List Char) : Option ModuleId :=
  if digits.length = 32 then (Text.hexNumber? digits).map fun value => ⟨BitVec.ofNat 128 value⟩
  else none

/-- Remove the hyphens from grouped digits; there must be one after each group but the last. -/
def unhyphenate? : List Nat → List Char → Option (List Char)
  | [], digits => some digits
  | [_], digits => some digits
  | size :: sizes, digits =>
      match digits.drop size with
      | '-' :: rest => (unhyphenate? sizes rest).map (digits.take size ++ ·)
      | _ => none

/-- The identity written in groups. -/
def ofGroups? (text : List Char) : Option ModuleId :=
  (unhyphenate? groupSizes text).bind ofDigits?

/-- The scheme that may stand before a grouped identity, in letters of either case. -/
def scheme : List Char := "urn:uuid:".toList

/-- The identity that a text denotes. -/
def parse? (text : String) : Option ModuleId :=
  let chars := text.toList
  if chars.length = 32 then ofDigits? chars
  else if chars.length = 36 then ofGroups? chars
  else if chars.length = 38 ∧ chars.head? = some '\x7b' ∧ chars.getLast? = some '\x7d' then
    ofGroups? (chars.drop 1).dropLast
  else if chars.length = 45 ∧ (chars.take scheme.length).map Char.toLower = scheme then
    ofGroups? (chars.drop scheme.length)
  else none

end ModuleId

end ScopeMachine
