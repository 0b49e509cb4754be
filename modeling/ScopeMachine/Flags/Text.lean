import ScopeMachine.Flags
import ScopeMachine.Text

/-! # Written flag sets

A flag set is written as its names in bit order, joined by ` | `, followed by the bits without a
name as one hexadecimal item. The reader takes the items in any order, with blanks around them.

* `Flags.text` writes a set and `Flags.parse?` reads one;
* `Flags.listed` is the short form of listings, names only. -/

namespace ScopeMachine.Flags

variable {kind : FlagKind}

/-- The items that a flag set is written as. -/
def items (flags : Flags kind) : List String :=
  flags.names ++ if flags.unnamed = 0 then [] else ["0x" ++ Text.hexText flags.unnamed.toNat]

/-- The written form of a flag set. -/
def text (flags : Flags kind) : String :=
  String.intercalate " | " flags.items

/-- The bits that one item denotes: a name, or `0x` and hexadecimal digits that fit a byte. A plus
sign may stand before the digits. -/
def itemBits? (kind : FlagKind) : List Char → Option UInt8
  | '0' :: 'x' :: digits => do
      let digits := match digits with
        | '+' :: digits => digits
        | digits => digits
      let value ← Text.hexNumber? digits
      if value < 256 then some (UInt8.ofNat value) else none
  | item => (kind.table.find? fun entry => entry.1.toList == item).map Prod.snd

/-- The flag set that a text denotes. A blank text is the empty set, but no single item may be
blank. -/
def parse? (kind : FlagKind) (text : String) : Option (Flags kind) :=
  let chars := text.toList
  if (Text.trimBlank chars).isEmpty then some empty
  else do
    let bits ← ((Text.splitAt '|' chars).map Text.trimBlank).mapM (itemBits? kind)
    return ⟨bits.foldl (· ||| ·) 0⟩

/-- The names in a set, joined by bars, or a dash if there are none. -/
def listed (flags : Flags kind) : String :=
  if flags.names.isEmpty then "-" else String.intercalate "|" flags.names

end ScopeMachine.Flags
