import ScopeMachine.Text

/-! # JSON values

The values that module descriptions, reports and messages are exchanged as. Numbers that are not
integers of at most 64 bits are kept as they are written, because nothing here calculates with
them. -/

namespace ScopeMachine

/-- A JSON value. -/
inductive Json where
  /-- The null value. -/
  | null
  /-- A truth value. -/
  | bool (value : Bool)
  /-- An integer between the least signed and the greatest unsigned number of 64 bits. -/
  | int (value : Int)
  /-- Any other number, as it is written. -/
  | real (literal : String)
  /-- A text. -/
  | str (text : String)
  /-- An array. -/
  | arr (items : List Json)
  /-- An object; a name may occur more than once. -/
  | obj (fields : List (String × Json))
  /-- A well-formed value with a text that names no characters: a text, or an object with such a
  name. It can be passed over but not used. -/
  | unreadable

namespace Json

/-- A natural number. -/
def nat (value : Nat) : Json := .int value

/-- The value of the first field with a given name. -/
def field? (name : String) : Json → Option Json
  | obj fields => fields.lookup name
  | _ => none

/-- The text of a text. -/
def str? : Json → Option String
  | str text => some text
  | _ => none

/-- The items of an array. -/
def arr? : Json → Option (List Json)
  | arr items => some items
  | _ => none

/-- The value of an integer. -/
def int? : Json → Option Int
  | int value => some value
  | _ => none

/-- The value of a natural number below a bound. -/
def natBelow? (bound : Nat) (json : Json) : Option Nat :=
  json.int?.bind fun value =>
    if 0 ≤ value ∧ value < bound then some value.toNat else none

/-- The value of a signed 64-bit number, which may be written as a text. -/
def word? : Json → Option Int64
  | str text => Text.word? text.toList
  | int value => if value ≤ Int64.maxValue.toInt then some (Int64.ofInt value) else none
  | _ => none

/-- The value of a truth value. -/
def bool? : Json → Option Bool
  | bool value => some value
  | _ => none

/-- The values of the fields of a record, in the order of `names`. A record is an object in which
each name occurs at most once, among any other names, or an array with the values in order. A value
may be absent in an object, and at the end of an array. -/
def record? (names : List String) : Json → Option (List (Option Json))
  | obj fields =>
      if names.all fun name => (fields.filter fun field => field.1 == name).length ≤ 1 then
        some (names.map fun name => fields.lookup name)
      else none
  | arr items =>
      if items.length ≤ names.length then
        some (items.map some ++ List.replicate (names.length - items.length) none)
      else none
  | _ => none

end Json

end ScopeMachine
