import ScopeMachine.Json
import ScopeMachine.Text

/-! # Written JSON

Two written forms: `Json.compact` without blanks, and `Json.pretty` with one item on each line and
two blanks for each level. -/

namespace ScopeMachine.Json

/-! ### Texts -/

/-- Four hexadecimal digits. -/
def hexDigits4 (number : Nat) : List Char :=
  [Nat.digitChar (number / 4096 % 16), Nat.digitChar (number / 256 % 16),
    Nat.digitChar (number / 16 % 16), Nat.digitChar (number % 16)]

/-- How a character is written within a text. -/
def escapeChar (c : Char) : List Char :=
  if c = '"' then ['\\', '"']
  else if c = '\\' then ['\\', '\\']
  else if c = '\n' then ['\\', 'n']
  else if c = '\r' then ['\\', 'r']
  else if c = '\t' then ['\\', 't']
  else if c = '\x08' then ['\\', 'b']
  else if c = '\x0c' then ['\\', 'f']
  else if c.toNat < 32 then '\\' :: 'u' :: hexDigits4 c.toNat
  else [c]

/-- A text between quotes. -/
def quote (text : String) : String :=
  String.ofList ('"' :: (text.toList.flatMap escapeChar ++ ['"']))

/-! ### Values -/

mutual

/-- The written form without blanks. -/
def compact : Json → String
  | null | unreadable => "null"
  | bool value => if value then "true" else "false"
  | int value => value.repr
  | real literal => literal
  | str text => quote text
  | arr items => "[" ++ String.intercalate "," (compactItems items) ++ "]"
  | obj fields => "\x7b" ++ String.intercalate "," (compactFields fields) ++ "\x7d"

/-- The written forms of the items of an array. -/
def compactItems : List Json → List String
  | [] => []
  | item :: items => compact item :: compactItems items

/-- The written forms of the fields of an object. -/
def compactFields : List (String × Json) → List String
  | [] => []
  | (name, value) :: fields => (quote name ++ ":" ++ compact value) :: compactFields fields

end

/-- A line break and the blanks of a level. -/
def lineBreak (level : Nat) : String := "\n" ++ String.ofList (List.replicate (2 * level) ' ')

/-- Items on lines of their own, between brackets. -/
def block (level : Nat) (left right : String) (items : List String) : String :=
  if items.isEmpty then left ++ right
  else
    left ++ lineBreak (level + 1) ++ String.intercalate ("," ++ lineBreak (level + 1)) items
      ++ lineBreak level ++ right

mutual

/-- The written form at a level, with one item on each line. -/
def prettyAt (level : Nat) : Json → String
  | null | unreadable => "null"
  | bool value => if value then "true" else "false"
  | int value => value.repr
  | real literal => literal
  | str text => quote text
  | arr items => block level "[" "]" (prettyItems (level + 1) items)
  | obj fields => block level "\x7b" "\x7d" (prettyFields (level + 1) fields)

/-- The written forms of the items of an array. -/
def prettyItems (level : Nat) : List Json → List String
  | [] => []
  | item :: items => prettyAt level item :: prettyItems level items

/-- The written forms of the fields of an object. -/
def prettyFields (level : Nat) : List (String × Json) → List String
  | [] => []
  | (name, value) :: fields =>
      (quote name ++ ": " ++ prettyAt level value) :: prettyFields level fields

end

/-- The written form with one item on each line. -/
def pretty (json : Json) : String := json.prettyAt 0

end ScopeMachine.Json
