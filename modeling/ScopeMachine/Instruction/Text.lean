import ScopeMachine.Instruction

/-! # Written instructions

The text of an instruction: its mnemonic, filled up to six columns, and its operands. Positions
within an element are written after the register they belong to. -/

namespace ScopeMachine

/-- Fill a text with blanks on the right, up to a width. -/
def padRight (width : Nat) (text : String) : String :=
  text ++ String.ofList (List.replicate (width - text.length) ' ')

/-- Fill the decimal digits of a number with zeros on the left, up to a width. -/
def padNumber (width : Nat) (number : Nat) : String :=
  let digits := number.repr
  String.ofList (List.replicate (width - digits.length) '0') ++ digits

/-- The decimal form of an integer, with a sign also when it is not negative. -/
def signedText (value : Int) : String :=
  if value < 0 then value.repr else "+" ++ value.repr

namespace Instruction

/-- The text of an instruction's operands. -/
def operandText : Instruction → String
  | inc reg | dec reg | als reg | alsr reg | frs reg | push reg | pushr reg | pushh reg
  | pop reg => reg.text
  | add dst left right | sub dst left right | mul dst left right =>
      dst.text ++ ", " ++ left.text ++ ", " ++ right.text
  | cpi1 dst literal => dst.text ++ ", " ++ literal.toInt.repr
  | cpi2 dst literal => dst.text ++ ", " ++ literal.toInt.repr
  | cpi4 dst literal => dst.text ++ ", " ++ literal.toInt.repr
  | cpi8 dst literal => dst.text ++ ", " ++ literal.toInt.repr
  | jz reg offset | jnz reg offset | jgz reg offset | jngz reg offset =>
      reg.text ++ ", " ++ signedText offset.toInt
  | jg left right offset | jng left right offset | je left right offset =>
      left.text ++ ", " ++ right.text ++ ", " ++ signedText offset.toInt
  | jmp offset => signedText offset.toInt
  | frsl count | popl count => count.toNat.repr
  | cpb dst src => dst.text ++ ", " ++ src.text
  | lde dst src position => dst.text ++ ", " ++ src.text ++ "[" ++ position.text ++ "]"
  | ste dst position src => dst.text ++ "[" ++ position.text ++ "], " ++ src.text
  | ldb dst src offset => dst.text ++ ", " ++ src.text ++ "+" ++ offset.toNat.repr
  | stb dst offset src => dst.text ++ "+" ++ offset.toNat.repr ++ ", " ++ src.text
  | ldr dst src slot => dst.text ++ ", " ++ src.text ++ ".ref" ++ slot.toNat.repr
  | str dst slot src => dst.text ++ ".ref" ++ slot.toNat.repr ++ ", " ++ src.text
  | call proc => proc.text
  | throw | ret => ""

/-- The text of an instruction. An instruction without operands is its mnemonic alone. -/
def text (instruction : Instruction) : String :=
  match instruction with
  | throw | ret => instruction.opcode.mnemonic
  | _ => padRight 6 instruction.opcode.mnemonic ++ instruction.operandText

end Instruction

end ScopeMachine
