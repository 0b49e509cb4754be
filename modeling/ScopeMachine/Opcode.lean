import ScopeMachine.Operand

/-! # Opcodes

The first byte of an encoded instruction. Each opcode has a byte, a mnemonic and a signature: the
kinds of its operands in the order in which they are written.

* `Opcode.ofByte?` finds the opcode with a given byte;
* `Opcode.isTerminator` holds of the opcodes after which control never falls through. -/

namespace ScopeMachine

/-- The operations of the instruction set. -/
inductive Opcode where
  /-- Add one to a word. -/
  | inc
  /-- Subtract one from a word. -/
  | dec
  /-- Add two words. -/
  | add
  /-- Subtract two words. -/
  | sub
  /-- Multiply two words. -/
  | mul
  /-- Copy a one-byte literal. -/
  | cpi1
  /-- Copy a two-byte literal. -/
  | cpi2
  /-- Copy a four-byte literal. -/
  | cpi4
  /-- Copy an eight-byte literal. -/
  | cpi8
  /-- Jump if a word is zero. -/
  | jz
  /-- Jump if a word is not zero. -/
  | jnz
  /-- Jump if a word is positive. -/
  | jgz
  /-- Jump if a word is not positive. -/
  | jngz
  /-- Jump if one word is greater than another. -/
  | jg
  /-- Jump if one word is not greater than another. -/
  | jng
  /-- Jump if two words are equal. -/
  | je
  /-- Jump. -/
  | jmp
  /-- Open a scope with a fresh variable. -/
  | als
  /-- Open a scope with a null frame. -/
  | alsr
  /-- Close the most recent scope of a register. -/
  | frs
  /-- Close the last scopes, whatever their registers. -/
  | frsl
  /-- Open a scope with a fresh variable. -/
  | push
  /-- Open a scope with a null frame. -/
  | pushr
  /-- Open a scope with the variable the register already names. -/
  | pushh
  /-- Close the most recent scope of a register. -/
  | pop
  /-- Close the last scopes, whatever their registers. -/
  | popl
  /-- Copy bytes from one variable to another. -/
  | cpb
  /-- Load an element. -/
  | lde
  /-- Store an element. -/
  | ste
  /-- Load bytes from within an element. -/
  | ldb
  /-- Store bytes within an element. -/
  | stb
  /-- Bind a register to a referent. -/
  | ldr
  /-- Store a reference. -/
  | str
  /-- Call a procedure. -/
  | call
  /-- Raise the fault whose code the error register holds. -/
  | throw
  /-- Return from the procedure. -/
  | ret
deriving DecidableEq

namespace Opcode

/-- Every opcode, in the order of the opcode bytes. -/
def all : List Opcode :=
  [inc, dec, add, sub, mul, cpi1, cpi2, cpi4, cpi8, jz, jnz, jgz, jngz, jg, jng, je, jmp, als,
    alsr, frs, frsl, push, pushr, pushh, pop, popl, cpb, lde, ste, ldb, stb, ldr, str, call,
    throw, ret]

/-- The byte that stands for an opcode. Related operations have neighbouring bytes, with gaps
between the families. -/
def byte : Opcode → UInt8
  | inc => 0x01
  | dec => 0x02
  | add => 0x08
  | sub => 0x09
  | mul => 0x0A
  | cpi1 => 0x10
  | cpi2 => 0x11
  | cpi4 => 0x12
  | cpi8 => 0x13
  | jz => 0x18
  | jnz => 0x19
  | jgz => 0x1A
  | jngz => 0x1B
  | jg => 0x20
  | jng => 0x21
  | je => 0x22
  | jmp => 0x28
  | als => 0x30
  | alsr => 0x31
  | frs => 0x32
  | frsl => 0x33
  | push => 0x38
  | pushr => 0x39
  | pushh => 0x3A
  | pop => 0x3B
  | popl => 0x3C
  | cpb => 0x40
  | lde => 0x48
  | ste => 0x49
  | ldb => 0x50
  | stb => 0x51
  | ldr => 0x58
  | str => 0x59
  | call => 0x60
  | throw => 0x68
  | ret => 0x70

/-- The opcode that a byte stands for. -/
def ofByte? (byte : UInt8) : Option Opcode :=
  all.find? fun opcode => opcode.byte == byte

/-- The written name of an opcode. -/
def mnemonic : Opcode → String
  | inc => "INC"
  | dec => "DEC"
  | add => "ADD"
  | sub => "SUB"
  | mul => "MUL"
  | cpi1 => "CPI1"
  | cpi2 => "CPI2"
  | cpi4 => "CPI4"
  | cpi8 => "CPI8"
  | jz => "JZ"
  | jnz => "JNZ"
  | jgz => "JGZ"
  | jngz => "JNGZ"
  | jg => "JG"
  | jng => "JNG"
  | je => "JE"
  | jmp => "JMP"
  | als => "ALS"
  | alsr => "ALSR"
  | frs => "FRS"
  | frsl => "FRSL"
  | push => "PUSH"
  | pushr => "PUSHR"
  | pushh => "PUSHH"
  | pop => "POP"
  | popl => "POPL"
  | cpb => "CPB"
  | lde => "LDE"
  | ste => "STE"
  | ldb => "LDB"
  | stb => "STB"
  | ldr => "LDR"
  | str => "STR"
  | call => "CALL"
  | throw => "THROW"
  | ret => "RET"

/-- Whether control never continues with the next instruction. -/
def isTerminator : Opcode → Bool
  | jmp | throw | ret => true
  | _ => false

/-- The kinds of an opcode's operands, in the order in which they are written. -/
abbrev signature : Opcode → List OperandKind
  | inc | dec | als | alsr | frs | push | pushr | pushh | pop => [.register]
  | add | sub | mul => [.register, .register, .register]
  | cpi1 => [.register, .literal1]
  | cpi2 => [.register, .literal2]
  | cpi4 => [.register, .literal4]
  | cpi8 => [.register, .literal8]
  | jz | jnz | jgz | jngz => [.register, .jumpOffset]
  | jg | jng | je => [.register, .register, .jumpOffset]
  | jmp => [.jumpOffset]
  | frsl | popl => [.scopeCount]
  | cpb => [.register, .register]
  | lde | ste => [.register, .register, .register]
  | ldb => [.register, .register, .byteOffset]
  | stb => [.register, .byteOffset, .register]
  | ldr => [.register, .register, .referenceSlot]
  | str => [.register, .referenceSlot, .register]
  | call => [.procedure]
  | throw | ret => []

/-- Every opcode is in the list of all opcodes. -/
theorem mem_all (opcode : Opcode) : opcode ∈ all := by
  cases opcode <;> decide

/-- The byte of an opcode finds the opcode again. -/
@[simp] theorem ofByte?_byte (opcode : Opcode) : ofByte? opcode.byte = some opcode := by
  cases opcode <;> rfl

/-- The opcode found for a byte has that byte. -/
theorem byte_of_ofByte? {byte : UInt8} {opcode : Opcode} (found : ofByte? byte = some opcode) :
    opcode.byte = byte := by
  simpa using List.find?_some found

end Opcode

end ScopeMachine
