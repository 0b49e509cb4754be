import ScopeMachine.Opcode

/-! # Instructions

An instruction is an opcode together with operands of that opcode's signature. `Instruction` lists
the instructions with named operands; `Instruction.opcode`, `Instruction.operands` and
`Instruction.assemble` pass between an instruction and its two parts, and
`assemble_opcode_operands` says that nothing is lost on the way.

Jumps count instructions, relative to the jump itself: `Instruction.jumpTarget?`. -/

namespace ScopeMachine

/-- One instruction of a procedure. -/
inductive Instruction where
  /-- Add one to the word in `reg`. -/
  | inc (reg : RegId)
  /-- Subtract one from the word in `reg`. -/
  | dec (reg : RegId)
  /-- Store the sum of two words. -/
  | add (dst left right : RegId)
  /-- Store the difference of two words. -/
  | sub (dst left right : RegId)
  /-- Store the product of two words. -/
  | mul (dst left right : RegId)
  /-- Store a one-byte literal. -/
  | cpi1 (dst : RegId) (literal : Int8)
  /-- Store a two-byte literal. -/
  | cpi2 (dst : RegId) (literal : Int16)
  /-- Store a four-byte literal. -/
  | cpi4 (dst : RegId) (literal : Int32)
  /-- Store an eight-byte literal. -/
  | cpi8 (dst : RegId) (literal : Int64)
  /-- Jump if the word in `reg` is zero. -/
  | jz (reg : RegId) (offset : Int32)
  /-- Jump if the word in `reg` is not zero. -/
  | jnz (reg : RegId) (offset : Int32)
  /-- Jump if the word in `reg` is positive. -/
  | jgz (reg : RegId) (offset : Int32)
  /-- Jump if the word in `reg` is not positive. -/
  | jngz (reg : RegId) (offset : Int32)
  /-- Jump if `left` is greater than `right`. -/
  | jg (left right : RegId) (offset : Int32)
  /-- Jump if `left` is not greater than `right`. -/
  | jng (left right : RegId) (offset : Int32)
  /-- Jump if `left` equals `right`. -/
  | je (left right : RegId) (offset : Int32)
  /-- Jump. -/
  | jmp (offset : Int32)
  /-- Open a scope of `reg` with a fresh variable. -/
  | als (reg : RegId)
  /-- Open a scope of `reg` with a null frame. -/
  | alsr (reg : RegId)
  /-- Close the most recent scope of `reg`. -/
  | frs (reg : RegId)
  /-- Close the last `count` scopes. -/
  | frsl (count : UInt32)
  /-- Open a scope of `reg` with a fresh variable. -/
  | push (reg : RegId)
  /-- Open a scope of `reg` with a null frame. -/
  | pushr (reg : RegId)
  /-- Open a scope of `reg` that names the same variable as before. -/
  | pushh (reg : RegId)
  /-- Close the most recent scope of `reg`. -/
  | pop (reg : RegId)
  /-- Close the last `count` scopes. -/
  | popl (count : UInt32)
  /-- Copy the payload of `src` over the front of the payload of `dst`. -/
  | cpb (dst src : RegId)
  /-- Load the element of `src` at the position in `position`. -/
  | lde (dst src position : RegId)
  /-- Store an element of `dst` at the position in `position`. -/
  | ste (dst position src : RegId)
  /-- Load bytes from `src`, starting at `offset`. -/
  | ldb (dst src : RegId) (offset : UInt32)
  /-- Store bytes into `dst`, starting at `offset`. -/
  | stb (dst : RegId) (offset : UInt32) (src : RegId)
  /-- Bind `dst` to the referent in slot `slot` of `src`. -/
  | ldr (dst src : RegId) (slot : UInt32)
  /-- Store a reference to `src` in slot `slot` of `dst`. -/
  | str (dst : RegId) (slot : UInt32) (src : RegId)
  /-- Call a procedure. -/
  | call (proc : ProcId)
  /-- Raise the fault whose code the error register holds. -/
  | throw
  /-- Return from the procedure. -/
  | ret
deriving DecidableEq

namespace Instruction

/-! ### Opcode and operands -/

/-- The opcode of an instruction. -/
def opcode : Instruction → Opcode
  | inc .. => .inc
  | dec .. => .dec
  | add .. => .add
  | sub .. => .sub
  | mul .. => .mul
  | cpi1 .. => .cpi1
  | cpi2 .. => .cpi2
  | cpi4 .. => .cpi4
  | cpi8 .. => .cpi8
  | jz .. => .jz
  | jnz .. => .jnz
  | jgz .. => .jgz
  | jngz .. => .jngz
  | jg .. => .jg
  | jng .. => .jng
  | je .. => .je
  | jmp .. => .jmp
  | als .. => .als
  | alsr .. => .alsr
  | frs .. => .frs
  | frsl .. => .frsl
  | push .. => .push
  | pushr .. => .pushr
  | pushh .. => .pushh
  | pop .. => .pop
  | popl .. => .popl
  | cpb .. => .cpb
  | lde .. => .lde
  | ste .. => .ste
  | ldb .. => .ldb
  | stb .. => .stb
  | ldr .. => .ldr
  | str .. => .str
  | call .. => .call
  | throw => .throw
  | ret => .ret

/-- The operands of an instruction, in the order in which they are written. -/
def operands : (instruction : Instruction) → Operands instruction.opcode.signature
  | inc reg => (reg, ())
  | dec reg => (reg, ())
  | add dst left right => (dst, left, right, ())
  | sub dst left right => (dst, left, right, ())
  | mul dst left right => (dst, left, right, ())
  | cpi1 dst literal => (dst, literal, ())
  | cpi2 dst literal => (dst, literal, ())
  | cpi4 dst literal => (dst, literal, ())
  | cpi8 dst literal => (dst, literal, ())
  | jz reg offset => (reg, offset, ())
  | jnz reg offset => (reg, offset, ())
  | jgz reg offset => (reg, offset, ())
  | jngz reg offset => (reg, offset, ())
  | jg left right offset => (left, right, offset, ())
  | jng left right offset => (left, right, offset, ())
  | je left right offset => (left, right, offset, ())
  | jmp offset => (offset, ())
  | als reg => (reg, ())
  | alsr reg => (reg, ())
  | frs reg => (reg, ())
  | frsl count => (count, ())
  | push reg => (reg, ())
  | pushr reg => (reg, ())
  | pushh reg => (reg, ())
  | pop reg => (reg, ())
  | popl count => (count, ())
  | cpb dst src => (dst, src, ())
  | lde dst src position => (dst, src, position, ())
  | ste dst position src => (dst, position, src, ())
  | ldb dst src offset => (dst, src, offset, ())
  | stb dst offset src => (dst, offset, src, ())
  | ldr dst src slot => (dst, src, slot, ())
  | str dst slot src => (dst, slot, src, ())
  | call proc => (proc, ())
  | throw => ()
  | ret => ()

/-- The instruction with a given opcode and operands. -/
def assemble : (opcode : Opcode) → Operands opcode.signature → Instruction
  | .inc, (reg, _) => inc reg
  | .dec, (reg, _) => dec reg
  | .add, (dst, left, right, _) => add dst left right
  | .sub, (dst, left, right, _) => sub dst left right
  | .mul, (dst, left, right, _) => mul dst left right
  | .cpi1, (dst, literal, _) => cpi1 dst literal
  | .cpi2, (dst, literal, _) => cpi2 dst literal
  | .cpi4, (dst, literal, _) => cpi4 dst literal
  | .cpi8, (dst, literal, _) => cpi8 dst literal
  | .jz, (reg, offset, _) => jz reg offset
  | .jnz, (reg, offset, _) => jnz reg offset
  | .jgz, (reg, offset, _) => jgz reg offset
  | .jngz, (reg, offset, _) => jngz reg offset
  | .jg, (left, right, offset, _) => jg left right offset
  | .jng, (left, right, offset, _) => jng left right offset
  | .je, (left, right, offset, _) => je left right offset
  | .jmp, (offset, _) => jmp offset
  | .als, (reg, _) => als reg
  | .alsr, (reg, _) => alsr reg
  | .frs, (reg, _) => frs reg
  | .frsl, (count, _) => frsl count
  | .push, (reg, _) => push reg
  | .pushr, (reg, _) => pushr reg
  | .pushh, (reg, _) => pushh reg
  | .pop, (reg, _) => pop reg
  | .popl, (count, _) => popl count
  | .cpb, (dst, src, _) => cpb dst src
  | .lde, (dst, src, position, _) => lde dst src position
  | .ste, (dst, position, src, _) => ste dst position src
  | .ldb, (dst, src, offset, _) => ldb dst src offset
  | .stb, (dst, offset, src, _) => stb dst offset src
  | .ldr, (dst, src, slot, _) => ldr dst src slot
  | .str, (dst, slot, src, _) => str dst slot src
  | .call, (proc, _) => call proc
  | .throw, _ => throw
  | .ret, _ => ret

/-- An instruction is assembled from its own opcode and operands. -/
@[simp] theorem assemble_opcode_operands (instruction : Instruction) :
    assemble instruction.opcode instruction.operands = instruction := by
  cases instruction <;> rfl

/-- An assembled instruction has the opcode it was assembled from. -/
@[simp] theorem opcode_assemble (opcode : Opcode) (operands : Operands opcode.signature) :
    (assemble opcode operands).opcode = opcode := by
  cases opcode <;> rfl

/-! ### Control flow -/

/-- The jump distance, for jumps. -/
def jumpOffset? : Instruction → Option Int32
  | jz _ offset | jnz _ offset | jgz _ offset | jngz _ offset => some offset
  | jg _ _ offset | jng _ _ offset | je _ _ offset => some offset
  | jmp offset => some offset
  | _ => none

/-- The position that a jump at position `position` leads to. There is none for other
instructions, nor for a jump to before the first instruction. Positions are words: the sum is taken
in 64 bits, so that a position with the highest bit counts as before the first instruction. -/
def jumpTarget? (instruction : Instruction) (position : Nat) : Option Nat :=
  instruction.jumpOffset?.bind fun offset =>
    (Int64.ofNat position + offset.toInt64).toInt.toNat?

/-- At positions below 2^62, which all code keeps to, a jump leads as far as its distance says. -/
theorem jumpTarget?_eq (instruction : Instruction) {position : Nat}
    (h : position < 0x4000000000000000) :
    instruction.jumpTarget? position =
      instruction.jumpOffset?.bind fun offset => (position + offset.toInt).toNat? := by
  unfold jumpTarget?
  congr 1
  funext offset
  have low := offset.le_toInt
  have high := offset.toInt_lt
  rw [Int64.toInt_add, Int64.toInt_ofNat_of_lt (by omega), Int32.toInt_toInt64,
    Int.bmod_eq_of_le (by omega) (by omega)]

/-- Whether an instruction is a jump, taken or not. -/
def isJump (instruction : Instruction) : Bool :=
  instruction.jumpOffset?.isSome

/-- Whether control never continues with the next instruction. -/
def isTerminator (instruction : Instruction) : Bool :=
  instruction.opcode.isTerminator

end Instruction

end ScopeMachine
