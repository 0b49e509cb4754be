import ScopeMachine.Error
import ScopeMachine.Instruction

/-! # Basic blocks

Code is cut into blocks that control enters only at the first instruction and leaves only after the
last. A block starts at the first instruction, at every target of a jump, and after every jump and
every instruction that does not fall through. Every jump, reachable or not, must lead to an
instruction of the procedure. -/

namespace ScopeMachine

/-- A range of instructions, from `start` up to but not including `stop`. -/
structure Block where
  /-- The first instruction. -/
  start : Nat
  /-- The position after the last instruction. -/
  stop : Nat
deriving DecidableEq

namespace ControlFlow

/-- Mark the positions that an instruction makes the start of a block. -/
def markLeaders (proc : ProcId) (marks : Array Bool) (instruction : Instruction)
    (position : Nat) : Except Error (Array Bool) := do
  let marks ← match instruction.jumpOffset? with
    | none => pure marks
    | some offset =>
        match instruction.jumpTarget? position with
        | some target =>
            if target < marks.size then pure (marks.setIfInBounds target true)
            else throw (.range (.jumpOutside position proc offset.toInt))
        | none => throw (.range (.jumpOutside position proc offset.toInt))
  return if instruction.isJump || instruction.isTerminator then
    marks.setIfInBounds (position + 1) true
  else marks

/-- Which positions start a block. -/
def leaders (proc : ProcId) (code : Array Instruction) : Except Error (Array Bool) :=
  code.toList.zipIdx.foldlM (fun marks entry => markLeaders proc marks entry.1 entry.2)
    ((Array.replicate code.size false).setIfInBounds 0 true)

/-- The blocks with the given starts in code of the given size. -/
def blocksFrom (size : Nat) : List Nat → List Block
  | [] => []
  | [start] => [⟨start, size⟩]
  | start :: next :: starts => ⟨start, next⟩ :: blocksFrom size (next :: starts)

/-- The positions that are marked, in order. -/
def markedPositions (marks : Array Bool) : List Nat :=
  (List.range marks.size).filter fun position => marks[position]? == some true

/-- The basic blocks of a procedure's code, in order. -/
def basicBlocks (proc : ProcId) (code : Array Instruction) : Except Error (Array Block) := do
  let marks ← leaders proc code
  return (blocksFrom code.size (markedPositions marks)).toArray

/-- For each position, the index of the block that it belongs to. -/
def blockIndices (blocks : Array Block) : Array Nat :=
  (blocks.toList.zipIdx.flatMap fun entry =>
    List.replicate (entry.1.stop - entry.1.start) entry.2).toArray

end ControlFlow

end ScopeMachine
