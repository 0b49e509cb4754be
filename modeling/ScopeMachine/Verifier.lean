import ScopeMachine.ControlFlow
import ScopeMachine.Scopes

/-! # Verification of scopes

A finished procedure keeps the scope discipline on every path. The verifier follows the open scopes
through the basic blocks: the first path into a block decides the open scopes on entry, every later
path must bring the same, and a block is followed once, when its entry is decided.

* `Flow` is the procedure under verification, cut into blocks;
* `Solution` holds the entry scopes found so far and the blocks that wait to be followed;
* `verifyProc` and `verifyModule` accept code that keeps the discipline. -/

namespace ScopeMachine

/-- A procedure under verification. -/
structure Flow where
  /-- What the scope rules need to know. -/
  context : ScopeContext
  /-- The procedure, for reports. -/
  proc : ProcId
  /-- Its instructions. -/
  code : Array Instruction
  /-- Its basic blocks, in order. -/
  blocks : Array Block
  /-- For each position, the index of its block. -/
  blockAt : Array Nat

/-- The entry scopes found so far, and the blocks that wait. -/
structure Solution where
  /-- For each block, the open scopes on entry, once decided. -/
  entries : Array (Option Scopes)
  /-- The blocks that wait to be followed, the next one first. -/
  waiting : List Nat
deriving DecidableEq

namespace Flow

/-- Cut the code of a procedure into blocks. -/
def of (context : ScopeContext) (proc : ProcId) (code : Array Instruction) :
    Except Error Flow := do
  let blocks ← ControlFlow.basicBlocks proc code
  return ⟨context, proc, code, blocks, ControlFlow.blockIndices blocks⟩

/-- The open scopes after `count` instructions from a position. -/
def walk (flow : Flow) : (count position : Nat) → Scopes → Except Error Scopes
  | 0, _, scopes => .ok scopes
  | count + 1, position, scopes =>
      match flow.code[position]? with
      | none => .ok scopes
      | some instruction =>
          match scopes.step flow.context instruction with
          | .error violation => .error (.scope flow.proc position violation)
          | .ok after => walk flow count (position + 1) after

/-- The positions that control may reach after the instruction at `position`. Control must neither
return with open scopes nor run past the last instruction. -/
def successors (flow : Flow) (instruction : Instruction) (position : Nat) (scopes : Scopes) :
    Except Error (List Nat) :=
  if instruction = .ret ∧ scopes ≠ [] then
    .error (.scope flow.proc position (.unbalanced scopes.reverse))
  else if instruction.isTerminator then .ok (instruction.jumpTarget? position).toList
  else if position + 1 = flow.code.size then .error (.scope flow.proc position .fallsOffEnd)
  else .ok ((instruction.jumpTarget? position).toList ++ [position + 1])

/-- Carry open scopes from the instruction at `position` into the block at `target`. -/
def carry (flow : Flow) (position : Nat) (scopes : Scopes) (solution : Solution) (target : Nat) :
    Except Error Solution :=
  let block := flow.blockAt[target]?.getD 0
  match solution.entries[block]?.join with
  | none =>
      .ok ⟨solution.entries.setIfInBounds block (some scopes), solution.waiting ++ [block]⟩
  | some known =>
      if known = scopes then .ok solution
      else .error (.scope flow.proc position (.mergeMismatch target))

/-- Follow one block from its entry scopes. -/
def follow (flow : Flow) (solution : Solution) (block : Block) (entry : Scopes) :
    Except Error Solution := do
  let after ← flow.walk (block.stop - block.start) block.start entry
  let last := block.stop - 1
  match flow.code[last]? with
  | none => return solution
  | some instruction =>
      let targets ← flow.successors instruction last after
      targets.foldlM (flow.carry last after) solution

/-- Follow the block that waits first. -/
def advance (flow : Flow) (solution : Solution) : Except Error Solution :=
  match solution.waiting with
  | [] => .ok solution
  | index :: waiting =>
      match flow.blocks[index]?, solution.entries[index]?.join with
      | some block, some entry => flow.follow { solution with waiting } block entry
      | _, _ => .ok { solution with waiting }

/-- Follow at most `steps` blocks. -/
def advanceBy (flow : Flow) : (steps : Nat) → Solution → Except Error Solution
  | 0, solution => .ok solution
  | steps + 1, solution =>
      if solution.waiting.isEmpty then .ok solution
      else flow.advance solution >>= advanceBy flow steps

/-- At the start only the first block is decided: no scope is open. -/
def start (flow : Flow) : Solution :=
  ⟨(Array.replicate flow.blocks.size none).setIfInBounds 0 (some []), [0]⟩

/-- The entry scopes of all blocks that control can reach. A block waits at most once, so there are
no more steps than blocks. -/
def solve (flow : Flow) : Except Error Solution :=
  flow.advanceBy flow.blocks.size flow.start

end Flow

/-- The entry scopes of the blocks of a procedure that keeps the scope discipline. -/
def solveProc (module : Module) (proc : ProcId) : Except Error (Flow × Solution) := do
  let context ← orError (.missing (.procedure proc)) (ScopeContext.of? module proc)
  let declared ← orError (.missing (.procedure proc)) (module.proc? proc)
  let code ← liftCodec declared.instructions
  if code.isEmpty then throw (.scope proc 0 .fallsOffEnd)
  let flow ← Flow.of context proc code
  return (flow, ← flow.solve)

/-- Verify that a procedure keeps the scope discipline on every path. -/
def verifyProc (module : Module) (proc : ProcId) : Except Error Unit := do
  let _ ← solveProc module proc

/-- Verify every procedure of a module, in order. -/
def verifyModule (module : Module) : Except Error Unit :=
  (List.range module.procs.size).forM fun index => verifyProc module ⟨UInt32.ofNat index⟩

end ScopeMachine
