import ScopeMachine.Verifier

/-! # Paths and the open scopes they carry

A path through a procedure starts at the first instruction with no scope open, follows the scope
rules instruction by instruction, and takes every branch. The discipline is a condition on all
paths, without blocks and without an order in which paths are looked at.

* `Instruction.LeadsTo` is one step of control, `Reaches` a whole path;
* `KeepsDiscipline` is what all paths must satisfy;
* `Flow.scopesAt` reads the open scopes at any position off a solution of the verifier. -/

namespace ScopeMachine

/-- Control may pass from the instruction at `position` to `target`: by a jump, taken or not, or to
the next instruction. -/
def Instruction.LeadsTo (instruction : Instruction) (position target : Nat) : Prop :=
  instruction.jumpTarget? position = some target ∨
    (instruction.isTerminator = false ∧ target = position + 1)

/-- Some path through the code reaches a position with a list of open scopes. -/
inductive Reaches (context : ScopeContext) (code : Array Instruction) : Nat → Scopes → Prop
  /-- A path starts at the first instruction with no scope open. -/
  | start : Reaches context code 0 []
  /-- A path continues behind an instruction that keeps the scope rules. -/
  | next {position target : Nat} {scopes after : Scopes} {instruction : Instruction}
      (path : Reaches context code position scopes)
      (found : code[position]? = some instruction)
      (stepped : scopes.step context instruction = .ok after)
      (leads : instruction.LeadsTo position target) : Reaches context code target after

/-- All paths through the code keep the scope discipline. -/
structure KeepsDiscipline (context : ScopeContext) (code : Array Instruction) : Prop where
  /-- Every instruction on a path keeps the scope rules. -/
  steps : ∀ {position : Nat} {scopes : Scopes} {instruction : Instruction},
    Reaches context code position scopes → code[position]? = some instruction →
      ∃ after, scopes.step context instruction = .ok after
  /-- No path runs past the last instruction. -/
  inside : ∀ {scopes : Scopes}, ¬ Reaches context code code.size scopes
  /-- A path returns with no scope open. -/
  balanced : ∀ {position : Nat} {scopes : Scopes}, Reaches context code position scopes →
    code[position]? = some .ret → scopes = []
  /-- Two paths that meet carry the same open scopes. -/
  agree : ∀ {position : Nat} {left right : Scopes}, Reaches context code position left →
    Reaches context code position right → left = right

/-- Returning leaves the open scopes as they are. -/
theorem Scopes.step_ret (scopes : Scopes) (context : ScopeContext) :
    scopes.step context .ret = .ok scopes := rfl

/-- The open scopes that a solution assigns to a position: those on entry to its block, followed
up to the position. -/
def Flow.scopesAt (flow : Flow) (solution : Solution) (position : Nat) : Option Scopes := do
  let index ← flow.blockAt[position]?
  let block ← flow.blocks[index]?
  let entry ← solution.entries[index]?.join
  (flow.walk (position - block.start) block.start entry).toOption

end ScopeMachine
