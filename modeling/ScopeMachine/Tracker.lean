import ScopeMachine.Scopes

/-! # Scopes of unfinished code

While instructions are appended to a procedure, a `Tracker` keeps the open scopes that are known so
far: those on entry to each instruction, those that wait at the target of a forward jump, and those
that fall through to the next instruction. `Tracker.check` rejects an instruction that breaks the
discipline on a path already known; an instruction that no known path reaches is left to the check
of the whole procedure. -/

namespace ScopeMachine

/-- The open scopes known for a procedure under construction. -/
structure Tracker where
  /-- The open scopes on entry to each instruction, where known. -/
  entries : Array (Option Scopes)
  /-- The open scopes that jumps carry to positions not yet reached. -/
  pending : List (Nat × Scopes)
  /-- The open scopes that fall through to the next instruction, if it can be reached so. -/
  fallthrough : Option Scopes
deriving DecidableEq

namespace Tracker

/-- The tracker of a procedure without instructions. -/
def empty : Tracker := ⟨#[], [], some []⟩

/-- What one accepted instruction adds to a tracker. -/
structure Update where
  /-- The open scopes on entry to the instruction. -/
  entry : Option Scopes
  /-- The open scopes that it carries to a later position. -/
  forward : Option (Nat × Scopes)
  /-- The open scopes that it leaves to the next instruction. -/
  fallthrough : Option Scopes

/-- The position of the next instruction. -/
def size (tracker : Tracker) : Nat := tracker.entries.size

/-- The open scopes on entry to the next instruction; all paths must agree. -/
def nextEntry (tracker : Tracker) : Except ScopeViolation (Option Scopes) :=
  match tracker.fallthrough, tracker.pending.lookup tracker.size with
  | some falling, some waiting =>
      if falling = waiting then .ok (some falling) else .error (.mergeMismatch tracker.size)
  | some falling, none => .ok (some falling)
  | none, waiting => .ok waiting

/-- The open scopes known at the target of a jump at the next position. -/
def knownAt (tracker : Tracker) (entry : Scopes) (target : Nat) : Option Scopes :=
  if target = tracker.size then some entry
  else if target < tracker.size then tracker.entries[target]?.join
  else tracker.pending.lookup target

/-- What a jump at the next position adds; all paths into its target must agree. -/
def checkJump (tracker : Tracker) (entry after : Scopes) (target : Nat) :
    Except ScopeViolation (Option (Nat × Scopes)) :=
  match tracker.knownAt entry target with
  | some known => if known = after then .ok none else .error (.mergeMismatch target)
  | none => .ok (if tracker.size < target then some (target, after) else none)

/-- Check an instruction at the next position. The tracker itself does not change. -/
def check (tracker : Tracker) (context : ScopeContext) (instruction : Instruction) :
    Except ScopeViolation Update := do
  match ← tracker.nextEntry with
  | none => return ⟨none, none, none⟩
  | some entry =>
      let after ← entry.step context instruction
      let forward ← match instruction.jumpTarget? tracker.size with
        | none => pure none
        | some target => tracker.checkJump entry after target
      return ⟨some entry, forward, if instruction.isTerminator then none else some after⟩

/-- Record an accepted instruction. -/
def apply : Tracker → Update → Tracker
  | ⟨entries, pending, _⟩, update =>
      let position := entries.size
      ⟨entries.push update.entry,
        update.forward.toList ++ pending.filter fun waiting => waiting.1 != position,
        update.fallthrough⟩

end Tracker

end ScopeMachine
