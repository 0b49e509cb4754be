import ScopeMachine.Error
import ScopeMachine.Variable

/-! # Register files

Each register of a running machine is a stack of frames, and the top frame is the variable that the
register names at the moment. A frame can be null: it has been opened but not bound to a variable.

All activations share one register file. Its operations are actions of `Registers`. -/

namespace ScopeMachine

/-- A frame of a register: the variable it names, or null. -/
abbrev Frame := Option VarId

/-- The frames of all registers. -/
structure RegisterFile where
  /-- For each register its frames, the top one first. -/
  byReg : Array (List Frame)
deriving DecidableEq

/-- Operations on a register file. -/
abbrev Registers := EStateM Error RegisterFile

namespace RegisterFile

/-- A register file of so many registers without frames. -/
def ofSize (size : Nat) : RegisterFile := ⟨Array.replicate size []⟩

/-- The frames of a register, which must exist. -/
def frames (file : RegisterFile) (reg : RegId) : Except Error (List Frame) :=
  orError (.missing (.register reg)) file.byReg[reg.index]?

/-- The number of frames of a register. -/
def depth (file : RegisterFile) (reg : RegId) : Nat :=
  (file.byReg[reg.index]?.getD []).length

/-- The top frame of a register; null if there is none. -/
def top (file : RegisterFile) (reg : RegId) : Except Error Frame := do
  return (← file.frames reg).head?.join

/-- The variable that a register names. -/
def get (file : RegisterFile) (reg : RegId) : Except Error VarId := do
  match (← file.frames reg).head?.join with
  | some var => return var
  | none => throw (.execution (.nullReference reg))

/-- Change the frames of a register. -/
@[inline] def modifyFrames (file : RegisterFile) (reg : RegId)
    (change : List Frame → List Frame) : RegisterFile :=
  ⟨file.byReg.modify reg.index change⟩

end RegisterFile

namespace Registers

/-- Look at the register file. -/
@[inline] def inspect {α : Type} (look : RegisterFile → Except Error α) : Registers α := do
  match look (← MonadState.get) with
  | .ok value => pure value
  | .error error => throw error

/-- Open a frame. -/
def push (reg : RegId) (frame : Frame) : Registers Unit := do
  let _ ← inspect fun file => file.frames reg
  modify fun file => file.modifyFrames reg (frame :: ·)

/-- Close the top frame; the frame. -/
def pop (reg : RegId) : Registers Frame := do
  match ← inspect fun file => file.frames reg with
  | [] => throw (.misuse (.noFrameToClose reg))
  | frame :: _ =>
      modify fun file => file.modifyFrames reg List.tail
      return frame

/-- Bind the top frame to another variable, or make it null; the frame as it was. -/
def rebind (reg : RegId) (frame : Frame) : Registers Frame := do
  match ← inspect fun file => file.frames reg with
  | [] => throw (.misuse (.noFrameToRebind reg))
  | old :: _ =>
      modify fun file => file.modifyFrames reg fun frames => frame :: frames.tail
      return old

end Registers

end ScopeMachine
