import ScopeMachine.Scopes

/-! # Call stacks

An activation is a procedure that has been entered and not left. The activations of a machine form
a stack, which also knows how many they are, so that the depth of a call need not be counted.

* `CallStack.push` and `CallStack.pop` enter and leave a procedure;
* `CallStack.top?` and `CallStack.modifyTop` reach the innermost activation. -/

namespace ScopeMachine

/-! ### Activations -/

/-- A procedure that has been entered and not left. -/
structure Activation where
  /-- The procedure. -/
  proc : ProcId
  /-- The position of the current instruction. -/
  pc : Nat
  /-- The scopes that this activation has open, the most recent first. -/
  scopes : Scopes
deriving DecidableEq

namespace Activation

/-- A procedure at its first instruction. -/
def start (proc : ProcId) : Activation := ⟨proc, 0, []⟩

/-- Record a scope. -/
def openScope (activation : Activation) (reg : RegId) : Activation :=
  { activation with scopes := reg :: activation.scopes }

/-- Forget the most recent scope of a register. -/
def closeScope (activation : Activation) (reg : RegId) : Activation :=
  { activation with scopes := activation.scopes.erase reg }

end Activation

/-! ### Stacks -/

/-- The activations of a machine. -/
structure CallStack where
  /-- The activations, the innermost first. -/
  activations : List Activation
  /-- The number of activations. -/
  depth : Nat
  /-- The number is right. -/
  depth_eq : depth = activations.length
deriving DecidableEq

namespace CallStack

/-- No activation. -/
def empty : CallStack := ⟨[], 0, rfl⟩

/-- Whether there is no activation. -/
def isEmpty (stack : CallStack) : Bool := stack.activations.isEmpty

/-- The innermost activation. -/
def top? (stack : CallStack) : Option Activation := stack.activations.head?

/-- One more activation, the innermost. -/
def push (stack : CallStack) (activation : Activation) : CallStack :=
  ⟨activation :: stack.activations, stack.depth + 1, by simp [stack.depth_eq]⟩

/-- The stack without the innermost activation. -/
def pop (stack : CallStack) : CallStack :=
  ⟨stack.activations.tail, stack.depth - 1, by simp [stack.depth_eq]⟩

/-- Change the innermost activation. -/
@[inline] def modifyTop (stack : CallStack) (change : Activation → Activation) : CallStack :=
  ⟨stack.activations.modifyHead change, stack.depth, by simp [stack.depth_eq]⟩

/-- Stacks with the same activations are the same. -/
theorem ext_activations {left right : CallStack}
    (equal : left.activations = right.activations) : left = right := by
  obtain ⟨_, _, rfl⟩ := left
  obtain ⟨_, _, rfl⟩ := right
  cases equal
  rfl

/-- An activation that is pushed is the innermost. -/
@[simp] theorem top?_push (stack : CallStack) (activation : Activation) :
    (stack.push activation).top? = some activation := rfl

/-- Leaving undoes entering. -/
@[simp] theorem pop_push (stack : CallStack) (activation : Activation) :
    (stack.push activation).pop = stack := ext_activations rfl

/-- There is an innermost activation exactly if there is any. -/
theorem top?_eq_none_iff {stack : CallStack} : stack.top? = none ↔ stack = empty := by
  constructor
  · intro none
    exact ext_activations (List.head?_eq_none_iff.1 none)
  · rintro rfl
    rfl

end CallStack

end ScopeMachine
