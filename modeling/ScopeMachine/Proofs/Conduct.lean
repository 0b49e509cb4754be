import ScopeMachine.Proofs.Paths
import ScopeMachine.Proofs.Sequencing

/-! # The conduct of instructions

Most instructions work on variables and leave frames and scopes alone. The others open, close or
rebind frames, or pass control to another activation. What the scope rules say, and what the machine
does, depends on this conduct only.

* `Instruction.conduct` sorts the instructions, and `Conduct.Allows` states the scope rule of each
  sort; `Scopes.allows_of_step` reads it off a step of the scope rules;
* `Instruction.accesses` lists the registers whose top frame an instruction looks at;
  `Scopes.allocates_of_step` says that the scope rules allow for all of them;
* `Instruction.nulls?` is the register that an instruction may put a null frame into;
* `Reaches.not_static` says that no path opens a scope of a static register. -/

namespace ScopeMachine

/-! ### Sorts of instructions -/

/-- What an instruction does to frames, scopes and activations. -/
inductive Conduct where
  /-- It works on variables only. -/
  | works
  /-- It opens a scope of a register. -/
  | opens (reg : RegId)
  /-- It closes the most recent scope of a register. -/
  | closes (reg : RegId)
  /-- It closes the last scopes. -/
  | closesLast (count : Nat)
  /-- It binds the top frame of a register. -/
  | rebinds (reg : RegId)
  /-- It enters a procedure. -/
  | calls (proc : ProcId)
  /-- It raises a fault. -/
  | throws
  /-- It leaves the procedure. -/
  | returns
deriving DecidableEq

/-- The conduct of each instruction. -/
def Instruction.conduct : Instruction → Conduct
  | .als reg | .alsr reg | .push reg | .pushr reg | .pushh reg => .opens reg
  | .frs reg | .pop reg => .closes reg
  | .frsl count | .popl count => .closesLast count.toNat
  | .ldr dst _ _ => .rebinds dst
  | .call proc => .calls proc
  | .throw => .throws
  | .ret => .returns
  | _ => .works

/-- The register that an instruction may give a null frame, besides by copying one. -/
def Instruction.nulls? : Instruction → Option RegId
  | .alsr reg | .pushr reg | .ldr reg _ _ => some reg
  | _ => none

/-- How open scopes may change. -/
def Conduct.Allows (context : ScopeContext) (scopes after : Scopes) : Conduct → Prop
  | opens reg => context.isStatic reg = false ∧ after = reg :: scopes
  | closes reg => reg ∈ scopes ∧ after = scopes.erase reg
  | closesLast count => count ≤ scopes.length ∧ after = scopes.drop count
  | rebinds reg => reg ∈ scopes ∧ after = scopes
  | works | calls _ | throws | returns => after = scopes

/-! ### Registers that are looked at -/

/-- The registers in a row of operands. -/
def Operands.registers : (kinds : List OperandKind) → Operands kinds → List RegId
  | [], _ => []
  | .register :: kinds, (reg, values) => reg :: registers kinds values
  | .literal1 :: kinds, (_, values) | .literal2 :: kinds, (_, values)
  | .literal4 :: kinds, (_, values) | .literal8 :: kinds, (_, values)
  | .jumpOffset :: kinds, (_, values) | .scopeCount :: kinds, (_, values)
  | .byteOffset :: kinds, (_, values) | .referenceSlot :: kinds, (_, values)
  | .procedure :: kinds, (_, values) => registers kinds values

/-- The registers among the operands of an instruction. -/
def Instruction.registers (instruction : Instruction) : List RegId :=
  Operands.registers instruction.opcode.signature instruction.operands

/-- The registers whose top frame an instruction reads, writes, rebinds or closes: its operands,
except where it puts a new frame on top without a look at the old one, and the error register for
raising a fault. -/
def Instruction.accesses : Instruction → List RegId
  | .als _ | .alsr _ | .push _ | .pushr _ => []
  | .throw => [RegId.error]
  | instruction => instruction.registers

/-! ### The scope rules by conduct -/

namespace Scopes

variable {scopes after : Scopes} {context : ScopeContext} {instruction : Instruction}

/-- A register may be used while it is static, the argument, or in an open scope. -/
theorem allocates_iff {reg : RegId} :
    scopes.allocates context reg = true ↔
      context.isStatic reg = true ∨ reg = context.io ∨ reg ∈ scopes := by
  unfold allocates
  rw [Bool.or_eq_true, Bool.or_eq_true, beq_iff_eq, List.contains_iff_mem, or_assoc]

/-- The demand is met if every register may be used. -/
theorem require_eq_ok {regs : List RegId} :
    scopes.require context regs = .ok () ↔ ∀ reg ∈ regs, scopes.allocates context reg = true := by
  unfold require
  split
  next reg found =>
    have member := List.mem_of_find?_eq_some found
    have refused := List.find?_some found
    constructor
    · intro failed
      cases failed
    · intro all
      rw [all reg member] at refused
      cases refused
  next none =>
    -- no register of the row is refused
    rw [List.find?_eq_none] at none
    refine ⟨fun _ reg member => ?_, fun _ => rfl⟩
    have allowed := none reg member
    rwa [Bool.not_eq_true, Bool.not_eq_false'] at allowed

/-- The scope of a register that is opened is not that of a static one. -/
theorem enter_eq_ok {reg : RegId} :
    scopes.enter context reg = .ok after ↔
      context.isStatic reg = false ∧ after = reg :: scopes := by
  unfold enter
  cases context.isStatic reg <;> simp [eq_comm]

/-- A scope that is closed is open. -/
theorem close_eq_ok {reg : RegId} (closed : scopes.close context reg = .ok after) :
    reg ∈ scopes ∧ after = scopes.erase reg := by
  unfold close at closed
  split at closed
  · -- a static register has no scope to close
    cases closed
  · split at closed
    next opened =>
      cases closed
      exact ⟨List.contains_iff_mem.mp opened, rfl⟩
    next => cases closed

/-- No more scopes are closed than are open. -/
theorem closeLast_eq_ok {count : Nat} (closed : scopes.closeLast count = .ok after) :
    count ≤ scopes.length ∧ after = scopes.drop count := by
  unfold closeLast at closed
  split at closed
  · cases closed
  next enough =>
    cases closed
    exact ⟨Nat.le_of_not_lt enough, rfl⟩

/-- **The scope rules depend on the conduct.** The registers used in place must be allocated, and
the open scopes change as the conduct says. -/
theorem allows_of_step (stepped : scopes.step context instruction = .ok after) :
    (∀ reg ∈ usedBy context instruction, scopes.allocates context reg = true) ∧
      instruction.conduct.Allows context scopes after := by
  unfold step at stepped
  obtain ⟨_, required, changed⟩ := bind_eq_ok.mp stepped
  refine ⟨require_eq_ok.mp required, ?_⟩
  cases instruction with
  | als | alsr | push | pushr | pushh => exact enter_eq_ok.mp changed
  | frs | pop => exact close_eq_ok changed
  | frsl | popl => exact closeLast_eq_ok changed
  | ldr dst src slot =>
      dsimp only at changed
      split at changed
      next opened =>
        cases changed
        exact ⟨List.contains_iff_mem.mp opened, rfl⟩
      next =>
        -- rebinding needs an open scope; the two branches are its two complaints
        split at changed <;> cases changed
  | _ =>
      cases changed
      rfl

/-- The registers that an instruction looks at are allocated. -/
theorem allocates_of_step (stepped : scopes.step context instruction = .ok after) {reg : RegId}
    (accessed : reg ∈ instruction.accesses) : scopes.allocates context reg = true := by
  obtain ⟨required, allowed⟩ := allows_of_step stepped
  cases instruction with
  | als | alsr | push | pushr => cases accessed
  | throw =>
      -- the error register is static in every context
      rw [List.mem_singleton.mp accessed]
      rfl
  | ldr dst src slot =>
      -- the destination is not among the registers that are used in place: its scope must be open
      rcases List.mem_cons.mp accessed with rfl | isSource
      · exact allocates_iff.mpr (.inr (.inr allowed.1))
      · exact required reg isSource
  | frs | pop =>
      rw [List.mem_singleton.mp accessed]
      exact allocates_iff.mpr (.inr (.inr allowed.1))
  | pushh other =>
      -- it reads the old top frame; the rules ask for that frame unless the register is static, and
      -- opening a scope excludes this
      rw [List.mem_singleton.mp accessed]
      apply required
      rw [usedBy, if_neg (by rw [allowed.1]; decide)]
      exact List.mem_cons_self
  | frsl | popl | call | jmp | ret => cases accessed
  | _ => exact required reg accessed

end Scopes

/-- No path opens a scope of a static register. -/
theorem Reaches.not_static {context : ScopeContext} {code : Array Instruction} {position : Nat}
    {scopes : Scopes} (path : Reaches context code position scopes) :
    ∀ reg ∈ scopes, context.isStatic reg = false := by
  induction path with
  | start =>
      intro reg member
      cases member
  | @next position target scopes after instruction path found stepped leads ih =>
      have allowed := (Scopes.allows_of_step stepped).2
      -- only opening adds a register, and it demands that the register is not static
      cases conduct : instruction.conduct with
      | opens opened =>
          rw [conduct] at allowed
          obtain ⟨notStatic, rfl⟩ := allowed
          intro reg member
          rcases List.mem_cons.mp member with rfl | member
          · exact notStatic
          · exact ih reg member
      | closes closed =>
          rw [conduct] at allowed
          obtain ⟨-, rfl⟩ := allowed
          intro reg member
          exact ih reg (List.mem_of_mem_erase member)
      | closesLast count =>
          rw [conduct] at allowed
          obtain ⟨-, rfl⟩ := allowed
          intro reg member
          exact ih reg (List.mem_of_mem_drop member)
      | rebinds bound =>
          rw [conduct] at allowed
          obtain ⟨-, rfl⟩ := allowed
          exact ih
      | works | calls | throws | returns =>
          rw [conduct] at allowed
          obtain rfl := allowed
          exact ih

end ScopeMachine
