import ScopeMachine.Error
import ScopeMachine.Module

/-! # Open scopes

The allocation state of a procedure is the list of the scopes it has opened and not yet closed. A
register may be used while it is static, while it is the register for the procedure's argument, or
while the list has a scope of it. `Scopes.step` says how one instruction changes the list and which
instructions break the discipline. -/

namespace ScopeMachine

/-! ### Context of a procedure -/

/-- What the scope rules need to know about a procedure: its module and its argument register. -/
structure ScopeContext where
  /-- The module that declares the registers. -/
  module : Module
  /-- The register for argument and result. -/
  io : RegId

namespace ScopeContext

/-- The context of a procedure whose type is declared. -/
def of? (module : Module) (proc : ProcId) : Option ScopeContext :=
  (module.ioOf? proc).map fun io => ⟨module, io⟩

/-- Whether a register is allocated during the whole execution. -/
def isStatic (context : ScopeContext) (reg : RegId) : Bool :=
  reg.isReserved || (context.module.reg? reg).any fun spec => RegFlags.isStatic spec.flags

end ScopeContext

/-! ### Scope lists -/

/-- The scopes that a procedure has open, the most recent first. -/
abbrev Scopes := List RegId

namespace Scopes

/-- Whether a register may be used. -/
def allocates (scopes : Scopes) (context : ScopeContext) (reg : RegId) : Bool :=
  context.isStatic reg || reg == context.io || scopes.contains reg

/-- Demand that every register may be used; the first that may not is reported. -/
def require (scopes : Scopes) (context : ScopeContext) (regs : List RegId) :
    Except ScopeViolation Unit :=
  match regs.find? fun reg => !scopes.allocates context reg with
  | some reg => .error (.notAllocated reg)
  | none => .ok ()

/-- Open a scope of a register. -/
def enter (scopes : Scopes) (context : ScopeContext) (reg : RegId) :
    Except ScopeViolation Scopes :=
  if context.isStatic reg then .error (.staticRegister reg) else .ok (reg :: scopes)

/-- Close the most recent scope of a register. -/
def close (scopes : Scopes) (context : ScopeContext) (reg : RegId) :
    Except ScopeViolation Scopes :=
  if context.isStatic reg then .error (.staticRegister reg)
  else if scopes.contains reg then .ok (scopes.erase reg)
  else .error (.nothingToFree reg)

/-- Close the last `count` scopes. -/
def closeLast (scopes : Scopes) (count : Nat) : Except ScopeViolation Scopes :=
  if scopes.length < count then .error (.tooManyFrees count scopes.length)
  else .ok (scopes.drop count)

/-- The registers that an instruction uses in place, in the order in which they are checked. -/
def usedBy (context : ScopeContext) : Instruction → List RegId
  | .inc reg | .dec reg => [reg]
  | .cpi1 dst _ | .cpi2 dst _ | .cpi4 dst _ | .cpi8 dst _ => [dst]
  | .add dst left right | .sub dst left right | .mul dst left right => [dst, left, right]
  | .jz reg _ | .jnz reg _ | .jgz reg _ | .jngz reg _ => [reg]
  | .jg left right _ | .jng left right _ | .je left right _ => [left, right]
  | .cpb dst src => [dst, src]
  | .lde dst src position => [dst, src, position]
  | .ste dst position src => [dst, position, src]
  | .ldb dst src _ | .stb dst _ src | .str dst _ src => [dst, src]
  | .ldr _ src _ => [src]
  | .call proc => (context.module.ioOf? proc).toList
  | .pushh reg => if context.isStatic reg then [] else [reg]
  | .jmp _ | .als _ | .alsr _ | .frs _ | .frsl _ | .push _ | .pushr _ | .pop _ | .popl _ | .throw
  | .ret => []

/-- How one instruction changes the open scopes. -/
def step (scopes : Scopes) (context : ScopeContext) (instruction : Instruction) :
    Except ScopeViolation Scopes := do
  scopes.require context (usedBy context instruction)
  match instruction with
  | .als reg | .alsr reg | .push reg | .pushr reg | .pushh reg => scopes.enter context reg
  | .frs reg | .pop reg => scopes.close context reg
  | .frsl count | .popl count => scopes.closeLast count.toNat
  | .ldr dst _ _ =>
      if scopes.contains dst then .ok scopes
      else if scopes.allocates context dst then .error (.foreignFrame dst)
      else .error (.notAllocated dst)
  | _ => .ok scopes

end Scopes

end ScopeMachine
