import ScopeMachine.Store

/-! # Programs

A program is the executable form of a module: every procedure decoded, the layout of every register
resolved, and the storage of every persistent register allocated. Compiling allocates in the store,
so `Program.compile` is an action on it. -/

namespace ScopeMachine

/-- A register of a program. -/
structure RegSlot where
  /-- The layout of the register's variables. -/
  layout : Layout
  /-- The number of elements of an allocated variable. -/
  count : Nat
  /-- How the register is allocated. -/
  flags : RegFlags
  /-- The storage of a persistent register, shared by all executions. -/
  persistent : Option VarId
deriving DecidableEq

/-- A fresh variable of a register. -/
def RegSlot.fresh (slot : RegSlot) : Variable := Variable.zeroed slot.layout slot.count

/-- A procedure of a program. -/
structure ProcCode where
  /-- Flags of the procedure. -/
  flags : ProcFlags
  /-- Whether the procedure is an entry point. -/
  external : Bool
  /-- The register for argument and result. -/
  io : RegId
  /-- The instructions. -/
  code : Array Instruction
deriving DecidableEq

/-- The executable form of a module. -/
structure Program where
  /-- The module that was compiled. -/
  module : ModuleId
  /-- The largest number of nested calls. -/
  maxCallDepth : Nat
  /-- Registers, by position. -/
  regs : Array RegSlot
  /-- Procedures, by position. -/
  procs : Array ProcCode
deriving DecidableEq

/-- The number of nested calls that is allowed unless something else is asked for. -/
def defaultCallDepth : Nat := 10000

namespace Program

/-! ### Compiling -/

/-- Actions that allocate variables. -/
abbrev Allocating := EStateM Error Store

/-- Put a variable into the store. -/
def allocate (var : Variable) : Allocating VarId :=
  modifyGet fun store => (store.next, store.insert var)

/-- Resolve a register, and allocate its storage if it is persistent. The storage starts as the
initial payload, and zero beyond it. -/
def compileReg (module : Module) (spec : RegSpec) : Allocating RegSlot := do
  match module.vtype? spec.vtype with
  | none => throw (.missing (.vtype spec.vtype))
  | some type =>
      let slot : RegSlot := ⟨⟨spec.vtype, type⟩, spec.count.toNat, spec.flags, none⟩
      if spec.flags.contains RegFlags.persistent then
        let storage ← allocate (slot.fresh.copyPayload (spec.init.getD #[]))
        return { slot with persistent := some storage }
      return slot

/-- Resolve and decode a procedure. -/
def compileProc (module : Module) (proc : ProcDef) : Except Error ProcCode := do
  let type ← orError (.missing (.ptype proc.ptype)) (module.ptype? proc.ptype)
  let code ← liftCodec proc.instructions
  return ⟨proc.flags, type.flags.contains ProcTypeFlags.external, type.io, code⟩

/-- Compile a module for executions of at most `maxCallDepth` nested calls. -/
def compile (module : Module) (maxCallDepth : Nat) : Allocating Program := do
  let regs ← module.regs.toList.mapM (compileReg module)
  match module.procs.toList.mapM (compileProc module) with
  | .error error => throw error
  | .ok procs => return ⟨module.id, maxCallDepth, regs.toArray, procs.toArray⟩

/-! ### Looking up -/

/-- The storage of all persistent registers. -/
def persistents (program : Program) : List VarId :=
  program.regs.toList.filterMap RegSlot.persistent

/-- The procedure with a given identifier. -/
def proc (program : Program) (id : ProcId) : Except Error ProcCode :=
  orError (.missing (.procedure id)) program.procs[id.index.toNat]?

/-- The register with a given identifier. -/
def reg (program : Program) (id : RegId) : Except Error RegSlot :=
  orError (.missing (.register id)) program.regs[id.index]?

/-- The entry point with a given identifier. -/
def entryPoint? (program : Program) (id : ProcId) : Option ProcCode :=
  program.procs[id.index.toNat]?.filter ProcCode.external

/-- Demand that a variable can be the argument of a procedure: its elements must have the shape
that the procedure's register declares, and their number too if it is fixed. -/
def checkIo (program : Program) (proc : ProcCode) (var : Variable) : Except Error Unit := do
  let slot ← program.reg proc.io
  let countFits := slot.layout.fixedCount?.all (· == var.count)
  if !(var.layout.sameShape slot.layout && countFits) then
    throw (.argument (.ioMismatch var.layout.vtype proc.io slot.layout.vtype))

end Program

end ScopeMachine
