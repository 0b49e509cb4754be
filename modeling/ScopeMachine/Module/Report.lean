import ScopeMachine.Json
import ScopeMachine.Module

/-! # Reports

A summary of a module: how many types, registers and procedures it has, and the main facts about
each procedure. A report can be written as text and as JSON. -/

namespace ScopeMachine

/-- The summary of one procedure. -/
structure ProcReport where
  /-- The position of the procedure. -/
  index : Nat
  /-- The type of the procedure. -/
  ptype : ProcTypeId
  /-- The text of the register for argument and result, or nothing if the type is not declared. -/
  io : String
  /-- Whether the procedure is an entry point. -/
  external : Bool
  /-- The number of instructions. -/
  instructions : Nat
  /-- The number of bytes of code. -/
  bytes : Nat
  /-- Whether calls of the procedure are reported. -/
  traced : Bool

/-- The summary of a module. -/
structure ModuleReport where
  /-- The identity of the module. -/
  id : ModuleId
  /-- The number of variable types. -/
  varTypes : Nat
  /-- The number of variable types without a fixed number of elements. -/
  dynamicTypes : Nat
  /-- The number of registers. -/
  registers : Nat
  /-- The number of persistent registers. -/
  persistentRegisters : Nat
  /-- The number of thread-local registers. -/
  threadLocalRegisters : Nat
  /-- The number of procedure types. -/
  procTypes : Nat
  /-- The summaries of the procedures. -/
  procs : List ProcReport

/-! ### Summarising -/

/-- The summary of a procedure. -/
def Module.reportProc (module : Module) (proc : ProcDef) (index : Nat) : ProcReport :=
  let type := module.ptype? proc.ptype
  { index
    ptype := proc.ptype
    io := (type.map fun type => type.io.text).getD ""
    external := type.any fun type => type.flags.contains ProcTypeFlags.external
    instructions := proc.instrCount.toNat
    bytes := proc.code.size
    traced := proc.flags.contains ProcFlags.trace }

/-- The summary of a module. -/
def Module.report (module : Module) : ModuleReport :=
  let countRegs (flag : RegFlags) :=
    (module.regs.toList.filter fun spec => spec.flags.contains flag).length
  { id := module.id
    varTypes := module.vtypes.size
    dynamicTypes := (module.vtypes.toList.filter VarType.isDynamic).length
    registers := module.regs.size
    persistentRegisters := countRegs RegFlags.persistent
    threadLocalRegisters := countRegs RegFlags.threadLocal
    procTypes := module.ptypes.size
    procs := module.procs.toList.zipIdx.map fun entry => module.reportProc entry.1 entry.2 }

/-! ### Writing -/

/-- The line of a procedure. -/
def ProcReport.text (report : ProcReport) : String :=
  "    F" ++ report.index.repr ++ " : " ++ report.ptype.text ++ " io=" ++ report.io
    ++ (if report.external then " external" else "") ++ (if report.traced then " traced" else "")
    ++ " (" ++ report.instructions.repr ++ " instructions, " ++ report.bytes.repr ++ " bytes)\n"

/-- The lines of a report. -/
def ModuleReport.text (report : ModuleReport) : String :=
  "Module: " ++ report.id.text ++ "\n\n"
    ++ "  Variable types: " ++ report.varTypes.repr ++ " (" ++ report.dynamicTypes.repr
    ++ " dynamic)\n"
    ++ "  Registers: " ++ report.registers.repr ++ " (" ++ report.persistentRegisters.repr
    ++ " persistent, " ++ report.threadLocalRegisters.repr ++ " thread-local)\n"
    ++ "  Procedure types: " ++ report.procTypes.repr ++ "\n"
    ++ "  Procedures: " ++ report.procs.length.repr ++ "\n"
    ++ String.join (report.procs.map ProcReport.text)

/-- The summary of a procedure as a record. -/
def ProcReport.toJson (report : ProcReport) : Json :=
  .obj
    [("id", .nat report.index), ("ptype", .nat report.ptype.index.toNat), ("io", .str report.io),
      ("external", .bool report.external), ("instructions", .nat report.instructions),
      ("bytes", .nat report.bytes), ("traced", .bool report.traced)]

/-- The summary of a module as a record. -/
def ModuleReport.toJson (report : ModuleReport) : Json :=
  .obj
    [("id", .str report.id.text), ("var_types", .nat report.varTypes),
      ("dynamic_types", .nat report.dynamicTypes), ("registers", .nat report.registers),
      ("persistent_registers", .nat report.persistentRegisters),
      ("thread_local_registers", .nat report.threadLocalRegisters),
      ("proc_types", .nat report.procTypes),
      ("procs", .arr (report.procs.map ProcReport.toJson))]

end ScopeMachine
