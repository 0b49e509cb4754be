import ScopeMachine.Flags.Text
import ScopeMachine.Instruction.Text
import ScopeMachine.Module

/-! # Listings

The text listing of a module: its types, registers and procedure types, and the instructions of
each procedure. Jumps show the position that they lead to. -/

namespace ScopeMachine

/-! ### Tables -/

/-- A row of names between brackets, behind a label; nothing if there are none. -/
def listedRefs (label : String) (names : List String) : String :=
  if names.isEmpty then ""
  else "  " ++ label ++ " [" ++ String.intercalate ", " names ++ "]"

/-- The line of a variable type. -/
def VarType.listing (type : VarType) (index : Nat) : String :=
  "  T" ++ padRight 4 index.repr ++ " "
    ++ (if type.isDynamic then "*" else type.elementCount.toNat.repr)
    ++ " x " ++ type.elementBytes.toNat.repr ++ " bytes"
    ++ listedRefs "vref" (type.ownedRefs.toList.map VarTypeId.text)
    ++ listedRefs "pref" (type.nativeRefs.toList.map ProcTypeId.text) ++ "\n"

/-- The initial payload of a register, as pairs of hexadecimal digits. -/
def listedInit : Option (Array UInt8) → String
  | none => ""
  | some init =>
      "  init=[" ++ String.intercalate ", " (init.toList.map Text.hexByte) ++ "]"

/-- The line of a register. The first one is marked as the error register. -/
def RegSpec.listing (spec : RegSpec) (index : Nat) : String :=
  "  R" ++ padRight 4 index.repr ++ " " ++ spec.vtype.text ++ " count=" ++ spec.count.toNat.repr
    ++ " " ++ spec.flags.listed ++ listedInit spec.init
    ++ (if index = 0 then "  ; error" else "") ++ "\n"

/-- The line of a procedure type. -/
def ProcType.listing (type : ProcType) (index : Nat) : String :=
  "  P" ++ padRight 4 index.repr ++ " io=" ++ type.io.text ++ " " ++ type.flags.listed ++ "\n"

/-! ### Procedures -/

/-- The line of an instruction at a position. -/
def Instruction.listing (instruction : Instruction) (position : Nat) : String :=
  padNumber 4 position ++ "  " ++ instruction.text
    ++ (match instruction.jumpTarget? position with
      | some target => "  ; -> " ++ padNumber 4 target
      | none => "")
    ++ "\n"

/-- The lines of each entry of a table. -/
def listedTable {α : Type} (line : α → Nat → String) (table : Array α) : String :=
  String.join (table.toList.zipIdx.map fun entry => line entry.1 entry.2)

/-- The lines of a procedure. Code that cannot be read is reported in place. -/
def ProcDef.listing (proc : ProcDef) (index : Nat) : String :=
  "\n--- F" ++ index.repr ++ " : " ++ proc.ptype.text ++ " " ++ proc.flags.listed ++ " ("
    ++ proc.instrCount.toNat.repr ++ " instructions, " ++ proc.code.size.repr ++ " bytes) ---\n"
    ++ (match proc.instructions with
      | .ok code => listedTable Instruction.listing code
      | .error error => "  <undecodable: " ++ error.message ++ ">\n")

/-! ### Modules -/

/-- The listing of a module. -/
def Module.listing (module : Module) : String :=
  "========== Module: " ++ module.id.text ++ " ==========\n"
    ++ "\nTypes:\n" ++ listedTable VarType.listing module.vtypes
    ++ "\nRegisters:\n" ++ listedTable RegSpec.listing module.regs
    ++ "\nProcedure types:\n" ++ listedTable ProcType.listing module.ptypes
    ++ listedTable ProcDef.listing module.procs
    ++ "========================================\n"

end ScopeMachine
