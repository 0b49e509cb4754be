import ScopeMachine.Flags.Text
import ScopeMachine.Json.Reader
import ScopeMachine.Json.Writer
import ScopeMachine.Module

/-! # Modules as JSON

The exchange form of a module: a record for each table entry, flags as text, bytes as arrays of
numbers. Writing leaves out the initial payload of a register that has none. Reading passes over
fields that it does not know, and demands every field that it knows except that one. -/

namespace ScopeMachine

/-! ### Parts -/

/-- A 32-bit number. -/
def Json.uint32? (json : Json) : Option UInt32 :=
  (json.natBelow? UInt32.size).map UInt32.ofNat

/-- A byte. -/
def Json.byte? (json : Json) : Option UInt8 :=
  (json.natBelow? UInt8.size).map UInt8.ofNat

/-- An array whose items are all of one form. -/
def Json.array? {α : Type} (item? : Json → Option α) (json : Json) : Option (Array α) :=
  json.arr?.bind fun items => (items.mapM item?).map List.toArray

/-- Bytes as an array of numbers. -/
def Json.ofBytes (bytes : Array UInt8) : Json :=
  .arr (bytes.toList.map fun byte => .nat byte.toNat)

/-- A 32-bit number as JSON. -/
def Json.ofUInt32 (value : UInt32) : Json := .nat value.toNat

namespace RegId

/-- A register by its index. -/
def toJson (reg : RegId) : Json := .nat reg.index

/-- The register that a number names. -/
def ofJson? (json : Json) : Option RegId :=
  (json.natBelow? UInt32.size).bind ofIndex?

end RegId

namespace Flags

variable {kind : FlagKind}

/-- Flags by their text. -/
def toJson (flags : Flags kind) : Json := .str flags.text

/-- The flags that a text names. -/
def ofJson? (json : Json) : Option (Flags kind) := json.str?.bind (parse? kind)

end Flags

namespace ModuleId

/-- An identity by its text. -/
def toJson (id : ModuleId) : Json := .str id.text

/-- The identity that a text names. -/
def ofJson? (json : Json) : Option ModuleId := json.str?.bind parse?

end ModuleId

/-! ### Table entries -/

namespace VarType

/-- A variable type as a record. -/
def toJson (type : VarType) : Json :=
  .obj
    [("element_count", .ofUInt32 type.elementCount),
      ("element_bytes", .ofUInt32 type.elementBytes),
      ("owned_refs", .arr (type.ownedRefs.toList.map fun id => .ofUInt32 id.index)),
      ("native_refs", .arr (type.nativeRefs.toList.map fun id => .ofUInt32 id.index))]

/-- The variable type that a record describes. -/
def ofJson? (json : Json) : Option VarType := do
  match ← json.record? ["element_count", "element_bytes", "owned_refs", "native_refs"] with
  | [some count, some bytes, some owned, some native] =>
      return ⟨← count.uint32?, ← bytes.uint32?,
        ← owned.array? fun id => id.uint32?.map VarTypeId.mk,
        ← native.array? fun id => id.uint32?.map ProcTypeId.mk⟩
  | _ => none

end VarType

namespace ProcType

/-- A procedure type as a record. -/
def toJson (type : ProcType) : Json :=
  .obj [("flags", type.flags.toJson), ("io", type.io.toJson)]

/-- The procedure type that a record describes. -/
def ofJson? (json : Json) : Option ProcType := do
  match ← json.record? ["flags", "io"] with
  | [some flags, some io] => return ⟨← Flags.ofJson? flags, ← RegId.ofJson? io⟩
  | _ => none

end ProcType

namespace RegSpec

/-- A register as a record. -/
def toJson (spec : RegSpec) : Json :=
  .obj
    ([("vtype", .ofUInt32 spec.vtype.index), ("count", .ofUInt32 spec.count),
      ("flags", spec.flags.toJson)]
      ++ (spec.init.map fun init => ("init", Json.ofBytes init)).toList)

/-- The initial payload that a field describes; an absent field and null describe none. -/
def initOfJson? : Option Json → Option (Option (Array UInt8))
  | none | some .null => some none
  | some json => (json.array? Json.byte?).map some

/-- The register that a record describes. -/
def ofJson? (json : Json) : Option RegSpec := do
  match ← json.record? ["vtype", "count", "flags", "init"] with
  | [some vtype, some count, some flags, init] =>
      return ⟨⟨← vtype.uint32?⟩, ← count.uint32?, ← Flags.ofJson? flags, ← initOfJson? init⟩
  | _ => none

end RegSpec

namespace ProcDef

/-- A procedure as a record. -/
def toJson (proc : ProcDef) : Json :=
  .obj
    [("flags", proc.flags.toJson), ("ptype", .ofUInt32 proc.ptype.index),
      ("code", Json.ofBytes proc.code), ("instr_count", .ofUInt32 proc.instrCount)]

/-- The procedure that a record describes. -/
def ofJson? (json : Json) : Option ProcDef := do
  match ← json.record? ["flags", "ptype", "code", "instr_count"] with
  | [some flags, some ptype, some code, some count] =>
      return ⟨← Flags.ofJson? flags, ⟨← ptype.uint32?⟩, ← code.array? Json.byte?, ← count.uint32?⟩
  | _ => none

end ProcDef

/-! ### Modules -/

namespace Module

/-- A module as a record. -/
def toJson (module : Module) : Json :=
  .obj
    [("id", module.id.toJson),
      ("vtypes", .arr (module.vtypes.toList.map VarType.toJson)),
      ("ptypes", .arr (module.ptypes.toList.map ProcType.toJson)),
      ("regs", .arr (module.regs.toList.map RegSpec.toJson)),
      ("procs", .arr (module.procs.toList.map ProcDef.toJson))]

/-- The module that a record describes. -/
def ofJson? (json : Json) : Option Module := do
  match ← json.record? ["id", "vtypes", "ptypes", "regs", "procs"] with
  | [some id, some vtypes, some ptypes, some regs, some procs] =>
      return ⟨← ModuleId.ofJson? id, ← vtypes.array? VarType.ofJson?,
        ← ptypes.array? ProcType.ofJson?, ← regs.array? RegSpec.ofJson?,
        ← procs.array? ProcDef.ofJson?⟩
  | _ => none

/-- The module that a text describes. -/
def parse? (text : String) : Option Module := (Json.parse? text).bind ofJson?

end Module

end ScopeMachine
