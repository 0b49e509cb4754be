import ScopeMachine.Flags
import ScopeMachine.Instruction.Codec
import ScopeMachine.ModuleId

/-! # Modules

A module is a table of variable types, a table of procedure types, a table of registers and a table
of procedures whose code is kept in its encoded form. The tables refer to each other by position.
Nothing here is checked: `Module` is the plain description that a builder produces and that can be
exported and read back. -/

namespace ScopeMachine

/-- The number of bytes of a word. -/
def wordBytes : Nat := 8

/-! ### Variable types -/

/-- A type of variables: a number of elements, each with a payload of bytes, owned reference slots
and native reference slots. -/
structure VarType where
  /-- The number of elements, or zero if each variable has its own. -/
  elementCount : UInt32
  /-- The number of payload bytes of one element. -/
  elementBytes : UInt32
  /-- The types of the variables that the owned slots of an element refer to. -/
  ownedRefs : Array VarTypeId
  /-- The types of the procedures that the native slots of an element refer to. -/
  nativeRefs : Array ProcTypeId
deriving DecidableEq

namespace VarType

/-- A type without reference slots. -/
def plain (elementCount elementBytes : UInt32) : VarType :=
  ⟨elementCount, elementBytes, #[], #[]⟩

/-- The type of one word. -/
def word : VarType := plain 1 (UInt32.ofNat wordBytes)

/-- Whether each variable of the type has its own number of elements. -/
def isDynamic (type : VarType) : Bool := type.elementCount == 0

/-- Whether an element is large enough for a word. -/
def holdsWord (type : VarType) : Bool := wordBytes ≤ type.elementBytes.toNat

/-- Whether elements of the two types have the same payload size and the same slots. -/
def sameShape (left right : VarType) : Bool :=
  left.elementBytes == right.elementBytes && left.ownedRefs == right.ownedRefs
    && left.nativeRefs == right.nativeRefs

end VarType

/-! ### Procedure types, registers and procedures -/

/-- A type of procedures: how they can be called, and the register for argument and result. -/
structure ProcType where
  /-- How procedures of the type can be called. -/
  flags : ProcTypeFlags
  /-- The register that carries the argument and the result. -/
  io : RegId
deriving DecidableEq

/-- A register: the variables it can hold and how they are allocated. -/
structure RegSpec where
  /-- The type of the variables. -/
  vtype : VarTypeId
  /-- The number of elements of an allocated variable. -/
  count : UInt32
  /-- How the register is allocated. -/
  flags : RegFlags
  /-- The payload of a persistent register when the module is compiled. -/
  init : Option (Array UInt8)
deriving DecidableEq

/-- A procedure with its encoded code. -/
structure ProcDef where
  /-- Flags of the procedure. -/
  flags : ProcFlags
  /-- The type of the procedure. -/
  ptype : ProcTypeId
  /-- The encoded instructions. -/
  code : Array UInt8
  /-- The number of instructions. -/
  instrCount : UInt32
deriving DecidableEq

/-- A procedure without instructions. -/
def ProcDef.empty (flags : ProcFlags) (ptype : ProcTypeId) : ProcDef :=
  ⟨flags, ptype, #[], 0⟩

/-! ### Modules -/

/-- The types, registers and procedures of a module. -/
structure Module where
  /-- The identity of the module. -/
  id : ModuleId
  /-- Variable types, by position. -/
  vtypes : Array VarType
  /-- Procedure types, by position. -/
  ptypes : Array ProcType
  /-- Registers, by position. -/
  regs : Array RegSpec
  /-- Procedures, by position. -/
  procs : Array ProcDef
deriving DecidableEq

namespace Module

/-- The variable type with a given identifier. -/
def vtype? (module : Module) (id : VarTypeId) : Option VarType :=
  module.vtypes[id.index.toNat]?

/-- The procedure type with a given identifier. -/
def ptype? (module : Module) (id : ProcTypeId) : Option ProcType :=
  module.ptypes[id.index.toNat]?

/-- The register with a given identifier. -/
def reg? (module : Module) (id : RegId) : Option RegSpec :=
  module.regs[id.index]?

/-- The procedure with a given identifier. -/
def proc? (module : Module) (id : ProcId) : Option ProcDef :=
  module.procs[id.index.toNat]?

/-- The type of the variables that a register holds. -/
def regType? (module : Module) (id : RegId) : Option VarType :=
  (module.reg? id).bind fun spec => module.vtype? spec.vtype

/-- The register for argument and result of a procedure. -/
def ioOf? (module : Module) (id : ProcId) : Option RegId :=
  (module.proc? id).bind fun proc => (module.ptype? proc.ptype).map ProcType.io

end Module

/-- The instructions of a procedure. -/
def ProcDef.instructions (proc : ProcDef) : Except CodecError (Array Instruction) :=
  Instruction.decodeAll proc.code.toList

end ScopeMachine
