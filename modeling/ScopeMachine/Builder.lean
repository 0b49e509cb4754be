import ScopeMachine.OperandCheck
import ScopeMachine.Tracker
import ScopeMachine.Verifier

/-! # Building modules

A module is built one declaration at a time. Each operation first checks its arguments against what
has been declared, and only then changes the builder, so a rejected operation leaves no trace.
Instructions are checked when they are appended, as far as the paths known at that moment allow;
`Builder.finish` verifies every procedure as a whole.

Operations are actions of `Build`, whose result tells the builder's state also after an error. -/

namespace ScopeMachine

/-- A module under construction, with one scope tracker for each procedure. -/
structure Builder where
  /-- The declarations so far. -/
  module : Module
  /-- The scopes known for each procedure. -/
  trackers : Array Tracker
deriving DecidableEq

/-- Operations on a builder. -/
abbrev Build := EStateM Error Builder

/-! ### Fresh builders -/

/-- The register for fault codes, the first register of every module. -/
def RegSpec.error : RegSpec := ⟨VarTypeId.word, 1, Flags.empty, none⟩

/-- A module that declares the word type and the error register only. -/
def Module.initial : Module := ⟨ModuleId.nil, #[VarType.word], #[], #[RegSpec.error], #[]⟩

namespace Builder

/-- A builder before the first declaration. -/
def initial : Builder := ⟨Module.initial, #[]⟩

/-- The largest number of reference slots of one element. -/
def maxReferenceSlots : Nat := 65535

/-- Change the module under construction. -/
@[inline] def updateModule (change : Module → Module) : Build Unit :=
  modify fun builder => { builder with module := change builder.module }

/-- Demand that a check of the declarations passes. -/
@[inline] def demand {α : Type} (check : Module → Except Error α) : Build α := do
  match check (← get).module with
  | .ok value => pure value
  | .error error => throw error

end Builder

/-! ### Checks of the declarations -/

namespace Module

/-- The variable type with a given identifier, which must be declared. -/
def requireVtype (module : Module) (id : VarTypeId) : Except Error VarType :=
  orError (.missing (.vtype id)) (module.vtype? id)

/-- The procedure type with a given identifier, which must be declared. -/
def requirePtype (module : Module) (id : ProcTypeId) : Except Error ProcType :=
  orError (.missing (.ptype id)) (module.ptype? id)

/-- Demand that a variable type may have one more reference slot. Shapes are frozen once the first
instruction has been checked against them. -/
def checkNewSlot (module : Module) (id : VarTypeId) : Except Error Unit := do
  if id = VarTypeId.word then throw (.argument .wordTypeReferences)
  let type ← module.requireVtype id
  if module.procs.any fun proc => 0 < proc.instrCount then throw (.misuse (.shapeFrozen id))
  let slots := type.ownedRefs.size + type.nativeRefs.size + 1
  if Builder.maxReferenceSlots < slots ∨ UInt32.size ≤ max type.elementCount.toNat 1 * slots then
    throw (.range (.referenceSlots slots id))

/-- The declaration of a register, if its arguments fit. For a type of fixed size, the count must be
that of the type, or zero to ask for it. -/
def checkReg (module : Module) (vtype : VarTypeId) (count : UInt32) (flags : RegFlags) :
    Except Error RegSpec := do
  if !flags.isKnown then throw (.argument (.registerFlags flags.bits))
  if flags.contains (RegFlags.persistent.union RegFlags.threadLocal) then
    throw (.argument .persistentThreadLocal)
  let type ← module.requireVtype vtype
  if !type.isDynamic && count != 0 && count != type.elementCount then
    throw (.argument (.registerCount vtype type.elementCount.toNat count.toNat))
  let count := if type.isDynamic then count else type.elementCount
  if UInt32.size ≤ count.toNat * type.elementBytes.toNat then
    throw (.range (.registerSize count.toNat vtype))
  return ⟨vtype, count, flags, none⟩

/-- The declaration of a persistent register with an initial payload, if its arguments fit. -/
def checkConstReg (module : Module) (vtype : VarTypeId) (init : Array UInt8) :
    Except Error RegSpec := do
  let spec ← module.checkReg vtype 0 RegFlags.persistent
  let type ← module.requireVtype vtype
  if type.isDynamic then throw (.argument (.constantDynamic vtype))
  let size := type.elementCount.toNat * type.elementBytes.toNat
  if init.size ≠ size then throw (.argument (.constantSize init.size vtype size))
  return { spec with init := some init }

/-- Demand that a procedure type may have these flags and this register. -/
def checkProcType (module : Module) (flags : ProcTypeFlags) (io : RegId) : Except Error Unit := do
  if !flags.isKnown || flags.isEmpty then throw (.argument (.procTypeFlags flags.bits))
  if io.isReserved then throw (.argument (.reservedIo io))
  let spec ← orError (.missing (.register io)) (module.reg? io)
  if RegFlags.isStatic spec.flags then throw (.argument (.staticIo io))

/-- Demand that a procedure may have these flags and this type. -/
def checkProc (module : Module) (flags : ProcFlags) (ptype : ProcTypeId) : Except Error Unit := do
  if !flags.isKnown then throw (.argument (.procFlags flags.bits))
  let _ ← module.requirePtype ptype

end Module

namespace Builder

/-! ### Declarations -/

/-- Declare a variable type of `count` elements, zero for any number, of `bytes` bytes each. -/
def addVarType (count bytes : UInt32) : Build VarTypeId := do
  if UInt32.size ≤ count.toNat * bytes.toNat then
    throw (.range (.typeSize count.toNat bytes.toNat))
  let id := ⟨UInt32.ofNat (← get).module.vtypes.size⟩
  updateModule fun module =>
    { module with vtypes := module.vtypes.push (VarType.plain count bytes) }
  return id

/-- Add an owned slot for variables of type `target` to every element of `vtype`; the number of the
slot. -/
def addOwnedSlot (vtype target : VarTypeId) : Build UInt32 := do
  let _ ← demand fun module => module.requireVtype target
  demand fun module => module.checkNewSlot vtype
  let slot ← demand fun module => (module.requireVtype vtype).map fun type => type.ownedRefs.size
  updateModule fun module =>
    { module with
      vtypes := module.vtypes.modify vtype.index.toNat fun type =>
        { type with ownedRefs := type.ownedRefs.push target } }
  return UInt32.ofNat slot

/-- Add a native slot for procedures of type `ptype` to every element of `vtype`; the number of the
slot. -/
def addNativeSlot (vtype : VarTypeId) (ptype : ProcTypeId) : Build UInt32 := do
  let _ ← demand fun module => module.requirePtype ptype
  demand fun module => module.checkNewSlot vtype
  let slot ← demand fun module => (module.requireVtype vtype).map fun type => type.nativeRefs.size
  updateModule fun module =>
    { module with
      vtypes := module.vtypes.modify vtype.index.toNat fun type =>
        { type with nativeRefs := type.nativeRefs.push ptype } }
  return UInt32.ofNat slot

/-- Append a checked register declaration, if there is an identifier left. -/
def pushReg (spec : RegSpec) : Build RegId := do
  let id ← demand fun module => liftCodec (RegId.ofIndex module.regs.size)
  updateModule fun module => { module with regs := module.regs.push spec }
  return id

/-- Declare a register for variables of `count` elements of type `vtype`. -/
def addReg (vtype : VarTypeId) (count : UInt32) (flags : RegFlags) : Build RegId := do
  let spec ← demand fun module => module.checkReg vtype count flags
  pushReg spec

/-- Declare a persistent register whose payload starts as `init`. -/
def addConstReg (vtype : VarTypeId) (init : Array UInt8) : Build RegId := do
  let spec ← demand fun module => module.checkConstReg vtype init
  pushReg spec

/-- Declare a procedure type whose argument and result travel in `io`. -/
def addProcType (flags : ProcTypeFlags) (io : RegId) : Build ProcTypeId := do
  demand fun module => module.checkProcType flags io
  let id := ⟨UInt32.ofNat (← get).module.ptypes.size⟩
  updateModule fun module => { module with ptypes := module.ptypes.push ⟨flags, io⟩ }
  return id

/-- Declare a procedure without instructions. -/
def addProc (flags : ProcFlags) (ptype : ProcTypeId) : Build ProcId := do
  demand fun module => module.checkProc flags ptype
  let id := ⟨UInt32.ofNat (← get).module.procs.size⟩
  modify fun ⟨module, trackers⟩ =>
    ⟨{ module with procs := module.procs.push (ProcDef.empty flags ptype) },
      trackers.push Tracker.empty⟩
  return id

/-! ### Instructions -/

/-- What appending an instruction adds to the tracker of its procedure, if it may be appended. -/
def checkInstruction (builder : Builder) (proc : ProcId) (instruction : Instruction) :
    Except Error Tracker.Update := do
  let context ← orError (.missing (.procedure proc)) (ScopeContext.of? builder.module proc)
  let tracker ← orError (.missing (.procedure proc)) builder.trackers[proc.index.toNat]?
  let position := tracker.size
  if instruction.isJump && (instruction.jumpTarget? position).isNone then
    throw (.range (.jumpBeforeStart position proc))
  if UInt32.size ≤ position + 1 then throw (.range (.instructionCount proc))
  builder.module.checkOperands instruction
  match tracker.check context instruction with
  | .ok update => return update
  | .error violation => throw (.scope proc position violation)

end Builder

/-- The procedure with one more instruction. -/
def ProcDef.append (proc : ProcDef) (instruction : Instruction) : ProcDef :=
  { proc with
    code := proc.code ++ instruction.encode
    instrCount := proc.instrCount + 1 }

namespace Builder

/-- Append an instruction to a procedure; the number of its instructions. -/
def addInstruction (proc : ProcId) (instruction : Instruction) : Build Nat := do
  match (← get).checkInstruction proc instruction with
  | .error error => throw error
  | .ok update =>
      modify fun ⟨module, trackers⟩ =>
        ⟨{ module with procs := module.procs.modify proc.index.toNat (·.append instruction) },
          trackers.modify proc.index.toNat (·.apply update)⟩
      return ((← get).module.proc? proc).elim 0 fun declared => declared.instrCount.toNat

/-! ### Finishing -/

/-- Verify every procedure and give out the module under the identity `id`. The builder starts anew;
if verification fails it keeps the module. -/
def finish (id : ModuleId) : Build Module := do
  demand verifyModule
  let module := (← get).module
  set initial
  return { module with id }

/-! ### Replaying a description -/

/-- Declare a register as a description has it. Only registers that are persistent and nothing else
have an initial payload. -/
def replayReg (spec : RegSpec) : Build RegId :=
  match spec.init with
  | some init =>
      if spec.flags = RegFlags.persistent then addConstReg spec.vtype init
      else throw (.argument .initialValue)
  | none => addReg spec.vtype spec.count spec.flags

/-- Add the slots of a variable type, as a description has them. -/
def replaySlots (id : VarTypeId) (type : VarType) : Build Unit := do
  type.ownedRefs.toList.forM fun target => discard (addOwnedSlot id target)
  type.nativeRefs.toList.forM fun ptype => discard (addNativeSlot id ptype)

/-- Append the instructions of a procedure, as a description has them. -/
def replayCode (id : ProcId) (proc : ProcDef) : Build Unit := do
  match liftCodec proc.instructions with
  | .error error => throw error
  | .ok code => code.toList.forM fun instruction => discard (addInstruction id instruction)

/-- Repeat every declaration and every instruction of a description, each checked again. -/
def replay (module : Module) : Build Unit := do
  if module.vtypes[0]? ≠ some VarType.word then throw (.argument .firstType)
  if module.regs[0]? ≠ some RegSpec.error then throw (.argument .firstRegister)
  (module.vtypes.toList.drop 1).forM fun type =>
    discard (addVarType type.elementCount type.elementBytes)
  (module.regs.toList.drop 1).forM fun spec => discard (replayReg spec)
  module.ptypes.toList.forM fun ptype => discard (addProcType ptype.flags ptype.io)
  (module.vtypes.toList.zipIdx.drop 1).forM fun entry =>
    replaySlots ⟨UInt32.ofNat entry.2⟩ entry.1
  module.procs.toList.forM fun proc => discard (addProc proc.flags proc.ptype)
  module.procs.toList.zipIdx.forM fun entry => replayCode ⟨UInt32.ofNat entry.2⟩ entry.1

/-- The builder that results from replaying a description. -/
def ofModule (module : Module) : Except Error Builder :=
  match replay module initial with
  | .ok _ builder => .ok builder
  | .error error _ => .error error

end Builder

end ScopeMachine
