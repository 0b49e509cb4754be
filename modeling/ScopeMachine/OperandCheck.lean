import ScopeMachine.Error
import ScopeMachine.Module

/-! # Operand checks

Every register that an instruction names must be declared, and its type must fit the way in which
the instruction reads or writes it. `Module.checkOperands` checks one instruction against the
declarations of a module. -/

namespace ScopeMachine

/-- A register together with its declaration and its type. -/
structure DeclaredReg where
  /-- The register. -/
  reg : RegId
  /-- Its declaration. -/
  spec : RegSpec
  /-- Its type. -/
  type : VarType

namespace DeclaredReg

/-- The number of payload bytes of one element. -/
def bytes (declared : DeclaredReg) : Nat := declared.type.elementBytes.toNat

/-- Demand that an element holds a word. -/
def checkWord (declared : DeclaredReg) : Except Error Unit :=
  if declared.type.holdsWord then .ok ()
  else .error (.type (.notWord declared.reg declared.bytes))

/-- Demand that an element has at least so many bytes. -/
def checkWidth (declared : DeclaredReg) (needed : Nat) : Except Error Unit :=
  if needed ≤ declared.bytes then .ok ()
  else .error (.type (.tooNarrow declared.reg declared.bytes needed))

/-- Demand that the register can be bound to a referent. -/
def checkRebindable (declared : DeclaredReg) : Except Error Unit :=
  if declared.spec.flags.contains RegFlags.nonFixedRef then .ok ()
  else .error (.type (.notRebindable declared.reg))

/-- Demand that elements of two registers have the same shape. -/
def checkSameShape (left right : DeclaredReg) : Except Error Unit :=
  if left.type.sameShape right.type then .ok ()
  else .error (.type (.layoutsDiffer left.reg right.reg))

/-- Demand that `width` bytes from `offset` are within an element. -/
def checkWindow (declared : DeclaredReg) (offset width : Nat) : Except Error Unit :=
  if offset + width ≤ declared.bytes then .ok ()
  else .error (.type (.byteWindow offset (offset + width) declared.bytes declared.reg))

/-- Demand that an owned slot refers to variables of the referent's type. -/
def checkSlot (owner : DeclaredReg) (slot : Nat) (referent : DeclaredReg) : Except Error Unit :=
  match owner.type.ownedRefs[slot]? with
  | some held =>
      if held = referent.spec.vtype then .ok ()
      else .error (.type (.slotMismatch slot owner.reg held referent.reg referent.spec.vtype))
  | none => .error (.type (.noSlot owner.reg slot))

end DeclaredReg

namespace Module

/-- The declaration and type of a register. -/
def declaredReg (module : Module) (reg : RegId) : Except Error DeclaredReg := do
  let spec ← orError (.missing (.register reg)) (module.reg? reg)
  let type ← orError (.missing (.typeOf spec.vtype reg)) (module.vtype? spec.vtype)
  return ⟨reg, spec, type⟩

/-- Demand that a register is declared and holds a word. -/
def checkWordReg (module : Module) (reg : RegId) : Except Error Unit := do
  (← module.declaredReg reg).checkWord

/-- Demand that a register is declared and its elements have at least so many bytes. -/
def checkRegWidth (module : Module) (reg : RegId) (needed : Nat) : Except Error Unit := do
  (← module.declaredReg reg).checkWidth needed

/-- Demand that a procedure is declared and can be called by other procedures. -/
def checkCallee (module : Module) (proc : ProcId) : Except Error Unit := do
  let declared ← orError (.missing (.procedure proc)) (module.proc? proc)
  let type ← orError (.missing (.ptype declared.ptype)) (module.ptype? declared.ptype)
  if type.flags.contains ProcTypeFlags.function then return ()
  throw (.type (.notCallable proc))

/-- Check the operands of an instruction against the declarations of a module. -/
def checkOperands (module : Module) : Instruction → Except Error Unit
  | .inc reg | .dec reg => module.checkWordReg reg
  | .add dst left right | .sub dst left right | .mul dst left right => do
      module.checkWordReg dst
      module.checkWordReg left
      module.checkWordReg right
  | .cpi1 dst _ => module.checkRegWidth dst 1
  | .cpi2 dst _ => module.checkRegWidth dst 2
  | .cpi4 dst _ => module.checkRegWidth dst 4
  | .cpi8 dst _ => module.checkRegWidth dst 8
  | .jz reg _ | .jnz reg _ | .jgz reg _ | .jngz reg _ => module.checkWordReg reg
  | .jg left right _ | .jng left right _ | .je left right _ => do
      module.checkWordReg left
      module.checkWordReg right
  | .jmp _ | .throw | .ret => .ok ()
  | .als reg | .push reg | .frs reg | .pop reg | .pushh reg => do
      let _ ← module.declaredReg reg
  | .alsr reg | .pushr reg => do
      (← module.declaredReg reg).checkRebindable
  | .frsl count | .popl count =>
      if count = 0 then .error (.argument .scopeCount) else .ok ()
  | .cpb dst src => do
      module.checkRegWidth dst 1
      module.checkRegWidth src 1
  | .lde dst src position | .ste dst position src => do
      let target ← module.declaredReg dst
      let source ← module.declaredReg src
      target.checkSameShape source
      module.checkWordReg position
  | .ldb dst src offset => do
      let target ← module.declaredReg dst
      let source ← module.declaredReg src
      source.checkWindow offset.toNat target.bytes
  | .stb dst offset src => do
      let target ← module.declaredReg dst
      let source ← module.declaredReg src
      target.checkWindow offset.toNat source.bytes
  | .ldr dst src slot => do
      let target ← module.declaredReg dst
      target.checkRebindable
      let owner ← module.declaredReg src
      owner.checkSlot slot.toNat target
  | .str dst slot src => do
      let owner ← module.declaredReg dst
      let referent ← module.declaredReg src
      owner.checkSlot slot.toNat referent
  | .call proc => module.checkCallee proc

end Module

end ScopeMachine
