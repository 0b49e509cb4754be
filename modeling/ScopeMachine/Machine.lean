import ScopeMachine.CallStack
import ScopeMachine.Event
import ScopeMachine.Program
import ScopeMachine.RegisterFile

/-! # Machines

A machine runs one call of a program. Its state is the store, the register file, the call stack and
the events so far. `Machine.execute` carries out one instruction, `Machine.step` also moves the
activation on, and `Machine.run` repeats steps.

Instructions are actions of `Exec`, whose result tells the machine's state also after an error. An
instruction looks at all its operands before it changes anything. -/

namespace ScopeMachine

/-! ### States -/

/-- The state of a machine. -/
structure Machine where
  /-- All variables. -/
  store : Store
  /-- The frames of the registers. -/
  registers : RegisterFile
  /-- The activations. -/
  calls : CallStack
  /-- The events so far, the latest first. -/
  events : List Event
deriving DecidableEq

/-- Actions of a machine. -/
abbrev Exec := EStateM Error Machine

/-- Where control goes after an instruction. -/
inductive Outcome where
  /-- To the next instruction. -/
  | next
  /-- To another position in the procedure. -/
  | jump (target : Nat)
  /-- Into a procedure. -/
  | call (proc : ProcId)
  /-- Out of the procedure. -/
  | ret
deriving DecidableEq

namespace Machine

/-! ### Reading and writing -/

/-- Look at the machine. -/
@[inline] def inspect {α : Type} (look : Machine → Except Error α) : Exec α := do
  match look (← get) with
  | .ok value => pure value
  | .error error => throw error

/-- Carry out an action on the register file. -/
@[inline] def onRegisters {α : Type} (action : Registers α) : Exec α
  | ⟨store, registers, calls, events⟩ =>
      match action registers with
      | .ok value registers => .ok value ⟨store, registers, calls, events⟩
      | .error error registers => .error error ⟨store, registers, calls, events⟩

/-- Change a variable. -/
@[inline] def updateVar (id : VarId) (change : Variable → Variable) : Exec Unit :=
  modify fun ⟨store, registers, calls, events⟩ =>
    ⟨store.modify id change, registers, calls, events⟩

/-- Put a fresh variable into the store. -/
@[inline] def allocate (var : Variable) : Exec VarId :=
  modifyGet fun ⟨store, registers, calls, events⟩ =>
    (store.next, ⟨store.insert var, registers, calls, events⟩)

/-- Change the innermost activation. -/
@[inline] def updateTop (change : Activation → Activation) : Exec Unit := do
  if (← get).calls.isEmpty then throw (.misuse .callStackUnderflow)
  modify fun ⟨store, registers, calls, events⟩ =>
    ⟨store, registers, calls.modifyTop change, events⟩

/-- The variable that a register names, with its identity. -/
def named (machine : Machine) (reg : RegId) : Except Error (VarId × Variable) := do
  let id ← machine.registers.get reg
  match machine.store.get? id with
  | some var => return (id, var)
  | none => throw (.execution (.nullReference reg))

/-- The fault of reaching for an element that a register's variable does not have. -/
def missingElement (reg : RegId) (index : Int) (var : Variable) : Error :=
  .execution (.indexOutOfRange reg index var.count)

/-- The word that a register holds. -/
def readWord (reg : RegId) : Exec Int64 :=
  inspect fun machine => do
    let (_, var) ← machine.named reg
    orError (missingElement reg 0 var) (var.word? 0)

/-- Store a word in a register. -/
def writeWord (reg : RegId) (word : Int64) : Exec Unit := do
  let id ← inspect fun machine => do
    let (id, var) ← machine.named reg
    if var.hasWord 0 then return id
    throw (missingElement reg 0 var)
  updateVar id (·.putWord 0 word)

/-! ### Copies, loads and stores -/

/-- Store literal bytes at the front of a register's first element. -/
def storeLiteral (reg : RegId) (literal : Array UInt8) : Exec Unit := do
  let id ← inspect fun machine => do
    let (id, var) ← machine.named reg
    if var.isEmpty then throw (missingElement reg 0 var)
    if var.layout.elementBytes < literal.size then
      throw (.execution (.byteRange reg 0 literal.size var.layout.elementBytes))
    return id
  updateVar id (·.writeBytes 0 0 literal)

/-- Copy the payload of one register over the front of another's, as far as both reach. -/
def copyBytes (dst src : RegId) : Exec Unit := do
  let (id, bytes) ← inspect fun machine => do
    let (_, source) ← machine.named src
    let (id, _) ← machine.named dst
    return (id, source.payload)
  updateVar id (·.copyPayload bytes)

/-- A copy of the element of a register at a position given by a word. -/
def elementAt (reg : RegId) (index : Int) (machine : Machine) : Except Error Element := do
  let (_, var) ← machine.named reg
  orError (missingElement reg index var) (index.toNat?.bind var.element?)

/-- Store an element into a register at a position given by a word. -/
def storeElementAt (reg : RegId) (index : Int) (element : Element) : Exec Unit := do
  let id ← inspect fun machine => do
    let (id, var) ← machine.named reg
    if 0 ≤ index ∧ var.fits index.toNat element then return id
    throw (missingElement reg index var)
  updateVar id (·.putElement index.toNat element)

/-- Load as many bytes as an element of `dst` has, from a position within the first element of
`src`. -/
def loadBytes (dst src : RegId) (offset : Nat) : Exec Unit := do
  let (id, bytes) ← inspect fun machine => do
    let (id, target) ← machine.named dst
    let stop := Variable.partEnd offset target.layout.elementBytes
    let (_, source) ← machine.named src
    let bytes ← orError (missingElement src 0 source) (source.bytes? 0)
    if stop < offset ∨ bytes.size < stop then
      throw (.execution (.byteRange src offset stop bytes.size))
    if target.isEmpty then throw (missingElement dst 0 target)
    return (id, bytes.extract offset stop)
  updateVar id (·.writeBytes 0 0 bytes)

/-- Store the first element of `src` at a position within the first element of `dst`. -/
def storeBytes (dst : RegId) (offset : Nat) (src : RegId) : Exec Unit := do
  let (id, bytes) ← inspect fun machine => do
    let (_, source) ← machine.named src
    let bytes ← orError (missingElement src 0 source) (source.bytes? 0)
    let stop := Variable.partEnd offset bytes.size
    let (id, target) ← machine.named dst
    if target.isEmpty then throw (missingElement dst 0 target)
    if stop < offset ∨ target.layout.elementBytes < stop then
      throw (.execution (.byteRange dst offset stop target.layout.elementBytes))
    return (id, bytes)
  updateVar id (·.writeBytes 0 offset bytes)

/-- Bind a register to the referent in an owned slot of the first element of another. -/
def loadRef (dst src : RegId) (slot : Nat) : Exec Unit := do
  let referent ← inspect fun machine => do
    let (_, source) ← machine.named src
    if source.isEmpty then throw (missingElement src 0 source)
    return source.ownedRef? 0 slot
  discard (onRegisters (Registers.rebind dst referent))

/-- Store a reference to a register's variable, or null, in an owned slot of the first element of
another. -/
def storeRef (dst : RegId) (slot : Nat) (src : RegId) : Exec Unit := do
  let (id, referent) ← inspect fun machine => do
    let referent ← machine.registers.top src
    let (id, target) ← machine.named dst
    if (target.ownedIndex? 0 slot).isNone then throw (missingElement dst 0 target)
    return (id, referent)
  updateVar id (·.putOwnedRef 0 slot referent)

/-! ### Scopes -/

/-- Open a scope of a register with the given frame. -/
def openScope (reg : RegId) (frame : Frame) : Exec Unit := do
  onRegisters (Registers.push reg frame)
  updateTop (·.openScope reg)

/-- Open a scope of a register with a fresh variable. -/
def openFresh (program : Program) (reg : RegId) : Exec Unit := do
  let slot ← inspect fun _ => program.reg reg
  let id ← allocate slot.fresh
  openScope reg (some id)

/-- Open a scope of a register that names the same variable as before. -/
def openAlias (reg : RegId) : Exec Unit := do
  let frame ← inspect fun machine => machine.registers.top reg
  openScope reg frame

/-- Close the most recent scope of a register, which the innermost activation must have opened. -/
def closeScope (reg : RegId) : Exec Unit := do
  match (← get).calls.top? with
  | none => throw (.misuse .callStackUnderflow)
  | some activation =>
      if !activation.scopes.contains reg then throw (.misuse (.noOpenScope reg))
      updateTop (·.closeScope reg)
      discard (onRegisters (Registers.pop reg))

/-- Close the last `count` scopes of the innermost activation, one after the other. -/
def closeScopes : (count : Nat) → Exec Unit
  | 0 => pure ()
  | count + 1 => do
      match (← get).calls.top? with
      | none => throw (.misuse .callStackUnderflow)
      | some activation =>
          match activation.scopes with
          | [] => throw (.misuse .noScopeLeft)
          | reg :: _ =>
              updateTop fun top => { top with scopes := top.scopes.tail }
              discard (onRegisters (Registers.pop reg))
              closeScopes count

/-! ### Instructions -/

/-- Apply an operation to two words. -/
def arithmetic (operation : Int64 → Int64 → Int64) (dst left right : RegId) : Exec Unit := do
  let first ← readWord left
  let second ← readWord right
  writeWord dst (operation first second)

/-- Where a jump leads, if it is taken. -/
def jumpWhen (taken : Bool) (instruction : Instruction) (pc : Nat) : Exec Outcome :=
  if taken then
    match instruction.jumpTarget? pc with
    | some target => pure (.jump target)
    | none => throw (.range (.jumpLeaves pc))
  else pure .next

/-- Compare two words. -/
def compareWords (test : Int64 → Int64 → Bool) (left right : RegId) : Exec Bool := do
  let first ← readWord left
  let second ← readWord right
  return test first second

/-- Carry out one instruction at position `pc`. -/
def execute (program : Program) (instruction : Instruction) (pc : Nat) : Exec Outcome := do
  match instruction with
  | .inc reg => writeWord reg ((← readWord reg) + 1); return .next
  | .dec reg => writeWord reg ((← readWord reg) - 1); return .next
  | .add dst left right => arithmetic (· + ·) dst left right; return .next
  | .sub dst left right => arithmetic (· - ·) dst left right; return .next
  | .mul dst left right => arithmetic (· * ·) dst left right; return .next
  | .cpi1 dst literal =>
      storeLiteral dst ((wordToBytes (Int64.ofInt literal.toInt)).take 1); return .next
  | .cpi2 dst literal =>
      storeLiteral dst ((wordToBytes (Int64.ofInt literal.toInt)).take 2); return .next
  | .cpi4 dst literal =>
      storeLiteral dst ((wordToBytes (Int64.ofInt literal.toInt)).take 4); return .next
  | .cpi8 dst literal => storeLiteral dst (wordToBytes literal); return .next
  | .jz reg _ => jumpWhen ((← readWord reg) == 0) instruction pc
  | .jnz reg _ => jumpWhen ((← readWord reg) != 0) instruction pc
  | .jgz reg _ => jumpWhen (0 < (← readWord reg)) instruction pc
  | .jngz reg _ => jumpWhen ((← readWord reg) ≤ 0) instruction pc
  | .jg left right _ =>
      jumpWhen (← compareWords (fun first second => second < first) left right) instruction pc
  | .jng left right _ =>
      jumpWhen (← compareWords (fun first second => first ≤ second) left right) instruction pc
  | .je left right _ => jumpWhen (← compareWords (· == ·) left right) instruction pc
  | .jmp _ => jumpWhen true instruction pc
  | .als reg | .push reg => openFresh program reg; return .next
  | .alsr reg | .pushr reg => openScope reg none; return .next
  | .pushh reg => openAlias reg; return .next
  | .frs reg | .pop reg => closeScope reg; return .next
  | .frsl count | .popl count => closeScopes count.toNat; return .next
  | .cpb dst src => copyBytes dst src; return .next
  | .lde dst src position =>
      let index ← readWord position
      let element ← inspect (elementAt src index.toInt)
      storeElementAt dst 0 element
      return .next
  | .ste dst position src =>
      let index ← readWord position
      let element ← inspect (elementAt src 0)
      storeElementAt dst index.toInt element
      return .next
  | .ldb dst src offset => loadBytes dst src offset.toNat; return .next
  | .stb dst offset src => storeBytes dst offset.toNat src; return .next
  | .ldr dst src slot => loadRef dst src slot.toNat; return .next
  | .str dst slot src => storeRef dst slot.toNat src; return .next
  | .call proc => return .call proc
  | .throw => throw (.execution (.thrown (← readWord RegId.error)))
  | .ret => return .ret

/-! ### Activations -/

/-- Report an event. -/
@[inline] def emit (event : Event) : Exec Unit :=
  modify fun ⟨store, registers, calls, events⟩ => ⟨store, registers, calls, event :: events⟩

/-- Enter a procedure. -/
def enter (program : Program) (proc : ProcId) : Exec Unit := do
  let depth := (← get).calls.depth
  if program.maxCallDepth ≤ depth then
    throw (.execution (.callDepthExceeded program.maxCallDepth))
  let code ← inspect fun _ => program.proc proc
  if code.flags.contains ProcFlags.trace then
    emit (.enteredTraced program.module proc depth)
  else emit (.entered proc depth)
  modify fun ⟨store, registers, calls, events⟩ =>
    ⟨store, registers, calls.push (Activation.start proc), events⟩

/-- Leave the innermost procedure. Scopes that it left open are closed, which does not happen to
verified code. -/
def leave (program : Program) : Exec Unit := do
  match (← get).calls.top? with
  | none => throw (.misuse .callStackUnderflow)
  | some activation =>
      modify fun ⟨store, registers, calls, events⟩ => ⟨store, registers, calls.pop, events⟩
      activation.scopes.forM fun reg => discard (onRegisters (Registers.pop reg))
      let code ← inspect fun _ => program.proc activation.proc
      if code.flags.contains ProcFlags.trace then
        emit (.leftTraced program.module activation.proc (← get).calls.depth)

/-- The current instruction and its position. -/
def current (program : Program) (machine : Machine) : Except Error (Instruction × Nat) := do
  match machine.calls.top? with
  | none => throw (.misuse .callStackUnderflow)
  | some activation =>
      let code ← program.proc activation.proc
      let instruction ← orError (.range (.noInstruction activation.proc activation.pc))
        code.code[activation.pc]?
      return (instruction, activation.pc)

/-- Carry out the current instruction and move on; whether the machine has come to an end. -/
def step (program : Program) : Exec Bool := do
  let (instruction, pc) ← inspect (current program)
  match ← execute program instruction pc with
  | .next => updateTop fun top => { top with pc := pc + 1 }
  | .jump target => updateTop fun top => { top with pc := target }
  | .call proc =>
      updateTop fun top => { top with pc := pc + 1 }
      enter program proc
  | .ret => leave program
  return (← get).calls.isEmpty

/-! ### Runs -/

/-- How a run ended, or that it has not. -/
inductive Completion where
  /-- The procedure has returned. -/
  | returned
  /-- The run has ended in an error. -/
  | failed (error : Error)
  /-- The run has not come to an end. -/
  | running
deriving DecidableEq

/-- Take at most `steps` steps. -/
def continueFor (program : Program) : (steps : Nat) → Machine → Machine × Completion
  | 0, machine => (machine, .running)
  | steps + 1, machine =>
      match step program machine with
      | .ok true machine => (machine, .returned)
      | .ok false machine => continueFor program steps machine
      | .error error machine => (machine, .failed error)

/-- Enter a procedure and take at most `steps` steps. -/
def run (program : Program) (entry : ProcId) (steps : Nat) (machine : Machine) :
    Machine × Completion :=
  match enter program entry machine with
  | .ok _ machine => continueFor program steps machine
  | .error error machine => (machine, .failed error)

/-! ### Starting -/

/-- Open the frame of a register that is allocated before any scope: fresh storage for the error
register and thread-local registers, the shared storage for persistent ones. -/
def bootReg (slot : RegSlot) (index : Nat) : Exec Unit := do
  let reg ← inspect fun _ => liftCodec (RegId.ofIndex index)
  if reg = RegId.error || slot.flags.contains RegFlags.threadLocal then
    let id ← allocate slot.fresh
    onRegisters (Registers.push reg (some id))
  else if slot.persistent.isSome then onRegisters (Registers.push reg slot.persistent)

/-- A machine before the first procedure is entered, with the static registers allocated. -/
def boot (program : Program) : Exec Unit :=
  program.regs.toList.zipIdx.forM fun entry => bootReg entry.1 entry.2

/-- A machine without frames and activations over a store. -/
def idle (program : Program) (store : Store) : Machine :=
  ⟨store, RegisterFile.ofSize program.regs.size, CallStack.empty, []⟩

/-- Run a procedure without an argument, for at most `steps` steps. -/
def runProc (program : Program) (proc : ProcId) (steps : Nat) (store : Store) :
    Machine × Completion :=
  match boot program (idle program store) with
  | .error error machine => (machine, .failed error)
  | .ok _ machine => run program proc steps machine

/-- The entry point for a call with a variable as its argument, if the call is allowed. -/
def checkCall (program : Program) (proc : ProcId) (io : VarId) (store : Store) :
    Except Error ProcCode := do
  let entry ← orError (.missing (.entryPoint proc)) (program.entryPoint? proc)
  match store.get? io with
  | some var => program.checkIo entry var
  | none => pure ()
  return entry

/-- Run an entry point with a variable as its argument and result, for at most `steps` steps. -/
def invoke (program : Program) (proc : ProcId) (io : VarId) (steps : Nat) (store : Store) :
    Machine × Completion :=
  match checkCall program proc io store with
  | .error error => (idle program store, .failed error)
  | .ok entry =>
      match boot program (idle program store) with
      | .error error machine => (machine, .failed error)
      | .ok _ machine =>
          match onRegisters (Registers.push entry.io (some io)) machine with
          | .error error machine => (machine, .failed error)
          | .ok _ machine => run program proc steps machine

end Machine

end ScopeMachine
