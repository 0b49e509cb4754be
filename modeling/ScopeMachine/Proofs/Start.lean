import ScopeMachine.Proofs.Opening
import ScopeMachine.Proofs.Verification

/-! # Before the first instruction

A program is compiled from a module, and a machine starts with the static registers allocated and
the argument on top of its register.

* `Compiles` relates a program to its module, part by part, and `compiles_of_compile` proves it;
* `Compiles.keepsDiscipline` says that all code of a verified program keeps the scope discipline;
* `Booting` is the invariant of allocating the static registers, `booted_of_boot` its end;
* `Machine.prepare` is all that happens before the entry point is entered, and `Prepared` says what
  the registers are then. -/

namespace ScopeMachine

/-! ### Static registers -/

/-- A register is allocated during the whole execution: it is the error register, persistent or
thread-local. -/
def Module.isStatic (module : Module) (reg : RegId) : Bool :=
  reg == RegId.error || (module.reg? reg).any fun spec =>
    spec.flags.contains RegFlags.persistent || spec.flags.contains RegFlags.threadLocal

/-- Static flags are persistent and thread-local. -/
theorem RegFlags.isStatic_eq (flags : RegFlags) :
    RegFlags.isStatic flags =
      (flags.contains RegFlags.persistent || flags.contains RegFlags.threadLocal) := by
  -- there are few enough flag bytes to look at them all
  have all : ∀ bits : Fin 256, RegFlags.isStatic ⟨UInt8.ofNat bits⟩ =
      (Flags.contains ⟨UInt8.ofNat bits⟩ RegFlags.persistent ||
        Flags.contains ⟨UInt8.ofNat bits⟩ RegFlags.threadLocal) := by decide +kernel
  obtain ⟨bits⟩ := flags
  have this := all ⟨bits.toNat, bits.toNat_lt⟩
  rwa [UInt8.ofNat_toNat] at this

/-- The scope rules know the static registers. -/
theorem ScopeContext.isStatic_eq (module : Module) (io reg : RegId) :
    (⟨module, io⟩ : ScopeContext).isStatic reg = module.isStatic reg := by
  have reserved : reg.isReserved = (reg == RegId.error) := by
    rw [Bool.eq_iff_iff, beq_iff_eq]
    unfold RegId.isReserved
    rw [decide_eq_true_eq]
    constructor
    · intro small
      exact RegId.ext_index (Nat.lt_one_iff.mp small)
    · rintro rfl
      decide
  unfold ScopeContext.isStatic Module.isStatic
  rw [reserved]
  simp only [RegFlags.isStatic_eq]

/-! ### Programs of modules -/

/-- A register of a program is a register of the module with its type resolved. -/
structure RegSlot.Resolves (module : Module) (spec : RegSpec) (slot : RegSlot) : Prop where
  /-- The type is declared, and the layout is that of the type. -/
  layout : ∃ type, module.vtype? spec.vtype = some type ∧ slot.layout = ⟨spec.vtype, type⟩
  /-- The number of elements is as declared. -/
  count : slot.count = spec.count.toNat
  /-- The flags are as declared. -/
  flags : slot.flags = spec.flags
  /-- Exactly the persistent registers have storage. -/
  persistent : slot.persistent.isSome = spec.flags.contains RegFlags.persistent

/-- A register of a program passes for the declared type. -/
theorem RegSlot.Resolves.vtype {module : Module} {spec : RegSpec} {slot : RegSlot}
    (resolves : slot.Resolves module spec) : slot.layout.vtype = spec.vtype := by
  obtain ⟨type, -, layout⟩ := resolves.layout
  rw [layout]

/-- A procedure of a program is a procedure of the module with its code decoded. -/
structure ProcCode.Resolves (module : Module) (declared : ProcDef) (code : ProcCode) : Prop where
  /-- The type is declared, with the register for argument and result. -/
  ptype : ∃ type, module.ptype? declared.ptype = some type ∧ code.io = type.io ∧
    code.external = type.flags.contains ProcTypeFlags.external
  /-- The code is decoded. -/
  decoded : declared.instructions = .ok code.code
  /-- The flags are as declared. -/
  flags : code.flags = declared.flags

/-- A program is the executable form of a module. -/
structure Compiles (module : Module) (program : Program) : Prop where
  /-- There are as many registers. -/
  regs_size : program.regs.size = module.regs.size
  /-- Each register is resolved. -/
  reg : ∀ {index : Nat} {slot : RegSlot}, program.regs[index]? = some slot →
    ∃ spec, module.regs[index]? = some spec ∧ slot.Resolves module spec
  /-- There are as many procedures. -/
  procs_size : program.procs.size = module.procs.size
  /-- Each procedure is decoded. -/
  proc : ∀ {index : Nat} {code : ProcCode}, program.procs[index]? = some code →
    ∃ declared, module.procs[index]? = some declared ∧ code.Resolves module declared

/-- What compiling a register does: its type is resolved, and if it is persistent, its storage
enters the store. -/
theorem compileReg_eq_ok {module : Module} {spec : RegSpec} {slot : RegSlot}
    {before after : Store} (compiled : Program.compileReg module spec before = .ok slot after) :
    ∃ type, module.vtype? spec.vtype = some type ∧
      ((spec.flags.contains RegFlags.persistent = true ∧
        slot = ⟨⟨spec.vtype, type⟩, spec.count.toNat, spec.flags, some before.next⟩ ∧
        after = before.insert (({ slot with persistent := none }).fresh.copyPayload
          (spec.init.getD #[]))) ∨
      (spec.flags.contains RegFlags.persistent = false ∧
        slot = ⟨⟨spec.vtype, type⟩, spec.count.toNat, spec.flags, none⟩ ∧ after = before)) := by
  unfold Program.compileReg at compiled
  cases found : module.vtype? spec.vtype with
  | none =>
      rw [found] at compiled
      cases compiled
  | some type =>
      rw [found] at compiled
      dsimp only at compiled
      refine ⟨type, rfl, ?_⟩
      cases persistent : spec.flags.contains RegFlags.persistent with
      | true =>
          rw [persistent, if_pos rfl] at compiled
          cases compiled
          exact .inl ⟨rfl, rfl, rfl⟩
      | false =>
          rw [persistent, if_neg (by decide)] at compiled
          cases compiled
          exact .inr ⟨rfl, rfl, rfl⟩

/-- Compiling a register resolves it. -/
theorem resolves_of_compileReg {module : Module} {spec : RegSpec} {slot : RegSlot}
    {before after : Store} (compiled : Program.compileReg module spec before = .ok slot after) :
    slot.Resolves module spec := by
  obtain ⟨type, found, ⟨persistent, rfl, -⟩ | ⟨plain, rfl, -⟩⟩ := compileReg_eq_ok compiled
  · exact ⟨⟨type, found, rfl⟩, rfl, rfl, persistent.symm⟩
  · exact ⟨⟨type, found, rfl⟩, rfl, rfl, plain.symm⟩

/-- Compiling a procedure. -/
theorem resolves_of_compileProc {module : Module} {declared : ProcDef} {code : ProcCode}
    (compiled : Program.compileProc module declared = .ok code) :
    code.Resolves module declared := by
  unfold Program.compileProc at compiled
  simp only [bind_eq_ok, orError_eq_ok, liftCodec_eq_ok] at compiled
  obtain ⟨type, found, instructions, decoded, made⟩ := compiled
  cases made
  exact ⟨⟨type, found, rfl, rfl⟩, decoded, rfl⟩

/-- Compiling a module is compiling its registers and its procedures. -/
theorem compile_eq_ok {module : Module} {maxCallDepth : Nat} {program : Program}
    {before after : Store} :
    Program.compile module maxCallDepth before = .ok program after ↔
      ∃ regs procs, module.regs.toList.mapM (Program.compileReg module) before = .ok regs after ∧
        module.procs.toList.mapM (Program.compileProc module) = .ok procs ∧
        program = ⟨module.id, maxCallDepth, regs.toArray, procs.toArray⟩ := by
  unfold Program.compile
  rw [bind_apply_eq_ok]
  cases compiledProcs : module.procs.toList.mapM (Program.compileProc module) with
  | error error =>
      constructor
      · rintro ⟨regs, middle, -, failed⟩
        cases failed
      · rintro ⟨regs, procs, -, failed, -⟩
        cases failed
  | ok procs =>
      constructor
      · rintro ⟨regs, middle, compiledRegs, done⟩
        cases done
        exact ⟨regs, procs, compiledRegs, rfl, rfl⟩
      · rintro ⟨regs, _, compiledRegs, same, rfl⟩
        cases same
        exact ⟨regs, after, compiledRegs, rfl⟩

/-- **A compiled program is the executable form of its module.** -/
theorem compiles_of_compile {module : Module} {maxCallDepth : Nat} {program : Program}
    {before after : Store}
    (compiled : Program.compile module maxCallDepth before = .ok program after) :
    Compiles module program ∧ program.maxCallDepth = maxCallDepth := by
  obtain ⟨regs, procs, compiledRegs, compiledProcs, rfl⟩ := compile_eq_ok.mp compiled
  obtain ⟨regsLength, eachReg⟩ := mapM_apply_eq_ok compiledRegs
  obtain ⟨procsLength, eachProc⟩ := mapM_eq_ok compiledProcs
  refine ⟨⟨regsLength, ?_, procsLength, ?_⟩, rfl⟩
  · intro index slot found
    have inside : index < module.regs.size := by
      rw [← Array.length_toList, ← regsLength]
      exact (Array.getElem?_eq_some_iff.mp found).1
    have spec := Array.getElem?_eq_getElem inside
    obtain ⟨value, before, later, same, compiledReg⟩ :=
      eachReg index _ (by rw [Array.getElem?_toList]; exact spec)
    have isSlot : regs[index]? = some slot := by simpa using found
    rw [isSlot] at same
    obtain rfl := Option.some.inj same
    exact ⟨_, spec, resolves_of_compileReg compiledReg⟩
  · intro index code found
    have inside : index < module.procs.size := by
      rw [← Array.length_toList, ← procsLength]
      exact (Array.getElem?_eq_some_iff.mp found).1
    have declared := Array.getElem?_eq_getElem inside
    obtain ⟨value, same, compiledProc⟩ :=
      eachProc index _ (by rw [Array.getElem?_toList]; exact declared)
    have isCode : procs[index]? = some code := by simpa using found
    rw [isCode] at same
    obtain rfl := Option.some.inj same
    exact ⟨_, declared, resolves_of_compileProc compiledProc⟩

/-! ### Verified programs -/

section
variable {module : Module} {program : Program} {proc : ProcId} {code : ProcCode}

/-- The register for argument and result is that of the module. -/
theorem Compiles.ioOf? (compiles : Compiles module program)
    (found : program.procs[proc.index.toNat]? = some code) : module.ioOf? proc = some code.io := by
  obtain ⟨declared, foundDeclared, resolves⟩ := compiles.proc found
  obtain ⟨type, foundType, io, -⟩ := resolves.ptype
  unfold Module.ioOf? Module.proc?
  rw [foundDeclared, Option.bind_some, foundType, io]
  rfl

/-- The verifier's solution for a procedure is one for its decoded code. -/
theorem Compiles.exists_solution (compiles : Compiles module program)
    (verified : verifyModule module = .ok ())
    (found : program.procs[proc.index.toNat]? = some code) :
    ∃ flow solution, solveProc module proc = .ok (flow, solution) ∧ flow.code = code.code ∧
      flow.context = ⟨module, code.io⟩ ∧
      ControlFlow.Cut flow.code flow.blocks flow.blockAt ∧ Solved flow solution.entries := by
  obtain ⟨declared, foundDeclared, resolves⟩ := compiles.proc found
  obtain ⟨flow, solution, solved⟩ := exists_solveProc_of_verifyModule verified foundDeclared
  obtain ⟨declared', foundDeclared', decoded, -, context, cut, isSolution⟩ := solveProc_eq_ok solved
  refine ⟨flow, solution, solved, ?_, ?_, cut, isSolution⟩
  · rw [show module.proc? proc = some declared from foundDeclared] at foundDeclared'
    obtain rfl := Option.some.inj foundDeclared'
    rw [resolves.decoded] at decoded
    exact (Except.ok.inj decoded).symm
  · unfold ScopeContext.of? at context
    rw [compiles.ioOf? found] at context
    exact (Option.some.inj context).symm

/-- All paths through a procedure of a verified program keep the scope discipline. -/
theorem Compiles.keepsDiscipline (compiles : Compiles module program)
    (verified : verifyModule module = .ok ())
    (found : program.procs[proc.index.toNat]? = some code) :
    KeepsDiscipline ⟨module, code.io⟩ code.code ∧ ControlFlow.JumpsLand code.code := by
  obtain ⟨flow, solution, -, sameCode, sameContext, cut, solved⟩ :=
    compiles.exists_solution verified found
  have keeps := solved.keepsDiscipline cut
  have lands := cut.lands
  rw [sameCode, sameContext] at keeps
  rw [sameCode] at lands
  exact ⟨keeps, lands⟩

end

/-! ### Allocating the static registers -/

/-- The frames of a register before any scope is open: fresh storage for the error register and
thread-local ones, the shared storage for persistent ones, and none for all others. -/
def RegSlot.Boots (slot : RegSlot) (reg : RegId) (store : Store) (frames : List Frame) : Prop :=
  if reg = RegId.error ∨ slot.flags.contains RegFlags.threadLocal = true then
    ∃ id, frames = [some id] ∧ store.get? id = some slot.fresh
  else if slot.persistent.isSome then frames = [slot.persistent]
  else frames = []

/-- Variables that enter the store leave the frames of a register as they are. -/
theorem RegSlot.Boots.insert {slot : RegSlot} {reg : RegId} {store : Store} {frames : List Frame}
    (boots : slot.Boots reg store frames) (var : Variable) :
    slot.Boots reg (store.insert var) frames := by
  unfold RegSlot.Boots at boots ⊢
  split
  next fresh =>
    rw [if_pos fresh] at boots
    obtain ⟨id, frames, found⟩ := boots
    exact ⟨id, frames, Store.get?_insert_of_some found var⟩
  next shared =>
    rw [if_neg shared] at boots
    exact boots

namespace Machine

/-- The registers before `count` have been allocated. -/
structure Booting (program : Program) (store : Store) (count : Nat) (machine : Machine) :
    Prop where
  /-- Every register has been or will be looked at. -/
  size : machine.registers.byReg.size = program.regs.size
  /-- Registers before `count` have their frames. -/
  done : ∀ {reg : RegId} {slot : RegSlot}, reg.index < count →
    program.regs[reg.index]? = some slot →
      slot.Boots reg machine.store (machine.registers.framesOf reg)
  /-- Registers from `count` on have none. -/
  waits : ∀ {reg : RegId}, count ≤ reg.index → machine.registers.framesOf reg = []
  /-- No procedure is entered. -/
  calls : machine.calls = CallStack.empty
  /-- Nothing is reported. -/
  events : machine.events = []
  /-- Variables keep their shapes. -/
  shapes : store.KeepsShapes machine.store
  /-- References keep leading to variables. -/
  resolves : store.Resolves → machine.store.Resolves

/-- Before the first register. -/
theorem booting_idle (program : Program) (store : Store) :
    Booting program store 0 (idle program store) where
  size := Array.size_replicate
  done := by
    intro reg slot before
    cases before
  waits := by
    intro reg _
    unfold RegisterFile.framesOf idle RegisterFile.ofSize
    dsimp only
    rw [Array.getElem?_replicate]
    split <;> rfl
  calls := rfl
  events := rfl
  shapes := Store.KeepsShapes.refl store
  resolves := id

section
variable {program : Program} {store : Store} {count : Nat} {machine : Machine} {slot : RegSlot}

/-- The register with a given index, which must be in range. -/
theorem bootReg_eq (slot : RegSlot) (reg : RegId) (machine : Machine) :
    bootReg slot reg.index machine =
      (if reg = RegId.error || slot.flags.contains RegFlags.threadLocal then do
        let id ← allocate slot.fresh
        onRegisters (Registers.push reg (some id))
      else if slot.persistent.isSome then onRegisters (Registers.push reg slot.persistent)
      else pure () : Exec Unit) machine := by
  have named : RegId.ofIndex reg.index = .ok reg := by
    unfold RegId.ofIndex
    rw [RegId.ofIndex?_index]
  unfold bootReg
  rw [bind_apply, inspect_apply, named]
  rfl

/-- An index out of range names no register. -/
theorem bootReg_eq_error (slot : RegSlot) {index : Nat} (outside : RegId.maxIndex < index)
    (machine : Machine) : ∃ error, bootReg slot index machine = .error error machine := by
  have unnamed : RegId.ofIndex index = .error (.registerOutOfRange index) := by
    unfold RegId.ofIndex
    rw [RegId.ofIndex?_eq_none_iff.mpr outside]
  refine ⟨.ofCodec (.registerOutOfRange index), ?_⟩
  unfold bootReg
  rw [bind_apply, inspect_apply, unnamed]
  rfl

/-- A register that gets its frame, in a store with perhaps a fresh variable. -/
theorem Booting.push {reg : RegId} (booting : Booting program store reg.index machine)
    (found : program.regs[reg.index]? = some slot) (frame : Frame) {grown : Store}
    (shapes : machine.store.KeepsShapes grown) (resolves : machine.store.Resolves → grown.Resolves)
    (keeps : ∀ {slot : RegSlot} {reg : RegId} {frames : List Frame},
      slot.Boots reg machine.store frames → slot.Boots reg grown frames)
    (here : slot.Boots reg grown [frame]) :
    machine.registers.Has reg ∧ Booting program store (reg.index + 1)
      { machine with
        store := grown
        registers := machine.registers.modifyFrames reg (frame :: ·) } := by
  have has : machine.registers.Has reg := by
    unfold RegisterFile.Has
    rw [booting.size]
    exact (Array.getElem?_eq_some_iff.mp found).1
  refine ⟨has, ?_, ?_, ?_, booting.calls, booting.events,
    Store.KeepsShapes.trans booting.shapes shapes,
    fun before => resolves (booting.resolves before)⟩
  · rw [RegisterFile.size_modifyFrames, booting.size]
  · intro other otherSlot before foundOther
    dsimp only
    rw [RegisterFile.framesOf_modifyFrames has]
    by_cases same : other = reg
    · subst same
      rw [found] at foundOther
      obtain rfl := Option.some.inj foundOther
      rw [if_pos rfl, booting.waits (Nat.le_refl _)]
      exact here
    · have differs : other.index ≠ reg.index := fun equal => same (RegId.ext_index equal)
      rw [if_neg same]
      exact keeps (booting.done (by omega) foundOther)
  · intro other after
    have differs : other ≠ reg := by
      rintro rfl
      omega
    dsimp only
    rw [RegisterFile.framesOf_modifyFrames has, if_neg differs]
    exact booting.waits (by omega)

/-- One register after the other. -/
theorem Booting.bootReg {reg : RegId} (booting : Booting program store reg.index machine)
    (found : program.regs[reg.index]? = some slot) :
    ∃ after, Machine.bootReg slot reg.index machine = .ok () after ∧
      Booting program store (reg.index + 1) after := by
  rw [bootReg_eq]
  by_cases fresh : reg = RegId.error ∨ slot.flags.contains RegFlags.threadLocal = true
  · have isFresh : (reg = RegId.error || slot.flags.contains RegFlags.threadLocal) = true := by
      simpa using fresh
    have here : slot.Boots reg (machine.store.insert slot.fresh) [some machine.store.next] := by
      unfold RegSlot.Boots
      rw [if_pos fresh]
      exact ⟨_, rfl, by rw [Slots.get?_insert, if_pos rfl]⟩
    obtain ⟨has, booted⟩ := booting.push found (some machine.store.next)
      (Store.keepsShapes_insert _ slot.fresh)
      (fun before => Store.resolves_insert before slot.bare_fresh)
      (fun boots => boots.insert _) here
    refine ⟨_, ?_, booted⟩
    rw [if_pos isFresh, bind_apply]
    exact onRegisters_eq_ok (Registers.push_apply has _) _ _ _
  · have notFresh : ¬ (reg = RegId.error || slot.flags.contains RegFlags.threadLocal) = true := by
      simpa using fresh
    rw [if_neg notFresh]
    by_cases shared : slot.persistent.isSome = true
    · have here : slot.Boots reg machine.store [slot.persistent] := by
        unfold RegSlot.Boots
        rw [if_neg fresh, if_pos shared]
      obtain ⟨has, booted⟩ := booting.push found slot.persistent (Store.KeepsShapes.refl _) id id
        here
      refine ⟨_, ?_, booted⟩
      rw [if_pos shared]
      exact onRegisters_eq_ok (Registers.push_apply has _) _ _ _
    · -- a register of scopes only: the machine stays, and the register is one that is done with
      refine ⟨machine, ?_, booting.size, ?_, ?_, booting.calls, booting.events, booting.shapes,
        booting.resolves⟩
      · rw [if_neg shared]
        rfl
      · intro other otherSlot before foundOther
        by_cases same : other = reg
        · subst same
          rw [found] at foundOther
          obtain rfl := Option.some.inj foundOther
          unfold RegSlot.Boots
          rw [if_neg fresh, if_neg shared]
          exact booting.waits (Nat.le_refl _)
        · have differs : other.index ≠ reg.index := fun equal => same (RegId.ext_index equal)
          exact booting.done (by omega) foundOther
      · intro other after
        exact booting.waits (by omega)

/-- The registers from `count` on, one after the other. -/
theorem Booting.forM_bootReg {slots : List RegSlot} (booting : Booting program store count machine)
    (found : ∀ index, slots[index]? = program.regs[count + index]?)
    (named : count + slots.length ≤ RegId.maxIndex + 1) :
    ∃ after, (slots.zipIdx count).forM (fun entry => Machine.bootReg entry.1 entry.2) machine
        = .ok () after ∧ Booting program store (count + slots.length) after := by
  induction slots generalizing count machine with
  | nil => exact ⟨machine, rfl, booting⟩
  | cons slot slots ih =>
      rw [List.length_cons] at named
      -- `named` is what turns the running index into a register identifier
      let reg : RegId := ⟨count, by omega⟩
      have foundHere : program.regs[reg.index]? = some slot := (found 0).symm
      obtain ⟨middle, first, booted⟩ :
          ∃ middle, Machine.bootReg slot count machine = .ok () middle ∧
            Booting program store (count + 1) middle := Booting.bootReg booting foundHere
      have foundOthers : ∀ index, slots[index]? = program.regs[count + 1 + index]? := by
        intro index
        rw [Nat.add_assoc, Nat.add_comm 1 index]
        exact found (index + 1)
      obtain ⟨after, others, done⟩ := ih booted foundOthers (by omega)
      refine ⟨after, ?_, ?_⟩
      · show (Machine.bootReg slot count >>= fun _ =>
          (slots.zipIdx (count + 1)).forM fun entry => Machine.bootReg entry.1 entry.2) machine = _
        rw [bind_apply, first]
        exact others
      · rw [List.length_cons, show count + (slots.length + 1) = count + 1 + slots.length by omega]
        exact done

/-- **Allocating the static registers succeeds** if there are no more registers than register
identifiers. -/
theorem exists_boot (store : Store) (named : program.regs.size ≤ RegId.maxIndex + 1) :
    ∃ machine, boot program (idle program store) = .ok () machine ∧
      Booting program store program.regs.size machine := by
  have found : ∀ index, program.regs.toList[index]? = program.regs[0 + index]? := by
    intro index
    rw [Nat.zero_add, Array.getElem?_toList]
  obtain ⟨machine, booted, done⟩ := (booting_idle program store).forM_bootReg found
    (by rw [Nat.zero_add]; exact named)
  rw [Nat.zero_add, Array.length_toList] at done
  exact ⟨machine, booted, done⟩

/-- After the static registers have been allocated, every register has its frames. -/
theorem booted_of_boot (booted : boot program (idle program store) = .ok () machine) :
    program.regs.size ≤ RegId.maxIndex + 1 ∧
      Booting program store program.regs.size machine := by
  have named : program.regs.size ≤ RegId.maxIndex + 1 := by
    -- otherwise the loop would have come to the first index that names no register
    apply Classical.byContradiction
    intro tooMany
    have inside : RegId.maxIndex + 1 < program.regs.size := by omega
    have member : (program.regs[RegId.maxIndex + 1], RegId.maxIndex + 1) ∈
        program.regs.toList.zipIdx := by
      rw [List.mem_zipIdx_iff_getElem?, Array.getElem?_toList]
      exact Array.getElem?_eq_getElem inside
    obtain ⟨before, later, succeeded⟩ := forM_apply_eq_ok booted _ member
    obtain ⟨error, failed⟩ := bootReg_eq_error program.regs[RegId.maxIndex + 1]
      (Nat.lt_succ_self RegId.maxIndex) before
    rw [failed] at succeeded
    cases succeeded
  -- the loop is a function, so the machine is the one whose existence has been shown
  obtain ⟨other, bootedOther, done⟩ := exists_boot store named
  rw [booted] at bootedOther
  cases bootedOther
  exact ⟨named, done⟩

end

/-! ### Machines with an argument -/

/-- Allocate the static registers, and put the argument on top of its register. -/
def prepare (program : Program) (entry : ProcCode) (io : VarId) : Exec Unit := do
  boot program
  onRegisters (Registers.push entry.io (some io))

/-- A call runs the machine that has been prepared for it. -/
theorem invoke_eq (program : Program) (proc : ProcId) (io : VarId) (steps : Nat) (store : Store) :
    invoke program proc io steps store =
      match checkCall program proc io store with
      | .error error => (idle program store, .failed error)
      | .ok entry =>
          match prepare program entry io (idle program store) with
          | .error error machine => (machine, .failed error)
          | .ok _ machine => run program proc steps machine := by
  unfold invoke prepare
  cases checkCall program proc io store with
  | error error => rfl
  | ok entry =>
      dsimp only
      rw [bind_apply]
      cases boot program (idle program store) <;> rfl

/-- A call that is allowed is one of an entry point of the program. -/
theorem found_of_checkCall {program : Program} {proc : ProcId} {io : VarId} {store : Store}
    {entry : ProcCode} (allowed : checkCall program proc io store = .ok entry) :
    program.procs[proc.index.toNat]? = some entry := by
  unfold checkCall at allowed
  obtain ⟨found, isEntry, allowed⟩ := bind_eq_ok.mp allowed
  rw [orError_eq_ok] at isEntry
  have same : found = entry := by
    dsimp only at allowed
    split at allowed
    · obtain ⟨-, -, same⟩ := bind_eq_ok.mp allowed
      exact Except.ok.inj same
    · exact Except.ok.inj allowed
  rw [← same]
  exact (Option.filter_eq_some_iff.mp isEntry).1

/-- What a machine is like when its entry point is about to be entered. -/
structure Prepared (program : Program) (entry : ProcCode) (io : VarId) (store : Store)
    (start : Machine) : Prop where
  /-- There are no more registers than register identifiers. -/
  named : program.regs.size ≤ RegId.maxIndex + 1
  /-- The machine has the registers of the program. -/
  size : start.registers.byReg.size = program.regs.size
  /-- The register for the argument is one of them. -/
  has : entry.io.index < program.regs.size
  /-- Above the frames of the static registers there is the argument. -/
  frames : ∀ {reg : RegId} {slot : RegSlot}, program.regs[reg.index]? = some slot →
    ∃ base, slot.Boots reg start.store base ∧ start.registers.framesOf reg =
      (if reg = entry.io then [some io] else []) ++ base
  /-- No procedure is entered. -/
  calls : start.calls = CallStack.empty
  /-- Nothing is reported. -/
  events : start.events = []
  /-- Variables keep their shapes. -/
  shapes : store.KeepsShapes start.store
  /-- References keep leading to variables. -/
  resolves : store.Resolves → start.store.Resolves

section
variable {program : Program} {entry : ProcCode} {io : VarId} {store : Store} {start : Machine}

/-- The argument on top of its register. -/
theorem Booting.prepared {booted : Machine} (named : program.regs.size ≤ RegId.maxIndex + 1)
    (booting : Booting program store program.regs.size booted)
    (has : booted.registers.Has entry.io) :
    Prepared program entry io store
      { booted with registers := booted.registers.modifyFrames entry.io (some io :: ·) } where
  named := named
  size := by rw [RegisterFile.size_modifyFrames, booting.size]
  has := booting.size ▸ has
  frames := by
    intro reg slot found
    have boots := booting.done (Array.getElem?_eq_some_iff.mp found).1 found
    refine ⟨_, boots, ?_⟩
    rw [RegisterFile.framesOf_modifyFrames has]
    by_cases same : reg = entry.io
    · rw [if_pos same, if_pos same, same]
      rfl
    · rw [if_neg same, if_neg same]
      rfl
  calls := booting.calls
  events := booting.events
  shapes := booting.shapes
  resolves := booting.resolves

/-- What preparing a machine leads to. -/
theorem prepared_of_prepare
    (prepared : prepare program entry io (idle program store) = .ok () start) :
    Prepared program entry io store start := by
  unfold prepare at prepared
  obtain ⟨_, booted, ran, pushed⟩ := bind_apply_eq_ok.mp prepared
  obtain ⟨named, booting⟩ := booted_of_boot ran
  by_cases has : booted.registers.Has entry.io
  · rw [onRegisters_eq_ok (Registers.push_apply has (some io))] at pushed
    cases pushed
    exact booting.prepared named has
  · rw [onRegisters_eq_error (Registers.push_apply_of_not_has has (some io))] at pushed
    cases pushed

/-- A machine can be prepared if the registers have identifiers, and the argument a register. -/
theorem exists_prepare (store : Store) (io : VarId) (named : program.regs.size ≤ RegId.maxIndex + 1)
    (has : entry.io.index < program.regs.size) :
    ∃ start, prepare program entry io (idle program store) = .ok () start := by
  obtain ⟨booted, ran, booting⟩ := exists_boot store named
  have inFile : booted.registers.Has entry.io := by
    unfold RegisterFile.Has
    rw [booting.size]
    exact has
  refine ⟨{ booted with registers := booted.registers.modifyFrames entry.io (some io :: ·) }, ?_⟩
  unfold prepare
  rw [bind_apply, ran]
  exact onRegisters_eq_ok (Registers.push_apply inFile (some io)) _ _ _

/-- The number of frames at the start: one for a static register, and one more for the argument. -/
theorem Prepared.depth_eq {module : Module} (prepared : Prepared program entry io store start)
    (compiles : Compiles module program) (reg : RegId) :
    start.registers.depth reg =
      (if module.isStatic reg then 1 else 0) + (if reg = entry.io then 1 else 0) := by
  have has := prepared.has
  rw [RegisterFile.depth_eq]
  cases found : program.regs[reg.index]? with
  | none =>
      -- a register that is not there is neither static nor the argument
      have outside := Array.getElem?_eq_none_iff.mp found
      have notIo : reg ≠ entry.io := by
        rintro rfl
        omega
      have notError : reg ≠ RegId.error := by
        rintro rfl
        have : RegId.error.index = 0 := rfl
        omega
      have undeclared : module.reg? reg = none := by
        unfold Module.reg?
        rw [Array.getElem?_eq_none_iff, ← compiles.regs_size]
        exact outside
      have noFrames : start.registers.framesOf reg = [] := by
        unfold RegisterFile.framesOf
        rw [Array.getElem?_eq_none (by rw [prepared.size]; exact outside)]
        rfl
      rw [noFrames, if_neg notIo, Module.isStatic, undeclared]
      simp [notError]
  | some slot =>
      -- below the argument there is one frame if the register is static, by the cases of `Boots`
      obtain ⟨base, boots, frames⟩ := prepared.frames found
      obtain ⟨spec, declared, resolves⟩ := compiles.reg found
      have isStatic : module.isStatic reg = (reg == RegId.error ||
          (slot.persistent.isSome || slot.flags.contains RegFlags.threadLocal)) := by
        unfold Module.isStatic Module.reg?
        rw [declared, resolves.persistent, resolves.flags]
        rfl
      have length : base.length = if module.isStatic reg then 1 else 0 := by
        rw [isStatic]
        unfold RegSlot.Boots at boots
        by_cases fresh : reg = RegId.error ∨ slot.flags.contains RegFlags.threadLocal = true
        · rw [if_pos fresh] at boots
          obtain ⟨id, rfl, -⟩ := boots
          rcases fresh with isError | threadLocal
          · simp [isError]
          · simp [threadLocal]
        · rw [if_neg fresh] at boots
          obtain ⟨notError, notLocal⟩ := not_or.mp fresh
          by_cases shared : slot.persistent.isSome = true
          · rw [if_pos shared] at boots
            rw [boots]
            simp [shared]
          · rw [if_neg shared] at boots
            rw [boots]
            simp [notError, notLocal, shared]
      rw [frames, List.length_append, length, Nat.add_comm]
      congr 1
      split <;> rfl

end

end Machine

end ScopeMachine
