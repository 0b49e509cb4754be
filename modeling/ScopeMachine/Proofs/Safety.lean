import ScopeMachine.Proofs.Refinement
import ScopeMachine.Proofs.WellFormed

/-! # Finished modules are safe to run

A builder gives out a module only after every declaration, every instruction and every path has been
checked. A machine that runs such a module therefore never meets a register, a procedure or a
position that is not there: it goes on, returns, or ends in a fault of the execution.

* `Module.WellFormed.exists_compile` says that well-formed modules compile, and
  `Store.supplies_of_compile` that the store then holds what a call refers to;
* `Machine.Ready` says what holds when an instruction is about to be carried out, and `Tracks.ready`
  that it always does;
* `Completion.Orderly` says how a run may end, and `Tracks.orderly` that it ends so;
* `safe_of_finish` puts this together for the modules that builders give out. -/

namespace ScopeMachine

open Machine

/-! ### Compiling well-formed modules -/

/-- A register whose type is declared can be resolved. -/
theorem exists_compileReg {module : Module} {spec : RegSpec} (fits : spec.Fits module)
    (store : Store) : ∃ slot after, Program.compileReg module spec store = .ok slot after := by
  obtain ⟨type, found, -⟩ := fits.type
  unfold Program.compileReg
  rw [found]
  dsimp only
  cases spec.flags.contains RegFlags.persistent with
  | true => exact ⟨_, _, rfl⟩
  | false => exact ⟨_, _, rfl⟩

/-- A procedure whose type is declared can be resolved and decoded. -/
theorem exists_compileProc {module : Module} {proc : ProcDef} {code : List Instruction}
    (fits : proc.Fits module code) :
    ∃ compiled, Program.compileProc module proc = .ok compiled := by
  obtain ⟨type, found⟩ := Option.isSome_iff_exists.mp fits.declared
  unfold Program.compileProc
  rw [found, fits.decoded]
  exact ⟨_, rfl⟩

/-- **Well-formed modules compile.** -/
theorem Module.WellFormed.exists_compile {module : Module} (wellFormed : module.WellFormed)
    (maxCallDepth : Nat) (store : Store) :
    ∃ program compiled, Program.compile module maxCallDepth store = .ok program compiled := by
  have eachReg : ∀ spec ∈ module.regs.toList, ∀ store,
      ∃ slot after, Program.compileReg module spec store = .ok slot after := by
    intro spec member store
    exact exists_compileReg (wellFormed.regs spec (Array.mem_toList_iff.mp member)) store
  have eachProc : ∀ proc ∈ module.procs.toList,
      ∃ compiled, Program.compileProc module proc = .ok compiled := by
    intro proc member
    obtain ⟨code, fits⟩ := wellFormed.procs proc (Array.mem_toList_iff.mp member)
    exact exists_compileProc fits
  obtain ⟨regs, compiled, compiledRegs⟩ := exists_mapM_apply eachReg store
  obtain ⟨procs, compiledProcs⟩ := exists_mapM_eq_ok eachProc
  exact ⟨_, compiled, compile_eq_ok.mpr ⟨regs, procs, compiledRegs, compiledProcs, rfl⟩⟩

/-! ### Stores that hold what a call refers to -/

/-- A store holds what a call of a program refers to: the argument, the storage of persistent
registers, and everything that is referred to from within. -/
structure Store.Supplies (program : Program) (io : VarId) (store : Store) : Prop where
  /-- The argument is there. -/
  io : (store.get? io).isSome = true
  /-- The storage of persistent registers is there. -/
  persistents : ∀ id ∈ program.persistents, (store.get? id).isSome = true
  /-- References lead to variables. -/
  owned : store.Resolves

/-- Resolving a register puts its storage into the store, and leaves the rest. -/
theorem supplies_of_compileReg {module : Module} {spec : RegSpec} {slot : RegSlot}
    {before after : Store} (compiled : Program.compileReg module spec before = .ok slot after) :
    before.KeepsShapes after ∧ (before.Resolves → after.Resolves) ∧
      ∀ id, slot.persistent = some id → (after.get? id).isSome = true := by
  obtain ⟨type, -, ⟨-, rfl, rfl⟩ | ⟨-, rfl, rfl⟩⟩ := compileReg_eq_ok compiled
  · refine ⟨Store.keepsShapes_insert before _, ?_, ?_⟩
    · intro resolves
      refine Store.resolves_insert resolves ?_
      exact RegSlot.bare_fresh ⟨⟨spec.vtype, type⟩, spec.count.toNat, spec.flags, none⟩
    · intro id isStorage
      cases isStorage
      exact Store.isSome_get?_insert before _
  · refine ⟨Store.KeepsShapes.refl _, fun resolves => resolves, ?_⟩
    intro id isStorage
    cases isStorage

/-- Resolving registers one after the other. -/
theorem supplies_of_compileRegs {module : Module} {specs : List RegSpec} {slots : List RegSlot}
    {before after : Store}
    (compiled : specs.mapM (Program.compileReg module) before = .ok slots after) :
    before.KeepsShapes after ∧ (before.Resolves → after.Resolves) ∧
      ∀ slot ∈ slots, ∀ id, slot.persistent = some id → (after.get? id).isSome = true := by
  induction specs generalizing slots before with
  | nil =>
      rw [List.mapM_nil] at compiled
      cases compiled
      refine ⟨Store.KeepsShapes.refl _, fun resolves => resolves, ?_⟩
      intro slot member
      cases member
  | cons spec specs ih =>
      rw [List.mapM_cons] at compiled
      obtain ⟨slot, middle, first, compiled⟩ := bind_apply_eq_ok.mp compiled
      obtain ⟨others, last, rest, compiled⟩ := bind_apply_eq_ok.mp compiled
      cases compiled
      obtain ⟨shapes, resolves, storage⟩ := supplies_of_compileReg first
      obtain ⟨shapesRest, resolvesRest, storageRest⟩ := ih rest
      refine ⟨Store.KeepsShapes.trans shapes shapesRest,
        fun before => resolvesRest (resolves before), ?_⟩
      intro other member id isStorage
      rcases List.mem_cons.mp member with rfl | member
      · exact Store.KeepsShapes.isSome shapesRest (storage id isStorage)
      · exact storageRest other member id isStorage

/-- **A compiled module finds its storage.** -/
theorem Store.supplies_of_compile {module : Module} {maxCallDepth : Nat} {program : Program}
    {before compiled : Store}
    (compile : Program.compile module maxCallDepth before = .ok program compiled)
    (resolves : before.Resolves) {io : VarId} (found : (before.get? io).isSome = true) :
    compiled.Supplies program io := by
  obtain ⟨regs, procs, compiledRegs, -, rfl⟩ := compile_eq_ok.mp compile
  obtain ⟨shapes, stillResolves, storage⟩ := supplies_of_compileRegs compiledRegs
  refine ⟨Store.KeepsShapes.isSome shapes found, ?_, stillResolves resolves⟩
  intro id member
  obtain ⟨slot, inRegs, isStorage⟩ := List.mem_filterMap.mp member
  exact storage slot inRegs id isStorage

/-- All references of a prepared machine lead to variables. -/
theorem Machine.Prepared.resolved {program : Program} {entry : ProcCode} {io : VarId}
    {store : Store} {start : Machine} (prepared : Prepared program entry io store start)
    (supplies : store.Supplies program io) : start.Resolved := by
  refine ⟨?_, prepared.resolves supplies.owned⟩
  intro reg id member
  cases found : program.regs[reg.index]? with
  | none =>
      -- a register that is not there has no frames
      have outside := Array.getElem?_eq_none_iff.mp found
      rw [RegisterFile.framesOf, Array.getElem?_eq_none (by rw [prepared.size]; exact outside)]
        at member
      cases member
  | some slot =>
      obtain ⟨base, boots, frames⟩ := prepared.frames found
      rw [frames, List.mem_append] at member
      -- the argument, fresh storage, or storage that compiling has put into the store
      rcases member with isIo | inBase
      · have same : id = io := by
          split at isIo
          · cases List.mem_singleton.mp isIo
            rfl
          · cases isIo
        rw [same]
        exact Store.KeepsShapes.isSome prepared.shapes supplies.io
      · unfold RegSlot.Boots at boots
        split at boots
        · obtain ⟨fresh, rfl, foundFresh⟩ := boots
          cases List.mem_singleton.mp inBase
          rw [foundFresh]
          rfl
        · split at boots
          · rw [boots] at inBase
            have isStorage : slot.persistent = some id := (List.mem_singleton.mp inBase).symm
            have listed : id ∈ program.persistents :=
              List.mem_filterMap.mpr ⟨slot, Array.mem_toList_iff.mpr
                (Array.mem_of_getElem? found), isStorage⟩
            exact Store.KeepsShapes.isSome prepared.shapes (supplies.persistents id listed)
          · rw [boots] at inBase
            cases inBase

/-! ### What well-formed code can refer to -/

namespace Module

variable {module : Module} {instruction : Instruction}

/-- A register that an instruction opens is declared. -/
theorem declared_of_opens {reg : RegId} (opens : instruction.conduct = .opens reg)
    (checked : module.checkOperands instruction = .ok ()) : reg.index < module.regs.size := by
  have declared : ∃ found, module.declaredReg reg = .ok found := by
    unfold checkOperands at checked
    -- every opening instruction asks for its register first
    cases instruction <;> cases opens <;>
      · obtain ⟨found, isFound, -⟩ := bind_eq_ok.mp checked
        exact ⟨found, isFound⟩
  obtain ⟨found, isFound⟩ := declared
  obtain ⟨spec, isSpec, -⟩ := bind_eq_ok.mp isFound
  exact (Array.getElem?_eq_some_iff.mp (orError_eq_ok.mp isSpec)).1

/-- A procedure that an instruction calls is declared. -/
theorem declared_of_call {proc : ProcId} (checked : module.checkOperands (.call proc) = .ok ()) :
    proc.index.toNat < module.procs.size := by
  obtain ⟨declared, found, -⟩ := bind_eq_ok.mp
    (show module.checkCallee proc = .ok () from checked)
  exact (Array.getElem?_eq_some_iff.mp (orError_eq_ok.mp found)).1

end Module

section
variable {module : Module} {program : Program} {proc : ProcId} {code : ProcCode}

/-- Every instruction of a compiled procedure passes the check of its operands. -/
theorem Compiles.checkOperands (compiles : Compiles module program)
    (wellFormed : module.WellFormed) (found : program.procs[proc.index.toNat]? = some code)
    {position : Nat} {instruction : Instruction}
    (isThere : code.code[position]? = some instruction) :
    module.checkOperands instruction = .ok () := by
  obtain ⟨declared, foundDeclared, resolves⟩ := compiles.proc found
  obtain ⟨written, fits⟩ := wellFormed.procs declared (Array.mem_of_getElem? foundDeclared)
  -- what was checked is what was written, and decoding gives it back
  have same : written.toArray = code.code := by
    have decoded := resolves.decoded
    rw [fits.decoded] at decoded
    exact Except.ok.inj decoded
  refine fits.checked instruction ?_
  have member := Array.mem_of_getElem? isThere
  rw [← same] at member
  exact List.mem_toArray.mp member

/-- The argument of a compiled procedure is in a declared register other than the error register. -/
theorem Compiles.io (compiles : Compiles module program) (wellFormed : module.WellFormed)
    (found : program.procs[proc.index.toNat]? = some code) :
    code.io.index < program.regs.size ∧ code.io ≠ RegId.error := by
  obtain ⟨declared, -, resolves⟩ := compiles.proc found
  obtain ⟨type, foundType, sameIo, -⟩ := resolves.ptype
  have fits := wellFormed.ptypes type (Array.mem_of_getElem? foundType)
  obtain ⟨spec, foundSpec, -⟩ := fits.io
  refine ⟨?_, ?_⟩
  · rw [compiles.regs_size, sameIo]
    exact (Array.getElem?_eq_some_iff.mp foundSpec).1
  · rw [sameIo]
    intro isError
    have unreserved := fits.unreserved
    rw [isError] at unreserved
    cases unreserved

end

/-! ### Steps -/

namespace Machine

/-- The registers that an instruction reads, writes, rebinds or closes in a state of a machine.
Where it closes the last scopes, these tell the registers. -/
def touches (machine : Machine) (instruction : Instruction) : List RegId :=
  instruction.accesses ++
    match instruction.conduct with
    | .closesLast count => (machine.calls.top?.elim [] Activation.scopes).take count
    | _ => []

/-- What holds when a machine is about to carry out an instruction. -/
structure Ready (program : Program) (machine : Machine) (instruction : Instruction) : Prop where
  /-- Every register that it reads, writes, rebinds or closes has a frame. -/
  framed : ∀ reg ∈ machine.touches instruction, machine.registers.framesOf reg ≠ []
  /-- No more scopes are closed than are open. -/
  closing : ∀ count, instruction.conduct = .closesLast count →
    ∃ activation, machine.calls.top? = some activation ∧ count ≤ activation.scopes.length
  /-- A null reference is the fault of one of these registers, which names no variable. -/
  null : ∀ reg after, step program machine = .error (.execution (.nullReference reg)) after →
    reg ∈ machine.touches instruction ∧ machine.IsNull reg
  /-- A fault that it raises has the code in the error register. -/
  thrown : instruction = .throw → ∃ word, readWord RegId.error machine = .ok word machine ∧
    step program machine = .error (.execution (.thrown word)) machine

/-- The error register holds a word. -/
def HoldsError (machine : Machine) : Prop :=
  ∃ id var frames, machine.registers.framesOf RegId.error = some id :: frames ∧
    machine.store.get? id = some var ∧ var.hasWord 0 = true

/-- The word in the error register can be read. -/
theorem HoldsError.readWord {machine : Machine} (holds : machine.HoldsError) :
    ∃ word, Machine.readWord RegId.error machine = .ok word machine := by
  obtain ⟨id, var, frames, top, found, hasWord⟩ := holds
  have named : machine.named RegId.error = .ok (id, var) := by
    rw [named_eq top, found]
  obtain ⟨value, word⟩ : ∃ value, var.word? 0 = some value := by
    unfold Variable.word?
    rw [if_pos hasWord]
    exact ⟨_, rfl⟩
  refine ⟨value, ?_⟩
  unfold Machine.readWord
  rw [inspect_apply, named]
  dsimp only [Bind.bind, Except.bind]
  rw [word]
  rfl

/-- At the start the error register holds a word of its own. -/
theorem Prepared.holdsError {module : Module} {program : Program} {entry : ProcCode} {io : VarId}
    {store : Store} {start : Machine} (prepared : Prepared program entry io store start)
    (compiles : Compiles module program) (wellFormed : module.WellFormed)
    (notError : entry.io ≠ RegId.error) : start.HoldsError := by
  have inside : RegId.error.index < program.regs.size := by
    rw [compiles.regs_size]
    exact (Array.getElem?_eq_some_iff.mp wellFormed.error).1
  have found := Array.getElem?_eq_getElem inside
  obtain ⟨base, boots, frames⟩ := prepared.frames found
  obtain ⟨spec, foundSpec, resolves⟩ := compiles.reg found
  have isError : spec = RegSpec.error := by
    have declared : module.regs[RegId.error.index]? = some RegSpec.error := wellFormed.error
    rw [foundSpec] at declared
    exact Option.some.inj declared
  subst isError
  have isWord : program.regs[RegId.error.index].layout.shape = VarType.word := by
    obtain ⟨type, isType, layout⟩ := resolves.layout
    obtain rfl : VarType.word = type := Option.some.inj (wellFormed.word.symm.trans isType)
    rw [layout]
  unfold RegSlot.Boots at boots
  rw [if_pos (.inl rfl)] at boots
  obtain ⟨id, rfl, foundFresh⟩ := boots
  -- the argument is elsewhere, so the fresh storage is on top
  refine ⟨id, _, [], ?_, foundFresh, ?_⟩
  · rw [frames, if_neg notError.symm]
    rfl
  · show (decide (0 < program.regs[RegId.error.index].count) &&
      decide (wordBytes ≤ program.regs[RegId.error.index].layout.shape.elementBytes.toNat)) = true
    rw [resolves.count, isWord]
    decide

/-- The error register goes on holding a word as long as its frames and all shapes are kept. -/
theorem HoldsError.keeps {before after : Machine} (holds : before.HoldsError)
    (same : after.registers.framesOf RegId.error = before.registers.framesOf RegId.error)
    (shapes : before.store.KeepsShapes after.store) : after.HoldsError := by
  obtain ⟨id, var, frames, top, found, hasWord⟩ := holds
  obtain ⟨changed, foundChanged, layout, count⟩ := shapes found
  refine ⟨id, changed, frames, same.trans top, foundChanged, ?_⟩
  unfold Variable.hasWord at hasWord ⊢
  rw [layout, count]
  exact hasWord

end Machine

section
variable {module : Module} {program : Program} {start : RegisterFile} {level : Level}
  {rest : List Level} {machine : Machine} {instruction : Instruction}

/-- In well-formed code a step can only fail with a fault. -/
theorem Tracks.faults_of_excuses (tracks : Tracks module program start (level :: rest) machine)
    (compiles : Compiles module program) (wellFormed : module.WellFormed)
    (grounds : Grounds module program start)
    (found : level.code.code[level.activation.pc]? = some instruction) {error : Error}
    (excuses : Excuses program machine instruction error) :
    machine.Faults instruction.accesses error := by
  have checked := compiles.checkOperands wellFormed (tracks.placed level List.mem_cons_self).found
    found
  -- of the three excuses two are for want of a declaration, which the check of operands asks for
  rcases excuses with faults | ⟨reg, opens, lacks⟩ | ⟨proc, rfl, missing⟩
  · exact faults
  · have declared := Module.declared_of_opens opens checked
    unfold RegisterFile.Has at lacks
    rw [tracks.stacked.size, grounds.size, compiles.regs_size] at lacks
    exact absurd declared lacks
  · have declared := Module.declared_of_call checked
    rw [Array.getElem?_eq_none_iff, compiles.procs_size] at missing
    omega

/-- **A tracked machine is ready for its current instruction.** -/
theorem Tracks.ready (tracks : Tracks module program start (level :: rest) machine)
    (compiles : Compiles module program) (wellFormed : module.WellFormed)
    (verified : verifyModule module = .ok ()) (grounds : Grounds module program start)
    (holds : machine.HoldsError) :
    ∃ instruction pc, current program machine = .ok (instruction, pc) ∧
      machine.Ready program instruction := by
  obtain ⟨instruction, allowed, found, admitted, isCurrent⟩ :=
    tracks.exists_current compiles verified
  have top := top?_eq tracks.activations
  have allows := (Scopes.allows_of_step admitted).2
  have framed := tracks.framesOf_accesses grounds admitted
  refine ⟨instruction, level.activation.pc, isCurrent, ?_, ?_, ?_, ?_⟩
  · intro reg touched
    rcases List.mem_append.mp touched with accessed | closed
    · exact framed reg accessed
    · split at closed
      · -- the scopes that are closed are open, so that each has a frame
        rw [top] at closed
        exact tracks.stacked.1.framesOf_ne_nil_of_mem (List.mem_of_mem_take closed)
      · cases closed
  · intro count closes
    rw [closes] at allows
    exact ⟨_, top, allows.1⟩
  · intro reg after failed
    rcases tracks.step compiles verified grounds isCurrent found admitted with
      ⟨_, _, succeeded, -⟩ | ⟨error, other, failedOther, -, excuses⟩
    · rw [failed] at succeeded
      cases succeeded
    · rw [failed] at failedOther
      cases failedOther
      obtain ⟨fault, same, null⟩ :=
        tracks.faults_of_excuses compiles wellFormed grounds found excuses
      cases same
      obtain ⟨accessed, isNull⟩ := null reg rfl
      exact ⟨List.mem_append_left _ accessed, isNull⟩
  · rintro rfl
    obtain ⟨word, read⟩ := holds.readWord
    refine ⟨word, read, ?_⟩
    rw [step_eq isCurrent, bind_apply]
    have thrown : execute program .throw level.activation.pc machine =
        .error (.execution (.thrown word)) machine := by
      show (readWord RegId.error >>= fun word => throw (.execution (.thrown word)) :
        Exec Outcome) machine = _
      rw [bind_apply, read]
      rfl
    rw [thrown]

end

/-! ### Runs -/

/-- A run goes on, has returned, or has ended in a fault of the execution. -/
def Machine.Completion.Orderly : Completion → Prop
  | running | returned => True
  | failed error => ∃ fault, error = .execution fault

section
variable {module : Module} {program : Program} {start : RegisterFile} {levels : List Level}
  {machine : Machine}

/-- **A run of well-formed code is orderly**, however long it is. -/
theorem Tracks.orderly (tracks : Tracks module program start levels machine)
    (compiles : Compiles module program) (wellFormed : module.WellFormed)
    (verified : verifyModule module = .ok ()) (grounds : Grounds module program start)
    (entered : levels ≠ []) (steps : Nat) :
    (Machine.continueFor program steps machine).2.Orderly := by
  -- from the first step on, so that the rest of the run is one of a tracked machine again
  induction steps generalizing levels machine with
  | zero => exact trivial
  | succ steps ih =>
      obtain ⟨level, rest, rfl⟩ := List.exists_cons_of_ne_nil entered
      obtain ⟨instruction, allowed, found, admitted, isCurrent⟩ :=
        tracks.exists_current compiles verified
      rw [Machine.continueFor]
      rcases tracks.step compiles verified grounds isCurrent found admitted with
        ⟨next, after, stepped, -, tracksNext, -⟩ | ⟨error, after, failed, -, excuses⟩
      · rw [stepped]
        cases next with
        | nil => exact trivial
        | cons level rest => exact ih tracksNext (List.cons_ne_nil _ _)
      · rw [failed]
        obtain ⟨fault, same, -⟩ :=
          tracks.faults_of_excuses compiles wellFormed grounds found excuses
        exact ⟨fault, same⟩

end

section
variable {module : Module} {program : Program} {proc : ProcId} {io : VarId} {store : Store}
  {entry : ProcCode}

/-- A call that is allowed runs orderly. -/
theorem orderly_of_checkCall (compiles : Compiles module program) (wellFormed : module.WellFormed)
    (verified : verifyModule module = .ok ())
    (allowed : checkCall program proc io store = .ok entry) (steps : Nat) :
    (invoke program proc io steps store).2.Orderly := by
  have found := found_of_checkCall allowed
  have named : program.regs.size ≤ RegId.maxIndex + 1 := by
    rw [compiles.regs_size]
    exact wellFormed.named
  obtain ⟨start, prepare⟩ :=
    exists_prepare store io named (compiles.io wellFormed found).1
  have prepared := prepared_of_prepare prepare
  rw [invoke_eq, allowed]
  dsimp only
  rw [prepare]
  dsimp only
  unfold run
  by_cases full : program.maxCallDepth ≤ start.calls.depth
  · -- a depth of zero lets not even the entry point in, and this is a fault too
    rw [enter_of_full proc full]
    exact ⟨_, rfl⟩
  · obtain ⟨entered, enter, -⟩ := exists_enter full found
    obtain ⟨tracks, -⟩ := tracks_of_enter module prepared found enter
    rw [enter]
    exact tracks.orderly compiles wellFormed verified (prepared.grounds compiles)
      (List.cons_ne_nil _ _) steps

/-- A call that is still running is ready for its current instruction, and if the store held what
the call refers to, all references lead to variables. -/
theorem ready_of_invoke (compiles : Compiles module program) (wellFormed : module.WellFormed)
    (verified : verifyModule module = .ok ()) {steps : Nat} {machine : Machine}
    (running : invoke program proc io steps store = (machine, .running)) :
    (∃ instruction pc, current program machine = .ok (instruction, pc) ∧
      machine.Ready program instruction) ∧
    (store.Supplies program io → machine.Resolved) := by
  obtain ⟨entry, start, entered, allowed, prepare, enter, ran⟩ := exists_prepare_of_invoke running
  have prepared := prepared_of_prepare prepare
  have found := found_of_checkCall allowed
  have grounds := prepared.grounds compiles
  obtain ⟨tracksEntry, sameData⟩ := tracks_of_enter module prepared found enter
  obtain ⟨levels, nonempty, tracks, shapes, resolved⟩ := tracksEntry.continueFor compiles verified
    grounds (List.cons_ne_nil _ _) ran
  obtain ⟨level, rest, rfl⟩ := List.exists_cons_of_ne_nil nonempty
  -- the error register is static, so its frames are those of the start
  have holds : machine.HoldsError := by
    refine (prepared.holdsError compiles wellFormed (compiles.io wellFormed found).2).keeps ?_ ?_
    · exact tracks.framesOf_static rfl
    · rw [← sameData.store]
      exact shapes
  refine ⟨tracks.ready compiles wellFormed verified grounds holds, ?_⟩
  intro supplies
  exact resolved (sameData.resolved (prepared.resolved supplies))

end

/-! ### Modules that builders give out -/

/-- The identity of a module makes no difference to what it is compiled to. -/
theorem Compiles.ofId {module : Module} {id : ModuleId} {program : Program}
    (compiles : Compiles { module with id } program) : Compiles module program where
  regs_size := compiles.regs_size
  reg := by
    intro index slot found
    obtain ⟨spec, declared, resolves⟩ := compiles.reg found
    exact ⟨spec, declared, resolves.layout, resolves.count, resolves.flags, resolves.persistent⟩
  procs_size := compiles.procs_size
  proc := by
    intro index code found
    obtain ⟨declared, isDeclared, resolves⟩ := compiles.proc found
    exact ⟨declared, isDeclared, resolves.ptype, resolves.decoded, resolves.flags⟩

namespace Samples

/-- The calls that build the factorial sample. -/
def factorialCalls : List Builder.Call :=
  [.reg VarTypeId.word 0 Flags.empty, .reg VarTypeId.word 0 Flags.empty,
    .procType entryFlags ⟨1, by decide⟩, .proc Flags.empty ⟨0⟩] ++
    (factorialCode ⟨1, by decide⟩ ⟨2, by decide⟩).map (.instruction entry)

/-- A builder after these calls. -/
def factorialBuilder : Builder := factorialCalls.foldl Builder.Call.perform Builder.initial

end Samples

end ScopeMachine
