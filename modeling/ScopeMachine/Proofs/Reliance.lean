import Mathlib.Data.List.Find
import ScopeMachine.Proofs.Conduct
import ScopeMachine.Proofs.WellFormed

/-! # What the checks of an instruction rely on

An instruction is checked against a module that goes on changing. Neither the check of its operands
nor the scope rules look at the whole module: the scope rules ask which of the named registers are
static and where a callee takes its argument, and no check looks at the code of a procedure.

* `ScopeContext.Agree` says that two contexts tell the same about what an instruction names;
  `Scopes.step_congr` and `Tracker.check_congr` that the scope rules then give the same answer;
* `Module.SameDeclarations` relates modules that differ in code alone, which no check can tell
  apart: `Module.SameDeclarations.agree` and `Module.SameDeclarations.checkOperands_eq`;
* `Module.Grows.agree` says that a module can grow around an instruction that has been checked. -/

namespace ScopeMachine

/-! ### Contexts that agree -/

/-- Two contexts tell the same about what an instruction names. -/
structure ScopeContext.Agree (left right : ScopeContext) (instruction : Instruction) : Prop where
  /-- The procedure takes its argument in the same register. -/
  io : left.io = right.io
  /-- The same of the named registers are static. -/
  static : ∀ reg ∈ instruction.registers, left.isStatic reg = right.isStatic reg
  /-- A callee takes its argument in the same register, which is static in both or in neither. -/
  callee : ∀ proc, instruction = .call proc →
    left.module.ioOf? proc = right.module.ioOf? proc ∧
      ∀ io ∈ left.module.ioOf? proc, left.isStatic io = right.isStatic io

namespace Scopes

variable {left right : ScopeContext} {instruction : Instruction}

/-- A register that is static in both or in neither may be used in both or in neither. -/
theorem allocates_congr (scopes : Scopes) (io : left.io = right.io) {reg : RegId}
    (static : left.isStatic reg = right.isStatic reg) :
    scopes.allocates left reg = scopes.allocates right reg := by
  simp only [allocates, io, static]

/-- The demand on a row of registers depends on which of them are static. -/
theorem require_congr (scopes : Scopes) (io : left.io = right.io) {regs : List RegId}
    (static : ∀ reg ∈ regs, left.isStatic reg = right.isStatic reg) :
    scopes.require left regs = scopes.require right regs := by
  have same : (regs.find? fun reg => !scopes.allocates left reg) =
      regs.find? fun reg => !scopes.allocates right reg :=
    List.find?_congr fun reg member => by rw [scopes.allocates_congr io (static reg member)]
  simp only [require, same]

/-- Only a register operand or the argument of a callee is used in place. -/
theorem mem_usedBy {context : ScopeContext} {reg : RegId}
    (used : reg ∈ usedBy context instruction) :
    reg ∈ instruction.registers ∨
      ∃ proc, instruction = .call proc ∧ context.module.ioOf? proc = some reg := by
  cases instruction with
  | call proc => exact .inr ⟨proc, rfl, Option.mem_toList.mp used⟩
  | pushh other =>
      rw [usedBy] at used
      split at used
      · cases used
      · exact .inl used
  | ldr dst src slot => exact .inl (List.mem_cons_of_mem _ used)
  | jmp | als | alsr | frs | frsl | push | pushr | pop | popl | throw | ret => cases used
  | _ => exact .inl used

/-- Contexts that agree ask for the same registers. -/
theorem usedBy_congr (agree : left.Agree right instruction) :
    usedBy left instruction = usedBy right instruction := by
  cases instruction with
  | call proc => simp only [usedBy, (agree.callee proc rfl).1]
  | pushh reg => simp only [usedBy, agree.static reg List.mem_cons_self]
  | _ => rfl

/-- **The scope rules rely on what an instruction names.** -/
theorem step_congr (agree : left.Agree right instruction) (scopes : Scopes) :
    scopes.step left instruction = scopes.step right instruction := by
  have required : scopes.require left (usedBy left instruction) =
      scopes.require right (usedBy right instruction) := by
    rw [← usedBy_congr agree]
    refine scopes.require_congr agree.io fun reg used => ?_
    rcases mem_usedBy used with named | ⟨proc, isCall, isIo⟩
    · exact agree.static reg named
    · exact (agree.callee proc isCall).2 reg isIo
  unfold step
  rw [required]
  congr 1
  funext _
  -- what opens, closes or rebinds a frame asks about its register once more
  cases instruction with
  | als | alsr | push | pushr | pushh =>
      simp only [enter, agree.static _ List.mem_cons_self]
  | frs | pop => simp only [close, agree.static _ List.mem_cons_self]
  | ldr dst src slot =>
      simp only [scopes.allocates_congr agree.io (agree.static dst List.mem_cons_self)]
  | _ => rfl

end Scopes

/-- A tracker gives the same answer in contexts that agree. -/
theorem Tracker.check_congr {left right : ScopeContext} {instruction : Instruction}
    (agree : left.Agree right instruction) (tracker : Tracker) :
    tracker.check left instruction = tracker.check right instruction := by
  simp only [check, Scopes.step_congr agree]

/-! ### Modules that differ in code alone -/

/-- Two modules declare the same types, registers and procedures. They may differ in the flags and
the code of procedures, and in their identity. -/
structure Module.SameDeclarations (left right : Module) : Prop where
  /-- The variable types are the same. -/
  vtypes : left.vtypes = right.vtypes
  /-- The procedure types are the same. -/
  ptypes : left.ptypes = right.ptypes
  /-- The registers are the same. -/
  regs : left.regs = right.regs
  /-- The procedures have the same types. -/
  procs : left.procs.map ProcDef.ptype = right.procs.map ProcDef.ptype

namespace Module.SameDeclarations

variable {left right : Module}

/-- A procedure may be changed as long as it keeps its type. -/
theorem modify (module : Module) (index : Nat) {change : ProcDef → ProcDef}
    (keeps : ∀ proc, (change proc).ptype = proc.ptype) :
    SameDeclarations module { module with procs := module.procs.modify index change } := by
  refine ⟨rfl, rfl, rfl, ?_⟩
  apply Array.ext_getElem?
  intro position
  simp only [Array.getElem?_map, Array.getElem?_modify]
  split
  · simp [Function.comp_def, keeps]
  · rfl

/-- Variable types are found in both or in neither. -/
theorem vtype?_eq (same : SameDeclarations left right) (id : VarTypeId) :
    left.vtype? id = right.vtype? id := by
  simp only [vtype?, same.vtypes]

/-- Procedure types are found in both or in neither. -/
theorem ptype?_eq (same : SameDeclarations left right) (id : ProcTypeId) :
    left.ptype? id = right.ptype? id := by
  simp only [ptype?, same.ptypes]

/-- Registers are found in both or in neither. -/
theorem reg?_eq (same : SameDeclarations left right) (id : RegId) :
    left.reg? id = right.reg? id := by
  simp only [reg?, same.regs]

/-- Procedures have the same type in both. -/
theorem map_ptype_eq (same : SameDeclarations left right) (id : ProcId) :
    (left.proc? id).map ProcDef.ptype = (right.proc? id).map ProcDef.ptype := by
  have entries := congrArg (·[id.index.toNat]?) same.procs
  simpa only [proc?, Array.getElem?_map] using entries

/-- Procedures take their argument in the same register. -/
theorem ioOf?_eq (same : SameDeclarations left right) (id : ProcId) :
    left.ioOf? id = right.ioOf? id := by
  have split : ∀ module : Module, module.ioOf? id =
      ((module.proc? id).map ProcDef.ptype).bind fun ptype =>
        (module.ptype? ptype).map ProcType.io := by
    intro module
    rw [ioOf?, Option.bind_map]
    rfl
  rw [split left, split right, same.map_ptype_eq id]
  simp only [same.ptype?_eq]

/-- The same registers are static. -/
theorem isStatic_eq (same : SameDeclarations left right) (io : RegId) (reg : RegId) :
    ScopeContext.isStatic ⟨left, io⟩ reg = ScopeContext.isStatic ⟨right, io⟩ reg := by
  simp only [ScopeContext.isStatic, same.reg?_eq]

/-- The scope rules cannot tell the modules apart. -/
theorem agree (same : SameDeclarations left right) (io : RegId) (instruction : Instruction) :
    ScopeContext.Agree ⟨left, io⟩ ⟨right, io⟩ instruction where
  io := rfl
  static := fun reg _ => same.isStatic_eq io reg
  callee := fun proc _ => ⟨same.ioOf?_eq proc, fun callee _ => same.isStatic_eq io callee⟩

/-- Registers have the same declaration and the same type. -/
theorem declaredReg_eq (same : SameDeclarations left right) :
    left.declaredReg = right.declaredReg := by
  funext reg
  simp only [declaredReg, same.reg?_eq, same.vtype?_eq]

/-- The same procedures can be called. -/
theorem checkCallee_eq (same : SameDeclarations left right) :
    left.checkCallee = right.checkCallee := by
  funext proc
  have types := same.map_ptype_eq proc
  unfold checkCallee
  cases foundLeft : left.proc? proc with
  | none =>
      rw [foundLeft, Option.map_none, eq_comm, Option.map_eq_none_iff] at types
      rw [types]
      rfl
  | some declared =>
      rw [foundLeft, Option.map_some, eq_comm, Option.map_eq_some_iff] at types
      obtain ⟨other, foundRight, samePtype⟩ := types
      simp only [foundRight, orError, bind, Except.bind, samePtype, same.ptype?_eq]

/-- **The check of operands does not look at code.** -/
theorem checkOperands_eq (same : SameDeclarations left right) :
    left.checkOperands = right.checkOperands := by
  have declared := same.declaredReg_eq
  have callee := same.checkCallee_eq
  have word : left.checkWordReg = right.checkWordReg := by
    funext reg
    simp only [checkWordReg, declared]
  have width : left.checkRegWidth = right.checkRegWidth := by
    funext reg needed
    simp only [checkRegWidth, declared]
  funext instruction
  cases instruction <;> simp only [checkOperands, declared, callee, word, width]

end Module.SameDeclarations

/-! ### Modules that grow -/

namespace Module

variable {module old new : Module} {instruction : Instruction}

/-- A register that can be resolved is declared. -/
theorem declared_of_declaredReg {reg : RegId} {declared : DeclaredReg}
    (found : module.declaredReg reg = .ok declared) : (module.reg? reg).isSome = true := by
  obtain ⟨spec, foundSpec, -⟩ := bind_eq_ok.mp found
  rw [orError_eq_ok.mp foundSpec]
  rfl

/-- A register that holds a word is declared. -/
theorem declared_of_checkWordReg {reg : RegId} (checked : module.checkWordReg reg = .ok ()) :
    (module.reg? reg).isSome = true := by
  obtain ⟨declared, found, -⟩ := bind_eq_ok.mp checked
  exact declared_of_declaredReg found

/-- A register of sufficient width is declared. -/
theorem declared_of_checkRegWidth {reg : RegId} {needed : Nat}
    (checked : module.checkRegWidth reg needed = .ok ()) : (module.reg? reg).isSome = true := by
  obtain ⟨declared, found, -⟩ := bind_eq_ok.mp checked
  exact declared_of_declaredReg found

/-- **All registers that a checked instruction names are declared.** -/
theorem declared_of_checkOperands (checked : module.checkOperands instruction = .ok ()) :
    ∀ reg ∈ instruction.registers, (module.reg? reg).isSome = true := by
  -- the operands are asked for one after the other, mostly in the order in which they are written
  cases instruction with
  | inc | dec | jz | jnz | jgz | jngz =>
      exact List.forall_mem_singleton.mpr (declared_of_checkWordReg checked)
  | cpi1 | cpi2 | cpi4 | cpi8 =>
      exact List.forall_mem_singleton.mpr (declared_of_checkRegWidth checked)
  | als | push | frs | pop | pushh | alsr | pushr =>
      obtain ⟨_, found, -⟩ := bind_eq_ok.mp checked
      exact List.forall_mem_singleton.mpr (declared_of_declaredReg found)
  | jg | jng | je =>
      obtain ⟨_, first, second⟩ := bind_eq_ok.mp checked
      exact List.forall_mem_cons.mpr ⟨declared_of_checkWordReg first,
        List.forall_mem_singleton.mpr (declared_of_checkWordReg second)⟩
  | cpb =>
      obtain ⟨_, first, second⟩ := bind_eq_ok.mp checked
      exact List.forall_mem_cons.mpr ⟨declared_of_checkRegWidth first,
        List.forall_mem_singleton.mpr (declared_of_checkRegWidth second)⟩
  | ldb | stb | str =>
      obtain ⟨_, first, checked⟩ := bind_eq_ok.mp checked
      obtain ⟨_, second, -⟩ := bind_eq_ok.mp checked
      exact List.forall_mem_cons.mpr ⟨declared_of_declaredReg first,
        List.forall_mem_singleton.mpr (declared_of_declaredReg second)⟩
  | ldr =>
      obtain ⟨_, first, checked⟩ := bind_eq_ok.mp checked
      obtain ⟨_, -, checked⟩ := bind_eq_ok.mp checked
      obtain ⟨_, second, -⟩ := bind_eq_ok.mp checked
      exact List.forall_mem_cons.mpr ⟨declared_of_declaredReg first,
        List.forall_mem_singleton.mpr (declared_of_declaredReg second)⟩
  | add | sub | mul =>
      obtain ⟨_, first, checked⟩ := bind_eq_ok.mp checked
      obtain ⟨_, second, third⟩ := bind_eq_ok.mp checked
      exact List.forall_mem_cons.mpr ⟨declared_of_checkWordReg first,
        List.forall_mem_cons.mpr ⟨declared_of_checkWordReg second,
          List.forall_mem_singleton.mpr (declared_of_checkWordReg third)⟩⟩
  | lde =>
      obtain ⟨_, first, checked⟩ := bind_eq_ok.mp checked
      obtain ⟨_, second, checked⟩ := bind_eq_ok.mp checked
      obtain ⟨_, -, third⟩ := bind_eq_ok.mp checked
      exact List.forall_mem_cons.mpr ⟨declared_of_declaredReg first,
        List.forall_mem_cons.mpr ⟨declared_of_declaredReg second,
          List.forall_mem_singleton.mpr (declared_of_checkWordReg third)⟩⟩
  | ste =>
      -- the position is written before the source, but asked for after it
      obtain ⟨_, first, checked⟩ := bind_eq_ok.mp checked
      obtain ⟨_, third, checked⟩ := bind_eq_ok.mp checked
      obtain ⟨_, -, second⟩ := bind_eq_ok.mp checked
      exact List.forall_mem_cons.mpr ⟨declared_of_declaredReg first,
        List.forall_mem_cons.mpr ⟨declared_of_checkWordReg second,
          List.forall_mem_singleton.mpr (declared_of_declaredReg third)⟩⟩
  | jmp | throw | ret | frsl | popl | call =>
      intro reg named
      cases named

/-- A declared register stays static or not. -/
theorem Grows.isStatic_eq (grows : Grows old new) (io : RegId) {reg : RegId}
    (declared : (old.reg? reg).isSome = true) :
    ScopeContext.isStatic ⟨old, io⟩ reg = ScopeContext.isStatic ⟨new, io⟩ reg := by
  obtain ⟨spec, found⟩ := Option.isSome_iff_exists.mp declared
  simp only [ScopeContext.isStatic, found, grows.reg found]

/-- The argument of a declared procedure stays in its register. -/
theorem Grows.ioOf? (grows : Grows old new) {proc : ProcId} {io : RegId}
    (found : old.ioOf? proc = some io) : new.ioOf? proc = some io := by
  obtain ⟨declared, foundProc, hasIo⟩ := Option.bind_eq_some_iff.mp found
  obtain ⟨type, foundType, isIo⟩ := Option.map_eq_some_iff.mp hasIo
  obtain ⟨grown, foundGrown, samePtype⟩ := grows.proc foundProc
  rw [Module.ioOf?, foundGrown, Option.bind_some, samePtype, grows.ptype foundType, Option.map_some,
    isIo]

/-- A procedure that can be called has a register for its argument. -/
theorem exists_ioOf?_of_checkCallee {proc : ProcId} (checked : module.checkCallee proc = .ok ()) :
    ∃ io, module.ioOf? proc = some io := by
  obtain ⟨declared, foundProc, checked⟩ := bind_eq_ok.mp checked
  obtain ⟨type, foundType, -⟩ := bind_eq_ok.mp checked
  refine ⟨type.io, ?_⟩
  rw [Module.ioOf?, orError_eq_ok.mp foundProc, Option.bind_some, orError_eq_ok.mp foundType]
  rfl

/-- The register for a procedure's argument is declared. -/
theorem WellFormed.declared_of_ioOf? (wellFormed : module.WellFormed) {proc : ProcId} {io : RegId}
    (found : module.ioOf? proc = some io) : (module.reg? io).isSome = true := by
  obtain ⟨declared, -, hasIo⟩ := Option.bind_eq_some_iff.mp found
  obtain ⟨type, foundType, rfl⟩ := Option.map_eq_some_iff.mp hasIo
  obtain ⟨spec, foundSpec, -⟩ := (wellFormed.ptypes type (Array.mem_of_getElem? foundType)).io
  rw [foundSpec]
  rfl

/-- **The scope rules go on giving the same answer** for a checked instruction while the module
grows around it. -/
theorem Grows.agree (grows : Grows old new) (wellFormed : old.WellFormed)
    (checked : old.checkOperands instruction = .ok ()) (io : RegId) :
    ScopeContext.Agree ⟨old, io⟩ ⟨new, io⟩ instruction where
  io := rfl
  static := fun reg named => grows.isStatic_eq io (declared_of_checkOperands checked reg named)
  callee := by
    rintro proc rfl
    -- the callee is declared, and so is the register that its type names
    obtain ⟨callee, found⟩ := exists_ioOf?_of_checkCallee checked
    refine ⟨found.trans (grows.ioOf? found).symm, ?_⟩
    intro other isIo
    exact grows.isStatic_eq io (wellFormed.declared_of_ioOf? isIo)

end Module

end ScopeMachine
