import ScopeMachine.Proofs.Start

/-! # Running machines follow the verifier

The verifier looks at one procedure at a time, and a machine has many activations on one register
file. Still each activation is, at every moment, where the verifier's paths say, with the scopes
that they say, and the frames of the registers are those scopes.

* `Level.Placed` puts one activation on a path, and `Tracks` says it of all activations of a
  machine;
* `Moves` lists what one step can do to the activations, and `Tracks.step` says that a step of a
  tracked machine is one of these moves, or fails for one of a few reasons;
* `Machine.invoke_cases` says how a call begins, or why it is refused;
* `Tracks.continueFor` carries this along runs, and `scopes_of_invoke` says it of calls. -/

namespace ScopeMachine

open Machine

/-! ### Activations on paths -/

/-- Paths stay within the code. -/
theorem KeepsDiscipline.lt_size {context : ScopeContext} {code : Array Instruction}
    (keeps : KeepsDiscipline context code) (lands : ControlFlow.JumpsLand code) {position : Nat}
    {scopes : Scopes} (path : Reaches context code position scopes) : position < code.size := by
  have notEnd : position ≠ code.size := by
    rintro rfl
    exact keeps.inside path
  have atMost : position ≤ code.size := by
    cases path with
    | start => exact Nat.zero_le _
    | next path found stepped leads =>
        rcases leads with jump | ⟨-, rfl⟩
        · obtain ⟨target, isTarget, inside⟩ :=
            lands _ _ found (ControlFlow.isJump_of_jumpTarget? jump)
          rw [jump] at isTarget
          obtain rfl := Option.some.inj isTarget
          exact Nat.le_of_lt inside
        · exact (Array.getElem?_eq_some_iff.mp found).1
  omega

/-- An activation is on a path through its procedure, and was entered with an argument. -/
structure Level.Placed (module : Module) (program : Program) (level : Level) : Prop where
  /-- The code is that of the procedure. -/
  found : program.procs[level.activation.proc.index.toNat]? = some level.code
  /-- A path leads to the current instruction, with the open scopes. -/
  path : Reaches ⟨module, level.code.io⟩ level.code.code level.activation.pc
    level.activation.scopes
  /-- The register for the argument had a frame on entry. -/
  io : level.entry.framesOf level.code.io ≠ []

/-- The activations of a machine are on paths, each above the one that called it. -/
structure Tracks (module : Module) (program : Program) (start : RegisterFile)
    (levels : List Level) (machine : Machine) : Prop where
  /-- The levels are those of the machine. -/
  activations : machine.calls.activations = levels.map Level.activation
  /-- Each activation stands on the file that it was entered with. -/
  stacked : Stacked start levels machine.registers
  /-- Each activation is on a path. -/
  placed : ∀ level ∈ levels, level.Placed module program
  /-- There are no more activations than allowed. -/
  room : levels.length ≤ program.maxCallDepth

/-- What a run relies on about the registers at its start. -/
structure Grounds (module : Module) (program : Program) (start : RegisterFile) : Prop where
  /-- The registers are those of the program. -/
  size : start.byReg.size = program.regs.size
  /-- There are no more registers than register identifiers. -/
  named : start.byReg.size ≤ RegId.maxIndex + 1
  /-- Static registers have frames. -/
  static : ∀ {reg : RegId}, module.isStatic reg = true → start.framesOf reg ≠ []

/-- A prepared machine is what a run relies on. -/
theorem Machine.Prepared.grounds {module : Module} {program : Program} {entry : ProcCode}
    {io : VarId} {store : Store} {start : Machine}
    (prepared : Prepared program entry io store start) (compiles : Compiles module program) :
    Grounds module program start.registers where
  size := prepared.size
  named := by
    rw [prepared.size]
    exact prepared.named
  static := by
    intro reg isStatic none
    have depth := prepared.depth_eq compiles reg
    rw [RegisterFile.depth_eq, none, if_pos isStatic, List.length_nil] at depth
    omega

section
variable {module : Module} {program : Program} {start : RegisterFile} {level : Level}
  {levels : List Level} {machine : Machine} {reg : RegId}

/-- A static register has the frames of the start. -/
theorem Tracks.framesOf_static (tracks : Tracks module program start levels machine)
    (isStatic : module.isStatic reg = true) :
    machine.registers.framesOf reg = start.framesOf reg := by
  refine tracks.stacked.framesOf_eq ?_
  intro level member opened
  have notStatic := (tracks.placed level member).path.not_static reg opened
  rw [ScopeContext.isStatic_eq, isStatic] at notStatic
  cases notStatic

/-- **What may be used has a frame.** -/
theorem Tracks.framesOf_ne_nil (tracks : Tracks module program start (level :: levels) machine)
    (grounds : Grounds module program start)
    (allocated : level.activation.scopes.allocates ⟨module, level.code.io⟩ reg = true) :
    machine.registers.framesOf reg ≠ [] := by
  rcases Scopes.allocates_iff.mp allocated with isStatic | isIo | opened
  · -- allocated at the start, and no activation opens a scope of it
    rw [ScopeContext.isStatic_eq] at isStatic
    rw [tracks.framesOf_static isStatic]
    exact grounds.static isStatic
  · -- there on entry, and an activation only adds frames to what it was entered with
    rw [isIo]
    exact tracks.stacked.1.framesOf_ne_nil (tracks.placed level List.mem_cons_self).io
  · exact tracks.stacked.1.framesOf_ne_nil_of_mem opened

/-- The current instruction of a tracked machine exists, and the scope rules admit it. -/
theorem Tracks.exists_current (tracks : Tracks module program start (level :: levels) machine)
    (compiles : Compiles module program) (verified : verifyModule module = .ok ()) :
    ∃ instruction allowed, level.code.code[level.activation.pc]? = some instruction ∧
      level.activation.scopes.step ⟨module, level.code.io⟩ instruction = .ok allowed ∧
      current program machine = .ok (instruction, level.activation.pc) := by
  have placed := tracks.placed level List.mem_cons_self
  obtain ⟨keeps, lands⟩ := compiles.keepsDiscipline verified placed.found
  have inside := keeps.lt_size lands placed.path
  have found := Array.getElem?_eq_getElem inside
  obtain ⟨allowed, stepped⟩ := keeps.steps placed.path found
  refine ⟨_, allowed, found, stepped, ?_⟩
  unfold current
  rw [top?_eq tracks.activations]
  dsimp only
  unfold Program.proc
  rw [placed.found]
  show (orError _ level.code.code[level.activation.pc]? >>= fun instruction =>
    (pure (instruction, level.activation.pc) : Except Error (Instruction × Nat))) = _
  rw [found]
  rfl

end

/-! ### Steps -/

/-- Move on to where the current instruction at `pc` has led; whether the machine has come to an
end. -/
def Machine.moveOn (program : Program) (pc : Nat) (outcome : Outcome) : Exec Bool := do
  match outcome with
  | .next => updateTop fun top => { top with pc := pc + 1 }
  | .jump target => updateTop fun top => { top with pc := target }
  | .call proc =>
      updateTop fun top => { top with pc := pc + 1 }
      enter program proc
  | .ret => leave program
  return (← get).calls.isEmpty

/-- A step carries out the current instruction and moves on. -/
theorem Machine.step_eq {program : Program} {machine : Machine} {instruction : Instruction}
    {pc : Nat} (isCurrent : current program machine = .ok (instruction, pc)) :
    step program machine = (execute program instruction pc >>= moveOn program pc) machine := by
  unfold step
  rw [bind_apply, inspect_apply, isCurrent]
  rfl

namespace Machine

section
variable {program : Program} {machine : Machine} {activation : Activation} {rest : List Activation}
  {instruction : Instruction} {pc : Nat}

/-- Two machines differ in their activations and reports only. -/
structure SameData (before after : Machine) : Prop where
  /-- The variables are the same. -/
  store : after.store = before.store
  /-- The registers are the same. -/
  registers : after.registers = before.registers

/-- Moving on within the procedure. -/
theorem moveOn_of_follows (program : Program)
    (top : machine.calls.activations = activation :: rest) {outcome : Outcome}
    (follows : outcome.Follows instruction pc) :
    ∃ target moved, moveOn program pc outcome machine = .ok false moved ∧
      instruction.LeadsTo pc target ∧ SameData machine moved ∧
      moved.calls.activations = { activation with pc := target } :: rest := by
  -- falling through and jumping differ in the target only
  have moves : ∀ target,
      ∃ moved, (do
        updateTop fun top => { top with pc := target }
        return (← get).calls.isEmpty : Exec Bool) machine = .ok false moved ∧
        SameData machine moved ∧
        moved.calls.activations = { activation with pc := target } :: rest := by
    intro target
    let moved : Machine :=
      { machine with calls := machine.calls.modifyTop fun top => { top with pc := target } }
    have topMoved : moved.calls.activations = { activation with pc := target } :: rest := by
      show machine.calls.activations.modifyHead _ = _
      rw [top]
      rfl
    refine ⟨moved, ?_, ⟨rfl, rfl⟩, topMoved⟩
    have notEmpty : moved.calls.isEmpty = false := by
      unfold CallStack.isEmpty
      rw [topMoved]
      rfl
    rw [bind_apply, updateTop_apply top]
    show EStateM.Result.ok moved.calls.isEmpty moved = _
    rw [notEmpty]
  cases outcome with
  | next =>
      obtain ⟨moved, done, same, topMoved⟩ := moves (pc + 1)
      exact ⟨pc + 1, moved, done, .inr ⟨follows, rfl⟩, same, topMoved⟩
  | jump target =>
      obtain ⟨moved, done, same, topMoved⟩ := moves target
      exact ⟨target, moved, done, .inl follows, same, topMoved⟩
  | call | ret => cases follows

/-- No procedure is entered beyond the allowed depth. -/
theorem enter_of_full (proc : ProcId) (full : program.maxCallDepth ≤ machine.calls.depth) :
    enter program proc machine =
      .error (.execution (.callDepthExceeded program.maxCallDepth)) machine := by
  unfold enter
  rw [get_bind_apply]
  dsimp only
  rw [if_pos full]
  rfl

/-- A procedure that is not there is not entered. -/
theorem enter_of_missing {proc : ProcId} (room : ¬ program.maxCallDepth ≤ machine.calls.depth)
    (missing : program.procs[proc.index.toNat]? = none) :
    enter program proc machine = .error (.missing (.procedure proc)) machine := by
  have notFound : program.proc proc = .error (.missing (.procedure proc)) := by
    unfold Program.proc
    rw [missing]
    rfl
  unfold enter
  rw [get_bind_apply]
  dsimp only
  rw [if_neg room, bind_apply, inspect_apply, notFound]

/-- Entering a procedure starts an activation. -/
theorem exists_enter {proc : ProcId} {code : ProcCode}
    (room : ¬ program.maxCallDepth ≤ machine.calls.depth)
    (found : program.procs[proc.index.toNat]? = some code) :
    ∃ entered, enter program proc machine = .ok () entered ∧ SameData machine entered ∧
      entered.calls = machine.calls.push (Activation.start proc) := by
  have isFound : program.proc proc = .ok code := by
    unfold Program.proc
    rw [found]
    rfl
  unfold enter
  rw [get_bind_apply]
  dsimp only
  rw [if_neg room, bind_apply, inspect_apply, isFound]
  dsimp only
  cases code.flags.contains ProcFlags.trace with
  | true => exact ⟨_, rfl, ⟨rfl, rfl⟩, rfl⟩
  | false => exact ⟨_, rfl, ⟨rfl, rfl⟩, rfl⟩

/-- Leaving a procedure that has no scope open. -/
theorem exists_leave {code : ProcCode} (top : machine.calls.activations = activation :: rest)
    (balanced : activation.scopes = [])
    (found : program.procs[activation.proc.index.toNat]? = some code) :
    ∃ left, leave program machine = .ok () left ∧ SameData machine left ∧
      left.calls = machine.calls.pop := by
  have isFound : program.proc activation.proc = .ok code := by
    unfold Program.proc
    rw [found]
    rfl
  unfold leave
  rw [get_bind_apply, top?_eq top]
  dsimp only
  rw [balanced, bind_apply]
  show ∃ left, (inspect (fun _ => program.proc activation.proc) >>= _ : Exec Unit)
    { machine with calls := machine.calls.pop } = .ok () left ∧ _
  rw [bind_apply, inspect_apply, isFound]
  dsimp only
  cases code.flags.contains ProcFlags.trace with
  | true => exact ⟨_, rfl, ⟨rfl, rfl⟩, rfl⟩
  | false => exact ⟨_, rfl, ⟨rfl, rfl⟩, rfl⟩

end

end Machine

/-! ### Moves of the activations -/

/-- What one step can do: the innermost activation goes on, calls a procedure, or returns. -/
inductive Moves (program : Program) (level : Level) (rest : List Level)
    (instruction : Instruction) (file changed : RegisterFile) : List Level → Prop
  /-- The activation goes on within its procedure. -/
  | goes {target : Nat} {scopes : Scopes}
      (leads : instruction.LeadsTo level.activation.pc target)
      (effect : Effect instruction.conduct file level.activation.scopes changed scopes) :
      Moves program level rest instruction file changed
        ({ level with activation := ⟨level.activation.proc, target, scopes⟩ } :: rest)
  /-- A procedure is entered, above the file as it is. -/
  | calls {proc : ProcId} {code : ProcCode} (isCall : instruction = .call proc)
      (found : program.procs[proc.index.toNat]? = some code) (same : changed = file) :
      Moves program level rest instruction file changed
        (⟨Activation.start proc, code, file⟩ ::
          { level with activation := { level.activation with pc := level.activation.pc + 1 } } ::
          rest)
  /-- The activation returns, and leaves the file as it was when it was entered. -/
  | returns (isRet : instruction = .ret) (restored : changed = level.entry) :
      Moves program level rest instruction file changed rest

/-- Why a step of a tracked machine can fail: with a fault, for want of a register to open, or for
want of a procedure to call. -/
def Excuses (program : Program) (machine : Machine) (instruction : Instruction) (error : Error) :
    Prop :=
  machine.Faults instruction.accesses error ∨
    (∃ reg, instruction.conduct = .opens reg ∧ ¬ machine.registers.Has reg) ∨
    ∃ proc, instruction = .call proc ∧ program.procs[proc.index.toNat]? = none

section
variable {module : Module} {program : Program} {start : RegisterFile} {level : Level}
  {rest : List Level} {machine : Machine} {instruction : Instruction} {allowed : Scopes}

/-- A step of a tracked machine that succeeds with some move. -/
def Advances (module : Module) (program : Program) (start : RegisterFile) (level : Level)
    (rest : List Level) (machine : Machine) (instruction : Instruction) : Prop :=
  ∃ levels after, step program machine = .ok levels.isEmpty after ∧
    Moves program level rest instruction machine.registers after.registers levels ∧
    Tracks module program start levels after ∧
    machine.store.KeepsShapes after.store ∧ (machine.Resolved → after.Resolved) ∧
    ∀ reg, none ∈ after.registers.framesOf reg →
      none ∈ machine.registers.framesOf reg ∨ instruction.nulls? = some reg

/-- Data that stays the same keeps its references. -/
theorem Machine.SameData.resolved {before after : Machine} (same : SameData before after)
    (resolved : before.Resolved) : after.Resolved := by
  refine ⟨?_, ?_⟩
  · rw [same.store, same.registers]
    exact resolved.frames
  · rw [same.store]
    exact resolved.owned

/-- A step within the procedure. -/
theorem Tracks.step_within (tracks : Tracks module program start (level :: rest) machine)
    (isCurrent : current program machine = .ok (instruction, level.activation.pc))
    (found : level.code.code[level.activation.pc]? = some instruction)
    (stepped : level.activation.scopes.step ⟨module, level.code.io⟩ instruction = .ok allowed)
    {outcome : Outcome} {middle : Machine}
    (executed : execute program instruction level.activation.pc machine = .ok outcome middle)
    (continues : Continues instruction level.activation (rest.map Level.activation) machine outcome
      middle) : Advances module program start level rest machine instruction := by
  have placed := tracks.placed level List.mem_cons_self
  have allows := (Scopes.allows_of_step stepped).2
  obtain ⟨scopes, effect, top⟩ := continues.effect
  obtain ⟨target, moved, done, leads, same, activations⟩ :=
    moveOn_of_follows program top continues.follows
  -- the machine and the rules agree on the scopes, so the path of the activation goes on
  have sameScopes : scopes = allowed := effect.eq_of_allows allows
  have above : Above level.entry middle.registers scopes :=
    effect.above (sameScopes ▸ allows) tracks.stacked.1
  refine ⟨{ level with activation := ⟨level.activation.proc, target, scopes⟩ } :: rest, moved,
    ?_, ?_, ⟨activations, ?_, ?_, tracks.room⟩, ?_, ?_, ?_⟩
  · rw [step_eq isCurrent, bind_apply, executed]
    exact done
  · rw [same.registers]
    exact .goes leads effect
  · rw [same.registers]
    exact ⟨above, tracks.stacked.2⟩
  · intro other member
    rcases List.mem_cons.mp member with rfl | member
    · refine ⟨placed.found, ?_, placed.io⟩
      rw [sameScopes]
      exact .next placed.path found stepped leads
    · exact tracks.placed other (List.mem_cons_of_mem _ member)
  · rw [same.store]
    exact continues.shapes
  · intro resolved
    exact same.resolved (continues.resolved resolved)
  · intro reg member
    rw [same.registers] at member
    exact continues.nulls member

/-- A step that returns. -/
theorem Tracks.step_ret (tracks : Tracks module program start (level :: rest) machine)
    (grounds : Grounds module program start)
    (isCurrent : current program machine = .ok (.ret, level.activation.pc))
    (balanced : level.activation.scopes = []) :
    Advances module program start level rest machine .ret := by
  have placed := tracks.placed level List.mem_cons_self
  obtain ⟨left, done, same, calls⟩ := exists_leave tracks.activations balanced placed.found
  have activations : left.calls.activations = rest.map Level.activation := by
    rw [calls]
    show machine.calls.activations.tail = _
    rw [tracks.activations]
    rfl
  -- without open scopes nothing is left above what the activation was entered with
  have restored : machine.registers = level.entry := by
    have above := tracks.stacked.1
    rw [balanced] at above
    exact above.eq_of_nil (by rw [tracks.stacked.size]; exact grounds.named)
  have sameEmpty : left.calls.isEmpty = rest.isEmpty := by
    unfold CallStack.isEmpty
    rw [activations]
    cases rest <;> rfl
  refine ⟨rest, left, ?_, ?_, ⟨activations, ?_, ?_, ?_⟩, ?_, same.resolved, ?_⟩
  · rw [step_eq isCurrent]
    show (leave program >>= fun _ => get >>= fun machine => pure machine.calls.isEmpty : Exec Bool)
      machine = _
    rw [bind_apply, done, ← sameEmpty]
    rfl
  · exact .returns rfl (same.registers.trans restored)
  · rw [same.registers, restored]
    exact tracks.stacked.2
  · intro other member
    exact tracks.placed other (List.mem_cons_of_mem _ member)
  · exact Nat.le_of_succ_le tracks.room
  · rw [same.store]
    exact Store.KeepsShapes.refl _
  · intro reg member
    rw [same.registers] at member
    exact .inl member

/-- A step that calls a procedure. -/
theorem Tracks.step_call (tracks : Tracks module program start (level :: rest) machine)
    (compiles : Compiles module program) (grounds : Grounds module program start) {proc : ProcId}
    (isCurrent : current program machine = .ok (.call proc, level.activation.pc))
    (found : level.code.code[level.activation.pc]? = some (.call proc))
    (stepped : level.activation.scopes.step ⟨module, level.code.io⟩ (.call proc) = .ok allowed) :
    Advances module program start level rest machine (.call proc) ∨
      ∃ error after, step program machine = .error error after ∧ SameData machine after ∧
        Excuses program machine (.call proc) error := by
  have placed := tracks.placed level List.mem_cons_self
  obtain ⟨used, allows⟩ := Scopes.allows_of_step stepped
  have sameScopes : allowed = level.activation.scopes := allows
  -- the caller moves on before the procedure is entered
  let moved : Machine :=
    { machine with
      calls := machine.calls.modifyTop fun top => { top with pc := level.activation.pc + 1 } }
  have activations : moved.calls.activations =
      { level.activation with pc := level.activation.pc + 1 } :: rest.map Level.activation := by
    show machine.calls.activations.modifyHead _ = _
    rw [tracks.activations]
    rfl
  have opened : step program machine =
      (enter program proc >>= fun _ => get >>= fun machine => pure machine.calls.isEmpty :
        Exec Bool) moved := by
    rw [step_eq isCurrent]
    show (updateTop (fun top => { top with pc := level.activation.pc + 1 }) >>= fun _ =>
      enter program proc >>= fun _ => get >>= fun machine => pure machine.calls.isEmpty :
        Exec Bool) machine = _
    rw [bind_apply, updateTop_apply tracks.activations]
  by_cases full : program.maxCallDepth ≤ moved.calls.depth
  · refine .inr ⟨.execution (.callDepthExceeded program.maxCallDepth), moved, ?_, ⟨rfl, rfl⟩,
      .inl (faults_of_not_null fun reg isNull => by cases isNull)⟩
    rw [opened, bind_apply, enter_of_full proc full]
  · cases foundCode : program.procs[proc.index.toNat]? with
    | none =>
        refine .inr ⟨.missing (.procedure proc), moved, ?_, ⟨rfl, rfl⟩,
          .inr (.inr ⟨proc, rfl, foundCode⟩)⟩
        rw [opened, bind_apply, enter_of_missing full foundCode]
    | some code =>
        obtain ⟨entered, done, same, calls⟩ := exists_enter full foundCode
        have enteredTop : entered.calls.activations = Activation.start proc ::
            { level.activation with pc := level.activation.pc + 1 } ::
            rest.map Level.activation := by
          rw [calls]
          show Activation.start proc :: moved.calls.activations = _
          rw [activations]
        -- the rules count a call as a use of the register for the argument
        have ioFramed : machine.registers.framesOf code.io ≠ [] := by
          refine tracks.framesOf_ne_nil grounds (used code.io ?_)
          show code.io ∈ (module.ioOf? proc).toList
          rw [compiles.ioOf? foundCode]
          exact List.mem_cons_self
        refine .inl ⟨⟨Activation.start proc, code, machine.registers⟩ ::
          { level with activation := { level.activation with pc := level.activation.pc + 1 } } ::
          rest, entered, ?_, ?_, ⟨enteredTop, ?_, ?_, ?_⟩, ?_, ?_, ?_⟩
        · have notEmpty : entered.calls.isEmpty = false := by
            unfold CallStack.isEmpty
            rw [enteredTop]
            rfl
          rw [opened, bind_apply, done]
          show EStateM.Result.ok entered.calls.isEmpty entered = _
          rw [notEmpty]
          rfl
        · exact .calls rfl foundCode same.registers
        · rw [same.registers]
          exact ⟨Above.refl _, tracks.stacked⟩
        · intro other member
          rcases List.mem_cons.mp member with rfl | member
          · exact ⟨foundCode, .start, ioFramed⟩
          · rcases List.mem_cons.mp member with rfl | member
            · refine ⟨placed.found, ?_, placed.io⟩
              have path : Reaches ⟨module, level.code.io⟩ level.code.code
                  (level.activation.pc + 1) allowed :=
                .next placed.path found stepped (.inr ⟨rfl, rfl⟩)
              rw [sameScopes] at path
              exact path
            · exact tracks.placed other (List.mem_cons_of_mem _ member)
        · have depth := moved.calls.depth_eq
          rw [activations, List.length_cons, List.length_map] at depth
          show rest.length + 1 + 1 ≤ program.maxCallDepth
          omega
        · rw [same.store]
          exact Store.KeepsShapes.refl _
        · intro resolved
          refine same.resolved ⟨?_, ?_⟩
          · exact resolved.frames
          · exact resolved.owned
        · intro reg member
          rw [same.registers] at member
          exact .inl member

/-- The registers that the current instruction looks at have frames. -/
theorem Tracks.framesOf_accesses (tracks : Tracks module program start (level :: rest) machine)
    (grounds : Grounds module program start)
    (stepped : level.activation.scopes.step ⟨module, level.code.io⟩ instruction = .ok allowed) :
    ∀ reg ∈ instruction.accesses, machine.registers.framesOf reg ≠ [] := fun _ accessed =>
  tracks.framesOf_ne_nil grounds (Scopes.allocates_of_step stepped accessed)

/-- An instruction of a tracked machine that stays within its procedure goes on, or it fails and
changes nothing. -/
theorem Tracks.execute_within (tracks : Tracks module program start (level :: rest) machine)
    (compiles : Compiles module program) (verified : verifyModule module = .ok ())
    (grounds : Grounds module program start)
    (found : level.code.code[level.activation.pc]? = some instruction)
    (stepped : level.activation.scopes.step ⟨module, level.code.io⟩ instruction = .ok allowed)
    (notCall : ∀ proc, instruction ≠ .call proc) (notRet : instruction ≠ .ret) :
    (∃ outcome after, execute program instruction level.activation.pc machine = .ok outcome after ∧
      Continues instruction level.activation (rest.map Level.activation) machine outcome after) ∨
    ∃ error, execute program instruction level.activation.pc machine = .error error machine ∧
      (machine.Faults instruction.accesses error ∨
        ∃ reg, instruction.conduct = .opens reg ∧ ¬ machine.registers.Has reg) := by
  have placed := tracks.placed level List.mem_cons_self
  obtain ⟨-, lands⟩ := compiles.keepsDiscipline verified placed.found
  have sized : machine.registers.byReg.size = program.regs.size := by
    rw [tracks.stacked.size, grounds.size]
  refine Machine.execute_within program tracks.activations tracks.stacked.1 sized stepped
    (tracks.framesOf_accesses grounds stepped) ?_ notCall notRet
  intro jumps
  obtain ⟨target, isTarget, -⟩ := lands _ _ found jumps
  exact ⟨target, isTarget⟩

/-- **One step of a tracked machine** is a move to another tracked machine, or it fails with an
excuse, and no data changes. -/
theorem Tracks.step (tracks : Tracks module program start (level :: rest) machine)
    (compiles : Compiles module program) (verified : verifyModule module = .ok ())
    (grounds : Grounds module program start)
    (isCurrent : current program machine = .ok (instruction, level.activation.pc))
    (found : level.code.code[level.activation.pc]? = some instruction)
    (stepped : level.activation.scopes.step ⟨module, level.code.io⟩ instruction = .ok allowed) :
    Advances module program start level rest machine instruction ∨
      ∃ error after, Machine.step program machine = .error error after ∧ SameData machine after ∧
        Excuses program machine instruction error := by
  -- returns and calls change the row of activations; all else stays within the innermost one
  by_cases isRet : instruction = .ret
  · subst isRet
    have placed := tracks.placed level List.mem_cons_self
    obtain ⟨keeps, -⟩ := compiles.keepsDiscipline verified placed.found
    exact .inl (tracks.step_ret grounds isCurrent (keeps.balanced placed.path found))
  by_cases isCall : ∃ proc, instruction = .call proc
  · obtain ⟨proc, rfl⟩ := isCall
    exact tracks.step_call compiles grounds isCurrent found stepped
  have notCall : ∀ proc, instruction ≠ .call proc := fun proc same => isCall ⟨proc, same⟩
  rcases tracks.execute_within compiles verified grounds found stepped notCall isRet with
    ⟨outcome, middle, executed, continues⟩ | ⟨error, failed, reason⟩
  · exact .inl (tracks.step_within isCurrent found stepped executed continues)
  · refine .inr ⟨error, machine, ?_, ⟨rfl, rfl⟩, ?_⟩
    · rw [step_eq isCurrent, bind_apply, failed]
    · rcases reason with faults | undeclared
      · exact .inl faults
      · exact .inr (.inl undeclared)

/-- A step that succeeds is a move. -/
theorem Tracks.exists_moves (tracks : Tracks module program start (level :: rest) machine)
    (compiles : Compiles module program) (verified : verifyModule module = .ok ())
    (grounds : Grounds module program start) {done : Bool} {after : Machine}
    (steps : Machine.step program machine = .ok done after) :
    ∃ instruction levels,
      Moves program level rest instruction machine.registers after.registers levels ∧
      Tracks module program start levels after ∧ done = levels.isEmpty ∧
      machine.store.KeepsShapes after.store ∧ (machine.Resolved → after.Resolved) := by
  obtain ⟨instruction, allowed, found, admitted, isCurrent⟩ :=
    tracks.exists_current compiles verified
  rcases tracks.step compiles verified grounds isCurrent found admitted with
    ⟨levels, moved, succeeded, moves, tracksAfter, shapes, resolved, -⟩ | ⟨error, moved, failed, -⟩
  · rw [steps] at succeeded
    injection succeeded with sameDone same
    subst same
    exact ⟨instruction, levels, moves, tracksAfter, sameDone, shapes, resolved⟩
  · rw [steps] at failed
    cases failed

end

/-! ### Runs -/

namespace Machine

/-- A run that is one step longer takes one step more. -/
theorem continueFor_succ_eq_running {program : Program} {steps : Nat} {machine after : Machine} :
    continueFor program (steps + 1) machine = (after, .running) ↔
      ∃ middle, continueFor program steps machine = (middle, .running) ∧
        step program middle = .ok false after := by
  -- runs are defined from their first step, and the invariant needs them from their last
  induction steps generalizing machine with
  | zero =>
      rw [continueFor]
      cases stepped : step program machine with
      | error error middle => simp [continueFor, stepped]
      | ok done middle => cases done <;> simp [continueFor, stepped]
  | succ steps ih =>
      rw [continueFor]
      conv => rhs; rw [continueFor]
      cases step program machine with
      | error error middle => simp
      | ok done middle =>
          cases done with
          | true => simp
          | false => exact ih

/-- A machine that has just entered its entry point is tracked. -/
theorem tracks_of_enter (module : Module) {program : Program} {proc : ProcId} {entry : ProcCode}
    {io : VarId} {store : Store} {start machine : Machine}
    (prepared : Prepared program entry io store start)
    (found : program.procs[proc.index.toNat]? = some entry)
    (entered : enter program proc start = .ok () machine) :
    Tracks module program start.registers [⟨Activation.start proc, entry, start.registers⟩]
      machine ∧ SameData start machine := by
  have depth : start.calls.depth = 0 := by
    rw [prepared.calls]
    rfl
  by_cases full : program.maxCallDepth ≤ start.calls.depth
  · rw [enter_of_full proc full] at entered
    cases entered
  obtain ⟨other, done, same, calls⟩ := exists_enter full found
  rw [entered] at done
  cases done
  refine ⟨⟨?_, ?_, ?_, ?_⟩, same⟩
  · rw [calls, prepared.calls]
    rfl
  · rw [same.registers]
    exact ⟨Above.refl _, rfl⟩
  · intro level member
    rw [List.mem_singleton.mp member]
    refine ⟨found, .start, ?_⟩
    obtain ⟨base, -, frames⟩ :=
      prepared.frames (Array.getElem?_eq_getElem prepared.has : program.regs[entry.io.index]? = _)
    show start.registers.framesOf entry.io ≠ []
    rw [frames, if_pos rfl]
    exact List.cons_ne_nil _ _
  · rw [List.length_singleton]
    omega

end Machine

section
variable {module : Module} {program : Program} {start : RegisterFile} {levels : List Level}
  {machine after : Machine}

/-- **A run keeps to the paths**, to the shapes of variables, and to references that lead to
variables. -/
theorem Tracks.continueFor (tracks : Tracks module program start levels machine)
    (compiles : Compiles module program) (verified : verifyModule module = .ok ())
    (grounds : Grounds module program start) (entered : levels ≠ []) {steps : Nat}
    (ran : Machine.continueFor program steps machine = (after, .running)) :
    ∃ levels, levels ≠ [] ∧ Tracks module program start levels after ∧
      machine.store.KeepsShapes after.store ∧ (machine.Resolved → after.Resolved) := by
  induction steps generalizing after with
  | zero =>
      cases ran
      exact ⟨levels, entered, tracks, Store.KeepsShapes.refl _, id⟩
  | succ steps ih =>
      obtain ⟨middle, ranBefore, stepped⟩ := continueFor_succ_eq_running.mp ran
      obtain ⟨before, nonempty, tracked, shapes, resolved⟩ := ih ranBefore
      obtain ⟨level, rest, rfl⟩ := List.exists_cons_of_ne_nil nonempty
      obtain ⟨instruction, next, -, tracksNext, running, shapesNext, resolvedNext⟩ :=
        tracked.exists_moves compiles verified grounds stepped
      -- a machine without activations would have come to its end
      have stays : next ≠ [] := by
        rintro rfl
        cases running
      exact ⟨next, stays, tracksNext, shapes.trans shapesNext,
        fun start => resolvedNext (resolved start)⟩

end

/-! ### Calls -/

/-- A call starts: it is allowed, a machine is prepared for it, and its entry point is entered. -/
structure Machine.Starts (program : Program) (proc : ProcId) (io : VarId) (store : Store)
    (entry : ProcCode) (start entered : Machine) : Prop where
  /-- The call is allowed. -/
  allowed : checkCall program proc io store = .ok entry
  /-- A machine is prepared. -/
  prepared : prepare program entry io (idle program store) = .ok () start
  /-- The entry point is entered. -/
  entered : enter program proc start = .ok () entered

/-- A call ends before its first instruction. -/
inductive Machine.Refuses (program : Program) (proc : ProcId) (io : VarId) (store : Store)
    (error : Error) : Machine → Prop
  /-- The call is not allowed. -/
  | forbids (refused : checkCall program proc io store = .error error) :
      Refuses program proc io store error (idle program store)
  /-- No machine can be prepared. -/
  | lacks {entry : ProcCode} {final : Machine}
      (allowed : checkCall program proc io store = .ok entry)
      (refused : prepare program entry io (idle program store) = .error error final) :
      Refuses program proc io store error final
  /-- The entry point cannot be entered. -/
  | excludes {entry : ProcCode} {start final : Machine}
      (allowed : checkCall program proc io store = .ok entry)
      (prepared : prepare program entry io (idle program store) = .ok () start)
      (refused : enter program proc start = .error error final) :
      Refuses program proc io store error final

/-- **A call starts or is refused**, however many steps it may take. -/
theorem Machine.invoke_cases (program : Program) (proc : ProcId) (io : VarId) (store : Store) :
    (∃ entry start entered, Starts program proc io store entry start entered ∧
      ∀ steps, invoke program proc io steps store = continueFor program steps entered) ∨
    ∃ error final, Refuses program proc io store error final ∧
      ∀ steps, invoke program proc io steps store = (final, .failed error) := by
  cases allowed : checkCall program proc io store with
  | error error =>
      refine .inr ⟨error, _, .forbids allowed, fun steps => ?_⟩
      rw [invoke_eq, allowed]
  | ok entry =>
      cases prepared : prepare program entry io (idle program store) with
      | error error final =>
          refine .inr ⟨error, final, .lacks allowed prepared, fun steps => ?_⟩
          rw [invoke_eq, allowed]
          dsimp only
          rw [prepared]
      | ok _ start =>
          have runs : ∀ steps,
              invoke program proc io steps store = run program proc steps start := by
            intro steps
            rw [invoke_eq, allowed]
            dsimp only
            rw [prepared]
          unfold run at runs
          cases entered : enter program proc start with
          | error error final =>
              rw [entered] at runs
              exact .inr ⟨error, final, .excludes allowed prepared entered, runs⟩
          | ok _ other =>
              rw [entered] at runs
              exact .inl ⟨entry, start, other, ⟨allowed, prepared, entered⟩, runs⟩

/-- How a call that is still running has come about. -/
theorem exists_prepare_of_invoke {program : Program} {proc : ProcId} {io : VarId} {steps : Nat}
    {store : Store} {machine : Machine}
    (running : invoke program proc io steps store = (machine, .running)) :
    ∃ entry start entered, checkCall program proc io store = .ok entry ∧
      prepare program entry io (idle program store) = .ok () start ∧
      enter program proc start = .ok () entered ∧
      continueFor program steps entered = (machine, .running) := by
  rcases Machine.invoke_cases program proc io store with
    ⟨entry, start, entered, starts, runs⟩ | ⟨error, final, -, fails⟩
  · rw [runs] at running
    exact ⟨entry, start, entered, starts.allowed, starts.prepared, starts.entered, running⟩
  · rw [fails] at running
    cases running

/-- A call to a verified module that is still running is tracked. -/
theorem exists_tracks_of_invoke {module : Module} {program : Program} {proc : ProcId} {io : VarId}
    {steps : Nat} {store : Store} {machine : Machine} (compiles : Compiles module program)
    (verified : verifyModule module = .ok ())
    (running : invoke program proc io steps store = (machine, .running)) :
    ∃ start level rest, Grounds module program start ∧
      Tracks module program start (level :: rest) machine := by
  obtain ⟨entry, start, entered, allowed, prepare, enter, ran⟩ := exists_prepare_of_invoke running
  have prepared := prepared_of_prepare prepare
  obtain ⟨tracksEntry, -⟩ := tracks_of_enter module prepared (found_of_checkCall allowed) enter
  obtain ⟨levels, nonempty, tracks, -⟩ := tracksEntry.continueFor compiles verified
    (prepared.grounds compiles) (List.cons_ne_nil _ _) ran
  obtain ⟨level, rest, rfl⟩ := List.exists_cons_of_ne_nil nonempty
  exact ⟨start.registers, level, rest, prepared.grounds compiles, tracks⟩

/-- **Runtime scopes refine the verifier's scopes.** In every state of a call to a verified module,
each activation has the scopes that the verifier has found for its position; the frames of each
register are those of the start and one for each open scope; no scope is open where a procedure
returns; and there are no more activations than allowed. -/
theorem scopes_of_invoke {module : Module} {program : Program} {maxCallDepth : Nat}
    {before compiled store : Store} {proc : ProcId} {io : VarId} {steps : Nat} {machine : Machine}
    (verified : verifyModule module = .ok ())
    (compile : Program.compile module maxCallDepth before = .ok program compiled)
    (running : invoke program proc io steps store = (machine, .running)) :
    (∀ activation ∈ machine.calls.activations, ∃ flow solution,
      solveProc module activation.proc = .ok (flow, solution) ∧
      flow.scopesAt solution activation.pc = some activation.scopes) ∧
    (∃ entryIo, module.ioOf? proc = some entryIo ∧ ∀ reg, machine.registers.depth reg =
      (if module.isStatic reg then 1 else 0) + (if reg = entryIo then 1 else 0) +
        (machine.calls.activations.flatMap Activation.scopes).count reg) ∧
    (∀ pc, current program machine = .ok (.ret, pc) →
      ∃ activation, machine.calls.top? = some activation ∧ activation.scopes = []) ∧
    machine.calls.activations.length ≤ maxCallDepth := by
  obtain ⟨compiles, sameDepth⟩ := compiles_of_compile compile
  obtain ⟨entry, start, entered, allowed, prepare, enter, ran⟩ := exists_prepare_of_invoke running
  have prepared := prepared_of_prepare prepare
  have found := found_of_checkCall allowed
  obtain ⟨tracksEntry, -⟩ := tracks_of_enter module prepared found enter
  obtain ⟨levels, nonempty, tracks, -⟩ := tracksEntry.continueFor compiles verified
    (prepared.grounds compiles) (List.cons_ne_nil _ _) ran
  refine ⟨?_, ⟨entry.io, compiles.ioOf? found, ?_⟩, ?_, ?_⟩
  · intro activation member
    rw [tracks.activations] at member
    obtain ⟨level, inLevels, rfl⟩ := List.mem_map.mp member
    have placed := tracks.placed level inLevels
    obtain ⟨flow, solution, solve, sameCode, sameContext, cut, solved⟩ :=
      compiles.exists_solution verified placed.found
    have path := placed.path
    rw [← sameCode, ← sameContext] at path
    exact ⟨flow, solution, solve, solved.scopesAt_eq cut path⟩
  · intro reg
    rw [tracks.stacked.depth_eq, prepared.depth_eq compiles, tracks.activations, List.flatMap_map]
  · intro pc isCurrent
    obtain ⟨level, rest, rfl⟩ := List.exists_cons_of_ne_nil nonempty
    obtain ⟨instruction, -, foundHere, -, isCurrent'⟩ := tracks.exists_current compiles verified
    rw [isCurrent] at isCurrent'
    obtain ⟨rfl, rfl⟩ := Prod.mk.inj (Except.ok.inj isCurrent')
    have placed := tracks.placed level List.mem_cons_self
    obtain ⟨keeps, -⟩ := compiles.keepsDiscipline verified placed.found
    exact ⟨level.activation, top?_eq tracks.activations, keeps.balanced placed.path foundHere⟩
  · rw [tracks.activations, List.length_map, ← sameDepth]
    exact tracks.room

/-! ### The factorial sample -/

namespace Samples

/-- A store that holds the word three. -/
def three : Store :=
  Slots.empty.insert ((Variable.zeroed ⟨VarTypeId.word, VarType.word⟩ 1).putWord 0 3)

/-- The factorial sample, compiled over that store for at most ten nested calls. -/
def factorialProgram : Program :=
  match Program.compile factorialModule 10 three with
  | .ok program _ => program
  | .error _ _ => ⟨ModuleId.nil, 0, #[], #[]⟩

/-- The store after compiling the factorial sample. -/
def factorialStore : Store :=
  match Program.compile factorialModule 10 three with
  | .ok _ store => store
  | .error _ store => store

/-- The factorial sample compiles. -/
theorem compile_factorialModule :
    Program.compile factorialModule 10 three = .ok factorialProgram factorialStore := rfl

end Samples

/-- Three instructions into the factorial of three, one frame is open for the product. -/
theorem factorial_depth : ∃ machine,
    invoke Samples.factorialProgram Samples.entry 0 3 Samples.factorialStore = (machine, .running) ∧
      machine.registers.depth ⟨2, by decide⟩ = 1 := by
  have isRunning : (invoke Samples.factorialProgram Samples.entry 0 3 Samples.factorialStore).2 =
      .running := by decide +kernel
  have running : invoke Samples.factorialProgram Samples.entry 0 3 Samples.factorialStore =
      (_, .running) := Prod.ext rfl isRunning
  have verified : verifyModule Samples.factorialModule = .ok () := rfl
  obtain ⟨-, ⟨entryIo, io, depth⟩, -, -⟩ :=
    scopes_of_invoke verified Samples.compile_factorialModule running
  refine ⟨_, running, ?_⟩
  have isIo : (⟨1, by decide⟩ : RegId) = entryIo := Option.some.inj io
  rw [depth, ← isIo]
  decide +kernel

end ScopeMachine
