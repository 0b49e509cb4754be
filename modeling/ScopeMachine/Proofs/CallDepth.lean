import ScopeMachine.Proofs.Footprint

/-! # Calls under two limits

The number of nested calls is limited, and the limit matters in one place only: where a procedure is
about to be entered. So a call under a lower limit does what it does under a higher one, up to the
first procedure that the lower limit bars it from.

* `Machine.local_execute` says that no instruction by itself fails for too many calls;
* `Program.withDepth` is a program with another limit, and `Tracks.step_withDepth` says what one
  step makes of it: the same, unless a procedure is barred;
* `Machine.Parts` says that two runs are the same until a procedure is barred from one of them, and
  `Tracks.continueFor_withDepth` that runs under two limits are such, by induction on the steps;
* `limit_only_bars` is about calls to verified modules. -/

namespace ScopeMachine

/-! ### Faults of single instructions -/

/-- A fault that is not about the number of calls. -/
def ExecFault.IsLocal (fault : ExecFault) : Prop := ∀ limit, fault ≠ .callDepthExceeded limit

namespace Machine

/-- A look at a machine that has no other faults than local ones. -/
def LooksLocally {α : Type} (result : Except Error α) : Prop :=
  ∀ fault, result = .error (.execution fault) → fault.IsLocal

section
variable {α β : Type}

/-- A look that succeeds. -/
theorem looksLocally_ok (value : α) : LooksLocally (.ok value) := by
  rintro fault ⟨⟩

/-- A look that fails with an error of another kind, or a local fault. -/
theorem looksLocally_error {error : Error}
    (isLocal : ∀ fault, error = .execution fault → fault.IsLocal) :
    LooksLocally (.error error : Except Error α) := by
  rintro fault ⟨⟩
  exact isLocal fault rfl

/-- One look after another. -/
theorem LooksLocally.bind {first : Except Error α} {second : α → Except Error β}
    (locally : LooksLocally first) (next : ∀ value, LooksLocally (second value)) :
    LooksLocally (first >>= second) := by
  cases first with
  | ok value => exact next value
  | error error =>
      rintro fault ⟨⟩
      exact locally fault rfl

/-- The element that a register's variable lacks. -/
theorem isLocal_missingElement (reg : RegId) (index : Int) (var : Variable) (fault : ExecFault)
    (isFault : missingElement reg index var = .execution fault) : fault.IsLocal := by
  cases isFault
  rintro limit ⟨⟩

/-- The variable that a register names. -/
theorem looksLocally_named (machine : Machine) (reg : RegId) :
    LooksLocally (machine.named reg) := by
  rcases machine.named_cases reg with ⟨id, var, isNamed, -⟩ | ⟨error, failed, null⟩
  · rw [isNamed]
    exact looksLocally_ok _
  · rw [failed]
    refine looksLocally_error fun fault isFault limit => ?_
    rw [null fault isFault]
    rintro ⟨⟩

/-- A part of a variable that may be missing. -/
theorem looksLocally_orError (reg : RegId) (index : Int) (var : Variable) (part : Option α) :
    LooksLocally (orError (missingElement reg index var) part) := by
  cases part with
  | none => exact looksLocally_error (isLocal_missingElement reg index var)
  | some value => exact looksLocally_ok value

/-- A demand on a variable, and what follows. -/
theorem looksLocally_guard {condition : Prop} [Decidable condition] {error : Error}
    {next : Unit → Except Error α} (isLocal : ∀ fault, error = .execution fault → fault.IsLocal)
    (locally : LooksLocally (next ())) :
    LooksLocally (if condition then throw error >>= next else next ()) := by
  split
  · exact looksLocally_error isLocal
  · exact locally

end

section
variable {α : Type} {machine : Machine}

/-- An invariant that every machine has, so that only the faults of an action matter. -/
abbrev Anything : Machine → Prop := Holds (fun _ => True) fun _ _ _ => True

/-- Every machine has it. -/
theorem anything (machine : Machine) : machine.Anything := ⟨trivial, fun _ => trivial⟩

/-- A look, and then some action that has local faults only. -/
theorem local_look {look : Machine → Except Error α} {β : Type} {second : α → Exec β}
    (locally : LooksLocally (look machine))
    (next : ∀ value, Keeps Anything ExecFault.IsLocal machine (second value)) :
    Keeps Anything ExecFault.IsLocal machine (inspect look >>= second) :=
  keeps_look (anything machine) locally fun value _ => next value

/-- A look, and then a change of a variable. -/
theorem local_update {look : Machine → Except Error α} {target : α → VarId}
    {change : α → Variable → Variable} (locally : LooksLocally (look machine)) :
    Keeps Anything ExecFault.IsLocal machine
      (inspect look >>= fun value => updateVar (target value) (change value)) :=
  local_look locally fun _ => keeps_ok rfl (anything _)

/-- Words are read. -/
theorem local_readWord {reg : RegId} {second : Int64 → Exec α}
    (next : ∀ word, Keeps Anything ExecFault.IsLocal machine (second word)) :
    Keeps Anything ExecFault.IsLocal machine (readWord reg >>= second) :=
  local_look ((looksLocally_named machine reg).bind fun _ => looksLocally_orError reg 0 _ _) next

/-- Words are written. -/
theorem local_writeWord (reg : RegId) (word : Int64) :
    Keeps Anything ExecFault.IsLocal machine (writeWord reg word) := by
  refine local_update ((looksLocally_named machine reg).bind fun found => ?_)
  dsimp only
  split
  · exact looksLocally_ok _
  · exact looksLocally_error (isLocal_missingElement reg 0 _)

/-- Elements are stored. -/
theorem local_storeElementAt (reg : RegId) (index : Int) (element : Element) :
    Keeps Anything ExecFault.IsLocal machine (storeElementAt reg index element) := by
  refine local_update ((looksLocally_named machine reg).bind fun found => ?_)
  dsimp only
  split
  · exact looksLocally_ok _
  · exact looksLocally_error (isLocal_missingElement reg index _)

/-- A range of bytes that an element lacks. -/
theorem isLocal_byteRange (reg : RegId) (start stop size : Nat) (fault : ExecFault)
    (isFault : Error.execution (.byteRange reg start stop size) = .execution fault) :
    fault.IsLocal := by
  cases isFault
  rintro limit ⟨⟩

/-- Literals are stored. -/
theorem local_storeLiteral (reg : RegId) (literal : Array UInt8) :
    Keeps Anything ExecFault.IsLocal machine (storeLiteral reg literal) := by
  refine local_update ((looksLocally_named machine reg).bind fun found => ?_)
  refine looksLocally_guard (isLocal_missingElement reg 0 _) ?_
  exact looksLocally_guard (isLocal_byteRange reg 0 _ _) (looksLocally_ok _)

/-- Payloads are copied. -/
theorem local_copyBytes (dst src : RegId) :
    Keeps Anything ExecFault.IsLocal machine (copyBytes dst src) := by
  refine local_update ((looksLocally_named machine src).bind fun _ => ?_)
  exact (looksLocally_named machine dst).bind fun _ => looksLocally_ok _

/-- Bytes are loaded. -/
theorem local_loadBytes (dst src : RegId) (offset : Nat) :
    Keeps Anything ExecFault.IsLocal machine (loadBytes dst src offset) := by
  refine local_update ((looksLocally_named machine dst).bind fun _ => ?_)
  refine (looksLocally_named machine src).bind fun _ => ?_
  refine (looksLocally_orError src 0 _ _).bind fun _ => ?_
  refine looksLocally_guard (isLocal_byteRange src offset _ _) ?_
  exact looksLocally_guard (isLocal_missingElement dst 0 _) (looksLocally_ok _)

/-- Bytes are stored. -/
theorem local_storeBytes (dst : RegId) (offset : Nat) (src : RegId) :
    Keeps Anything ExecFault.IsLocal machine (storeBytes dst offset src) := by
  refine local_update ((looksLocally_named machine src).bind fun _ => ?_)
  refine (looksLocally_orError src 0 _ _).bind fun _ => ?_
  refine (looksLocally_named machine dst).bind fun _ => ?_
  refine looksLocally_guard (isLocal_missingElement dst 0 _) ?_
  exact looksLocally_guard (isLocal_byteRange dst offset _ _) (looksLocally_ok _)

/-- References are loaded. -/
theorem local_loadRef (dst src : RegId) (slot : Nat) :
    Keeps Anything ExecFault.IsLocal machine (loadRef dst src slot) := by
  refine local_look ((looksLocally_named machine src).bind fun _ => ?_) fun referent => ?_
  · exact looksLocally_guard (isLocal_missingElement src 0 _) (looksLocally_ok _)
  · exact (keeps_rebind (anything machine) fun _ _ => trivial).discard

/-- References are stored. -/
theorem local_storeRef (dst : RegId) (slot : Nat) (src : RegId) :
    Keeps Anything ExecFault.IsLocal machine (storeRef dst slot src) := by
  have top : LooksLocally (machine.registers.top src) := by
    unfold RegisterFile.top
    by_cases has : machine.registers.Has src
    · rw [RegisterFile.frames_eq_ok has]
      exact looksLocally_ok _
    · rw [RegisterFile.frames_eq_error has]
      rintro fault ⟨⟩
  refine local_update (top.bind fun _ => (looksLocally_named machine dst).bind fun _ => ?_)
  exact looksLocally_guard (isLocal_missingElement dst 0 _) (looksLocally_ok _)

/-- **An instruction has local faults only.** -/
theorem local_execute (program : Program) (instruction : Instruction) (pc : Nat) :
    Keeps Anything ExecFault.IsLocal machine (execute program instruction pc) := by
  have allots : Allots (fun _ => True) (fun _ _ _ => True) program :=
    ⟨fun _ _ => ⟨trivial, trivial, fun _ _ _ => trivial⟩, fun _ _ _ => trivial⟩
  refine allots.keeps_execute (anything machine) instruction pc ?_ ?_ ?_
  · intro works
    cases instruction with
    | inc reg | dec reg => exact local_readWord fun _ => (local_writeWord reg _).bind_pure
    | add dst left right | sub dst left right | mul dst left right =>
        exact (local_readWord fun _ => local_readWord fun _ => local_writeWord dst _).bind_pure
    | cpi1 dst literal | cpi2 dst literal | cpi4 dst literal | cpi8 dst literal =>
        exact (local_storeLiteral dst _).bind_pure
    | jz reg offset | jnz reg offset | jgz reg offset | jngz reg offset =>
        exact local_readWord fun _ => keeps_jumpWhen (anything machine) _ _ pc
    | jg left right offset | jng left right offset | je left right offset =>
        have compares : ∀ test, Keeps Anything ExecFault.IsLocal machine
            (compareWords test left right) := fun test =>
          local_readWord fun _ => local_readWord fun _ => keeps_ok rfl (anything machine)
        exact (compares _).bind fun taken _ _ kept => keeps_jumpWhen kept taken _ pc
    | jmp offset => exact keeps_jumpWhen (anything machine) true _ pc
    | cpb dst src => exact (local_copyBytes dst src).bind_pure
    | lde dst src position | ste dst position src =>
        refine local_readWord fun index => local_look ?_ fun element => ?_
        · exact (looksLocally_named machine src).bind fun _ => looksLocally_orError src _ _ _
        · exact (local_storeElementAt dst _ element).bind_pure
    | ldb dst src offset => exact (local_loadBytes dst src _).bind_pure
    | stb dst offset src => exact (local_storeBytes dst _ src).bind_pure
    | str dst slot src => exact (local_storeRef dst _ src).bind_pure
    | _ => cases works
  · intro dst src slot _
    exact local_loadRef dst src _
  · intro _
    refine local_readWord fun word => keeps_error rfl (anything machine) ?_
    rintro fault ⟨⟩ limit ⟨⟩

end

/-- Moving on has no faults, unless it leads into a procedure. -/
theorem moveOn_ne_fault {program : Program} {outcome : Outcome}
    (inside : ∀ callee, outcome ≠ .call callee) (pc : Nat) {machine after : Machine}
    {fault : ExecFault} : moveOn program pc outcome machine ≠ .error (.execution fault) after := by
  intro failed
  have keeps : Keeps Anything (fun _ => False) machine (moveOn program pc outcome) := by
    have ends : ∀ machine : Machine, Keeps Anything (fun _ => False) machine
        (get >>= fun machine => pure machine.calls.isEmpty : Exec Bool) :=
      fun machine => keeps_ok rfl (anything machine)
    cases outcome with
    | next | jump =>
        exact (keeps_updateTop (anything machine) _).bind fun _ after _ _ => ends after
    | ret => exact (keeps_leave (anything machine) program).bind fun _ after _ _ => ends after
    | call callee => exact absurd rfl (inside callee)
  exact (keeps.of_error failed).2 fault rfl

end Machine

/-! ### Programs under another limit -/

/-- The program with another limit on nested calls. -/
def Program.withDepth (program : Program) (limit : Nat) : Program :=
  { program with maxCallDepth := limit }

/-- A module is compiled alike under every limit. -/
theorem compile_withDepth {module : Module} {shallow : Nat} {program : Program}
    {before after : Store} (compiled : Program.compile module shallow before = .ok program after)
    (deep : Nat) : Program.compile module deep before = .ok (program.withDepth deep) after := by
  obtain ⟨regs, procs, compiledRegs, compiledProcs, rfl⟩ := compile_eq_ok.mp compiled
  exact compile_eq_ok.mpr ⟨regs, procs, compiledRegs, compiledProcs, rfl⟩

namespace Machine

section
variable {program : Program} {limit : Nat} {machine : Machine}

/-- Instructions do not look at the limit. -/
theorem execute_withDepth (instruction : Instruction) (pc : Nat) :
    execute (program.withDepth limit) instruction pc = execute program instruction pc := by
  cases instruction <;> rfl

/-- Moving on does not look at the limit, unless it leads into a procedure. -/
theorem moveOn_withDepth {outcome : Outcome} (inside : ∀ callee, outcome ≠ .call callee)
    (pc : Nat) :
    moveOn (program.withDepth limit) pc outcome = moveOn program pc outcome := by
  cases outcome with
  | call callee => exact absurd rfl (inside callee)
  | next | jump | ret => rfl

/-- Where a limit leaves room, a higher one makes no difference. -/
theorem enter_withDepth (room : machine.calls.depth < program.maxCallDepth)
    (wider : program.maxCallDepth ≤ limit) (callee : ProcId) :
    enter (program.withDepth limit) callee machine = enter program callee machine := by
  have roomWide : ¬ (program.withDepth limit).maxCallDepth ≤ machine.calls.depth :=
    Nat.not_le_of_lt (Nat.lt_of_lt_of_le room wider)
  unfold enter
  rw [get_bind_apply, get_bind_apply]
  dsimp only
  rw [if_neg (Nat.not_le_of_lt room), if_neg roomWide]
  rfl

/-- An entered procedure is not left yet. -/
theorem isEmpty_of_enter {callee : ProcId} {entered : Machine}
    (done : enter program callee machine = .ok () entered) : entered.calls.isEmpty = false := by
  by_cases full : program.maxCallDepth ≤ machine.calls.depth
  · rw [enter_of_full callee full] at done
    cases done
  · cases found : program.procs[callee.index.toNat]? with
    | none =>
        rw [enter_of_missing full found] at done
        cases done
    | some code =>
        obtain ⟨other, enters, -, calls⟩ := exists_enter full found
        rw [done] at enters
        cases enters
        rw [calls]
        rfl

/-- The machine at a call, about to enter the procedure: the caller has moved on. -/
def pastCall (machine : Machine) (pc : Nat) : Machine :=
  { machine with calls := machine.calls.modifyTop fun top => { top with pc := pc + 1 } }

/-- A step at a call enters the procedure. -/
theorem step_eq_enter {callee : ProcId} {pc : Nat} {activation : Activation}
    {rest : List Activation} (top : machine.calls.activations = activation :: rest)
    (isCurrent : current program machine = .ok (.call callee, pc)) :
    step program machine =
      (enter program callee >>= fun _ => get >>= fun machine => pure machine.calls.isEmpty :
        Exec Bool) (machine.pastCall pc) := by
  rw [step_eq isCurrent]
  show (updateTop (fun top => { top with pc := pc + 1 }) >>= fun _ =>
    enter program callee >>= fun _ => get >>= fun machine => pure machine.calls.isEmpty :
      Exec Bool) machine = _
  rw [bind_apply, updateTop_apply top]
  rfl

/-- A run from a call is a run of the procedure. -/
theorem continueFor_eq_run {callee : ProcId} {pc : Nat} {activation : Activation}
    {rest : List Activation} (top : machine.calls.activations = activation :: rest)
    (isCurrent : current program machine = .ok (.call callee, pc)) (more : Nat) :
    continueFor program (more + 1) machine = run program callee more (machine.pastCall pc) := by
  rw [continueFor, step_eq_enter top isCurrent, bind_apply, run]
  cases done : enter program callee (machine.pastCall pc) with
  | error error final => rfl
  | ok _ entered =>
      have stays : (get >>= fun machine => pure machine.calls.isEmpty : Exec Bool) entered =
          .ok false entered := by
        rw [get_bind_apply, isEmpty_of_enter done]
        rfl
      dsimp only
      rw [stays]

end

/-- A step is the same under both limits, and does not fail for too many calls. -/
structure SameStep (tight wide : Program) (machine : Machine) : Prop where
  /-- The step is the same. -/
  same : step wide machine = step tight machine
  /-- There are not too many calls. -/
  room : ∀ after, step tight machine ≠
    .error (.execution (.callDepthExceeded tight.maxCallDepth)) after

/-- Runs under two limits part: until some number of steps they are in the same states and go on,
and then both come to enter the same procedure with the same machine, which has as many activations
as the lower limit allows. -/
structure Parts (tight wide : Program) (tightly widely : Nat → Machine × Completion) (taken : Nat)
    (callee : ProcId) (machine : Machine) : Prop where
  /-- Before that, the runs are the same. -/
  shared : ∀ steps < taken, ∃ state,
    tightly steps = (state, .running) ∧ widely steps = (state, .running)
  /-- From there, the run under the lower limit is one of the procedure. -/
  barred : ∀ more, tightly (taken + more) = run tight callee more machine
  /-- So is the run under the higher limit. -/
  allowed : ∀ more, widely (taken + more) = run wide callee more machine
  /-- There is no room under the lower limit. -/
  full : machine.calls.depth = tight.maxCallDepth

section
variable {tight wide : Program} {tightly widely : Nat → Machine × Completion} {taken : Nat}
  {callee : ProcId} {machine : Machine}

/-- Under the lower limit, the run has come to an end where the two part. -/
theorem Parts.eq_failed (parts : Parts tight wide tightly widely taken callee machine) {steps : Nat}
    (enough : taken ≤ steps) :
    tightly steps = (machine, .failed (.execution (.callDepthExceeded tight.maxCallDepth))) := by
  obtain ⟨more, rfl⟩ := Nat.exists_eq_add_of_le enough
  rw [parts.barred, run, enter_of_full callee (Nat.le_of_eq parts.full.symm)]

/-- Runs that part do so too if the same step is taken before. -/
theorem Parts.after_step {start next : Machine}
    (parts : Parts tight wide (continueFor tight · next) (continueFor wide · next) taken callee
      machine)
    (stepsTight : step tight start = .ok false next)
    (stepsWide : step wide start = .ok false next) :
    Parts tight wide (continueFor tight · start) (continueFor wide · start) (taken + 1) callee
      machine := by
  have onTight : ∀ steps, continueFor tight (steps + 1) start = continueFor tight steps next := by
    intro steps
    rw [continueFor, stepsTight]
  have onWide : ∀ steps, continueFor wide (steps + 1) start = continueFor wide steps next := by
    intro steps
    rw [continueFor, stepsWide]
  refine ⟨?_, ?_, ?_, parts.full⟩
  · intro steps sooner
    cases steps with
    | zero => exact ⟨start, rfl, rfl⟩
    | succ steps =>
        rw [onTight, onWide]
        exact parts.shared steps (Nat.lt_of_succ_lt_succ sooner)
  · intro more
    rw [Nat.add_right_comm, onTight]
    exact parts.barred more
  · intro more
    rw [Nat.add_right_comm, onWide]
    exact parts.allowed more

end

end Machine

/-! ### Runs under two limits -/

open Machine

section
variable {module : Module} {program : Program} {start : RegisterFile} {level : Level}
  {rest levels : List Level} {machine : Machine} {limit : Nat} {instruction : Instruction}
  {allowed : Scopes}

/-- An instruction that is not a call does not lead into a procedure. -/
theorem Tracks.outcome_ne_call (tracks : Tracks module program start (level :: rest) machine)
    (compiles : Compiles module program) (verified : verifyModule module = .ok ())
    (grounds : Grounds module program start)
    (found : level.code.code[level.activation.pc]? = some instruction)
    (stepped : level.activation.scopes.step ⟨module, level.code.io⟩ instruction = .ok allowed)
    (notCall : ∀ proc, instruction ≠ .call proc) {outcome : Outcome} {middle : Machine}
    (executed : execute program instruction level.activation.pc machine = .ok outcome middle) :
    ∀ callee, outcome ≠ .call callee := by
  rintro callee rfl
  by_cases isRet : instruction = .ret
  · subst isRet
    cases executed
  rcases tracks.execute_within compiles verified grounds found stepped notCall isRet with
    ⟨outcome, after, goesOn, continues⟩ | ⟨error, failed, -⟩
  · rw [executed] at goesOn
    cases goesOn
    exact continues.follows
  · rw [executed] at failed
    cases failed

/-- A call parts runs if there is no room under the lower limit; otherwise it is the same step. -/
theorem Tracks.call_withDepth (tracks : Tracks module program start (level :: rest) machine)
    {callee : ProcId} {pc : Nat} (isCurrent : current program machine = .ok (.call callee, pc))
    (wider : program.maxCallDepth ≤ limit) :
    SameStep program (program.withDepth limit) machine ∨
      ∃ callee moved, Parts program (program.withDepth limit)
        (Machine.continueFor program · machine)
        (Machine.continueFor (program.withDepth limit) · machine) 1 callee moved := by
  have isCurrentWide : current (program.withDepth limit) machine = .ok (.call callee, pc) :=
    isCurrent
  have depth : machine.calls.depth ≤ program.maxCallDepth := by
    rw [machine.calls.depth_eq, tracks.activations, List.length_map]
    exact tracks.room
  by_cases full : machine.calls.depth = program.maxCallDepth
  · -- from here on, both runs are those of a machine that is about to enter the procedure
    refine .inr ⟨callee, machine.pastCall pc, ?_, ?_, ?_, full⟩
    · intro steps sooner
      obtain rfl := Nat.lt_one_iff.mp sooner
      exact ⟨machine, rfl, rfl⟩
    · intro more
      rw [Nat.add_comm]
      exact continueFor_eq_run tracks.activations isCurrent more
    · intro more
      rw [Nat.add_comm]
      exact continueFor_eq_run tracks.activations isCurrentWide more
  · have room : (machine.pastCall pc).calls.depth < program.maxCallDepth :=
      Nat.lt_of_le_of_ne depth full
    refine .inl ⟨?_, fun after failed => ?_⟩
    · rw [step_eq_enter tracks.activations isCurrentWide, bind_apply, enter_withDepth room wider,
        step_eq_enter tracks.activations isCurrent, bind_apply]
    · rw [step_eq_enter tracks.activations isCurrent, bind_apply] at failed
      cases found : program.procs[callee.index.toNat]? with
      | none =>
          rw [enter_of_missing (Nat.not_le_of_lt room) found] at failed
          cases failed
      | some code =>
          obtain ⟨entered, done, -⟩ := exists_enter (Nat.not_le_of_lt room) found
          rw [done] at failed
          cases failed

/-- **One step under two limits** is the same and does not fail for too many calls, or it is a call
that makes the runs part. -/
theorem Tracks.step_withDepth (tracks : Tracks module program start (level :: rest) machine)
    (compiles : Compiles module program) (verified : verifyModule module = .ok ())
    (grounds : Grounds module program start) (wider : program.maxCallDepth ≤ limit) :
    SameStep program (program.withDepth limit) machine ∨
      ∃ callee moved, Parts program (program.withDepth limit)
        (Machine.continueFor program · machine)
        (Machine.continueFor (program.withDepth limit) · machine) 1 callee moved := by
  obtain ⟨instruction, allowed, found, admitted, isCurrent⟩ :=
    tracks.exists_current compiles verified
  have isCurrentWide : current (program.withDepth limit) machine =
      .ok (instruction, level.activation.pc) := isCurrent
  by_cases isCall : ∃ callee, instruction = .call callee
  · obtain ⟨callee, rfl⟩ := isCall
    exact tracks.call_withDepth isCurrent wider
  -- any other instruction is carried out alike, and its faults are local
  have notCall : ∀ callee, instruction ≠ .call callee := fun callee same => isCall ⟨callee, same⟩
  left
  have steps := step_eq isCurrent
  have stepsWide := step_eq isCurrentWide
  rw [bind_apply] at steps
  rw [bind_apply, execute_withDepth] at stepsWide
  cases executed : execute program instruction level.activation.pc machine with
  | error error middle =>
      rw [executed] at steps stepsWide
      refine ⟨stepsWide.trans steps.symm, fun after failed => ?_⟩
      rw [steps] at failed
      cases failed
      exact ((local_execute program instruction _).of_error executed).2 _ rfl _ rfl
  | ok outcome middle =>
      have inside :=
        tracks.outcome_ne_call compiles verified grounds found admitted notCall executed
      rw [executed] at steps stepsWide
      dsimp only at steps stepsWide
      rw [moveOn_withDepth inside] at stepsWide
      refine ⟨stepsWide.trans steps.symm, fun after failed => ?_⟩
      rw [steps] at failed
      exact moveOn_ne_fault inside _ failed

/-- **Runs under two limits** are the same and have not failed for too many calls, or they part. -/
theorem Tracks.continueFor_withDepth (tracks : Tracks module program start levels machine)
    (compiles : Compiles module program) (verified : verifyModule module = .ok ())
    (grounds : Grounds module program start) (entered : levels ≠ [])
    (wider : program.maxCallDepth ≤ limit) (steps : Nat) :
    Machine.continueFor (program.withDepth limit) steps machine =
        Machine.continueFor program steps machine ∧
      (Machine.continueFor program steps machine).2 ≠
        .failed (.execution (.callDepthExceeded program.maxCallDepth)) ∨
    ∃ taken callee moved, taken ≤ steps ∧
      Parts program (program.withDepth limit) (Machine.continueFor program · machine)
        (Machine.continueFor (program.withDepth limit) · machine) taken callee moved := by
  induction steps generalizing machine levels with
  | zero => exact .inl ⟨rfl, by rintro ⟨⟩⟩
  | succ steps ih =>
      obtain ⟨level, rest, rfl⟩ := List.exists_cons_of_ne_nil entered
      rcases tracks.step_withDepth compiles verified grounds wider with
        ⟨same, room⟩ | ⟨callee, moved, parts⟩
      · rw [Machine.continueFor, Machine.continueFor, same]
        cases stepped : Machine.step program machine with
        | error error after =>
            refine .inl ⟨rfl, ?_⟩
            rintro ⟨⟩
            exact room after stepped
        | ok done after =>
            cases done with
            | true => exact .inl ⟨rfl, by rintro ⟨⟩⟩
            | false =>
                -- the same machine goes on under both limits, and is tracked again
                obtain ⟨-, next, -, tracksNext, running, -⟩ :=
                  tracks.exists_moves compiles verified grounds stepped
                have stays : next ≠ [] := by
                  rintro rfl
                  cases running
                rcases ih tracksNext stays with agree | ⟨taken, callee, moved, sooner, parts⟩
                · exact .inl agree
                · exact .inr ⟨taken + 1, callee, moved, Nat.succ_le_succ sooner,
                    parts.after_step stepped (same.trans stepped)⟩
      · exact .inr ⟨1, callee, moved, Nat.succ_le_succ (Nat.zero_le _), parts⟩

end

/-! ### Calls under two limits -/

/-- What comes before the entry point does not look at the limit: a machine is prepared and runs, or
the call is refused, but for no fault. -/
theorem invoke_withDepth_cases (program : Program) (proc : ProcId) (io : VarId) (store : Store) :
    (∃ entry start, checkCall program proc io store = .ok entry ∧
      prepare program entry io (idle program store) = .ok () start ∧
      ∀ limit steps, invoke (program.withDepth limit) proc io steps store =
        run (program.withDepth limit) proc steps start) ∨
    ∃ error final, (∀ fault, error ≠ .execution fault) ∧
      ∀ limit steps, invoke (program.withDepth limit) proc io steps store =
        (final, .failed error) := by
  -- checking and preparing a call is the same action under every limit
  have opened := fun limit steps => invoke_eq (program.withDepth limit) proc io steps store
  cases allowed : checkCall program proc io store with
  | error error =>
      refine .inr ⟨error, idle program store, ?_, fun limit steps => ?_⟩
      · rintro fault rfl
        exact checkCall_ne_fault program proc io store fault allowed
      · have refused : checkCall (program.withDepth limit) proc io store = .error error := allowed
        rw [opened, refused]
        rfl
  | ok entry =>
      have accepted : ∀ limit, checkCall (program.withDepth limit) proc io store = .ok entry :=
        fun _ => allowed
      cases prepared : prepare program entry io (idle program store) with
      | error error final =>
          have allots : Allots (fun _ => True) (fun _ _ _ => True) program :=
            ⟨fun _ _ => ⟨trivial, trivial, fun _ _ _ => trivial⟩, fun _ _ _ => trivial⟩
          have keeps : Keeps Anything (fun _ => False) (idle program store)
              (prepare program entry io) :=
            allots.keeps_prepare (anything _) fun _ _ => trivial
          refine .inr ⟨error, final, ?_, fun limit steps => ?_⟩
          · exact fun fault isFault => (keeps.of_error prepared).2 fault isFault
          · have failed : prepare (program.withDepth limit) entry io
                (idle (program.withDepth limit) store) = .error error final := prepared
            rw [opened, accepted]
            dsimp only
            rw [failed]
      | ok _ start =>
          refine .inl ⟨entry, start, rfl, prepared, fun limit steps => ?_⟩
          have ready : prepare (program.withDepth limit) entry io
              (idle (program.withDepth limit) store) = .ok () start := prepared
          rw [opened, accepted]
          dsimp only
          rw [ready]

/-- **Calls under two limits** are the same and have not failed for too many calls, or they part. -/
theorem invoke_withDepth {module : Module} {program : Program} (compiles : Compiles module program)
    (verified : verifyModule module = .ok ()) {limit : Nat} (wider : program.maxCallDepth ≤ limit)
    (proc : ProcId) (io : VarId) (store : Store) (steps : Nat) :
    invoke (program.withDepth limit) proc io steps store = invoke program proc io steps store ∧
      (invoke program proc io steps store).2 ≠
        .failed (.execution (.callDepthExceeded program.maxCallDepth)) ∨
    ∃ taken callee moved, taken ≤ steps ∧
      Parts program (program.withDepth limit) (invoke program proc io · store)
        (invoke (program.withDepth limit) proc io · store) taken callee moved := by
  rcases invoke_withDepth_cases program proc io store with
    ⟨entry, start, allowed, prepare, runs⟩ | ⟨error, final, plain, refuses⟩
  · have runsTight : ∀ steps, invoke program proc io steps store = run program proc steps start :=
      runs program.maxCallDepth
    have prepared := prepared_of_prepare prepare
    have depth : start.calls.depth = 0 := by
      rw [prepared.calls]
      rfl
    by_cases none : program.maxCallDepth = 0
    · -- not even the entry point can be entered
      refine .inr ⟨0, proc, start, Nat.zero_le steps, ?_, ?_, ?_, depth.trans none.symm⟩
      · intro steps sooner
        cases sooner
      · intro more
        rw [Nat.zero_add]
        exact runsTight more
      · intro more
        rw [Nat.zero_add]
        exact runs limit more
    · -- there is room for the entry point under both limits, and what follows is a run
      have room : start.calls.depth < program.maxCallDepth := by omega
      have found := found_of_checkCall allowed
      obtain ⟨entered, enters, -⟩ := exists_enter (Nat.not_le_of_lt room) found
      have continues : (invoke program proc io · store) = (continueFor program · entered) := by
        funext steps
        rw [runsTight, run, enters]
      have continuesWide : (invoke (program.withDepth limit) proc io · store) =
          (continueFor (program.withDepth limit) · entered) := by
        funext steps
        rw [runs, run, enter_withDepth room wider, enters]
      obtain ⟨tracks, -⟩ := tracks_of_enter module prepared found enters
      have agree := tracks.continueFor_withDepth compiles verified (prepared.grounds compiles)
        (List.cons_ne_nil _ _) wider steps
      rw [← continues, ← continuesWide] at agree
      rwa [← congrFun continues, ← congrFun continuesWide] at agree
  · have refusesTight : invoke program proc io steps store = (final, .failed error) :=
      refuses program.maxCallDepth steps
    rw [refuses, refusesTight]
    refine .inl ⟨rfl, ?_⟩
    rintro ⟨⟩
    exact plain _ rfl

/-- **A limit on nested calls only bars procedures.** A module that compiles under some limit does
so under every higher one, over the same store and with the same store as a result. A call that does
not fail for too many calls, however far it has come, is the same under the higher limit: it ends in
the same way and with the same machine, and so with the same variables. And a call that does fail
for too many calls does so where a procedure is to be entered with as many activations as the limit
allows: until there the call under the higher limit is in the same states, and it comes to enter
that procedure with the machine that the other is left with. -/
theorem limit_only_bars {module : Module} {program : Program} {shallow deep : Nat}
    {before compiled : Store} (verified : verifyModule module = .ok ())
    (compile : Program.compile module shallow before = .ok program compiled)
    (higher : shallow ≤ deep) :
    ∃ wider, Program.compile module deep before = .ok wider compiled ∧
      ∀ proc io store steps final completion,
        invoke program proc io steps store = (final, completion) →
        (completion ≠ .failed (.execution (.callDepthExceeded shallow)) →
          invoke wider proc io steps store = (final, completion)) ∧
        (completion = .failed (.execution (.callDepthExceeded shallow)) →
          ∃ taken callee, taken ≤ steps ∧ final.calls.depth = shallow ∧
            Parts program wider (invoke program proc io · store) (invoke wider proc io · store)
              taken callee final) := by
  obtain ⟨compiles, rfl⟩ := compiles_of_compile compile
  refine ⟨program.withDepth deep, compile_withDepth compile deep, ?_⟩
  intro proc io store steps final completion ends
  rcases invoke_withDepth compiles verified higher proc io store steps with
    ⟨same, room⟩ | ⟨taken, callee, moved, sooner, parts⟩
  · rw [ends] at same room
    exact ⟨fun _ => same, fun barred => absurd barred room⟩
  · have failed := parts.eq_failed sooner
    rw [ends] at failed
    cases failed
    exact ⟨fun other => absurd rfl other, fun _ => ⟨taken, callee, sooner, parts.full, parts⟩⟩

namespace Samples

/-- Counts its argument down to zero, with one nested call for each step. -/
def countdown : Build Unit := do
  let n ← addWordReg
  let ptype ← Builder.addProcType entryFlags n
  let proc ← Builder.addProc Flags.empty ptype
  addCode proc [.jz n 3, .dec n, .call proc, .ret]

/-- The module that counts down. -/
def countdownModule : Module :=
  match countdown Builder.initial with
  | .ok _ builder => builder.module
  | .error _ builder => builder.module

/-- The module that counts down, compiled over a store that holds the word three. -/
def countdownProgram (limit : Nat) : Program :=
  match Program.compile countdownModule limit three with
  | .ok program _ => program
  | .error _ _ => ⟨ModuleId.nil, limit, #[], #[]⟩

end Samples

/-- Counting down from three takes four activations: with three it is barred from the last one,
where the call with ten is in the same state, and ten change nothing about the call with four. -/
theorem countdown_barred :
    (∃ final, invoke (Samples.countdownProgram 4) Samples.entry 0 20 Samples.three =
        (final, .returned) ∧
      invoke (Samples.countdownProgram 10) Samples.entry 0 20 Samples.three = (final, .returned)) ∧
    ∃ final taken callee, invoke (Samples.countdownProgram 3) Samples.entry 0 20 Samples.three =
        (final, .failed (.execution (.callDepthExceeded 3))) ∧
      Parts (Samples.countdownProgram 3) (Samples.countdownProgram 10)
        (invoke (Samples.countdownProgram 3) Samples.entry 0 · Samples.three)
        (invoke (Samples.countdownProgram 10) Samples.entry 0 · Samples.three) taken callee
        final := by
  have verified : verifyModule Samples.countdownModule = .ok () := rfl
  have compile : ∀ limit, Program.compile Samples.countdownModule limit Samples.three =
      .ok (Samples.countdownProgram limit) Samples.three := fun _ => rfl
  have returns : (invoke (Samples.countdownProgram 4) Samples.entry 0 20 Samples.three).2 =
      .returned := by decide +kernel
  have barred : (invoke (Samples.countdownProgram 3) Samples.entry 0 20 Samples.three).2 =
      .failed (.execution (.callDepthExceeded 3)) := by decide +kernel
  refine ⟨?_, ?_⟩
  · obtain ⟨wider, compileWider, agrees⟩ := limit_only_bars verified (compile 4)
      (show 4 ≤ 10 by decide)
    rw [compile 10] at compileWider
    cases compileWider
    obtain ⟨same, -⟩ := agrees Samples.entry 0 Samples.three 20 _ _ (Prod.ext rfl returns)
    exact ⟨_, Prod.ext rfl returns, same (by decide)⟩
  · obtain ⟨wider, compileWider, agrees⟩ := limit_only_bars verified (compile 3)
      (show 3 ≤ 10 by decide)
    rw [compile 10] at compileWider
    cases compileWider
    obtain ⟨-, parts⟩ := agrees Samples.entry 0 Samples.three 20 _ _ (Prod.ext rfl barred)
    obtain ⟨taken, callee, -, -, parts⟩ := parts rfl
    exact ⟨_, taken, callee, Prod.ext rfl barred, parts⟩

end ScopeMachine
