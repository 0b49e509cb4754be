import ScopeMachine.Proofs.Atomicity

/-! # What a machine reports

A machine reports that it enters a procedure and, if the procedure is traced, that it leaves it.
Nothing else that it does is reported, and this holds of every program, checked or not.

* `Machine.Quiet` says that nothing has been reported, and no procedure entered or left; so it is
  with every instruction by itself (`Machine.quiet_execute`);
* `Machine.Tells` says what one step can do to the reports and to the activations, and
  `Machine.tells_of_step` that it says everything;
* `Machine.events_of_step_error` is about the step in which a run fails. -/

namespace ScopeMachine

/-! ### Reports of calls -/

/-- The report that a procedure is entered at a depth. -/
def Event.entering (module : ModuleId) (traced : Bool) (proc : ProcId) (depth : Nat) : Event :=
  if traced then .enteredTraced module proc depth else .entered proc depth

/-- The report that a procedure is left at a depth, if there is one. -/
def Event.leaving (module : ModuleId) (traced : Bool) (proc : ProcId) (depth : Nat) : List Event :=
  if traced then [.leftTraced module proc depth] else []

namespace Machine

/-- The procedures of the activations, the innermost first. -/
def procs (machine : Machine) : List ProcId := machine.calls.activations.map Activation.proc

/-- The depth of the call stack is the number of its procedures. -/
theorem depth_eq_length_procs (machine : Machine) : machine.calls.depth = machine.procs.length := by
  rw [machine.calls.depth_eq, procs, List.length_map]

/-! ### Instructions -/

/-- Nothing is reported, and no procedure is entered or left. -/
structure Quiet (before after : Machine) : Prop where
  /-- The reports are the same. -/
  events : after.events = before.events
  /-- The procedures are the same. -/
  procs : after.procs = before.procs

/-- An action is quiet on a machine that something quiet has led to. -/
abbrev Hushes {α : Type} (start machine : Machine) (action : Exec α) : Prop :=
  Keeps start.Quiet (fun _ => True) machine action

section
variable {α : Type} {start machine : Machine}

/-- Nothing at all is quiet. -/
theorem Quiet.refl (machine : Machine) : machine.Quiet machine := ⟨rfl, rfl⟩

/-- One thing after another. -/
theorem Quiet.trans {middle after : Machine} (first : start.Quiet middle)
    (second : middle.Quiet after) : start.Quiet after :=
  ⟨second.events.trans first.events, second.procs.trans first.procs⟩

/-- Revising variables is quiet. -/
theorem Touches.quiet {after : Machine} (touches : machine.Touches after) :
    machine.Quiet after := by
  cases touches with
  | nothing => exact Quiet.refl machine
  | revises => exact ⟨rfl, rfl⟩

/-- Actions on the registers are quiet. -/
theorem quiet_onRegisters (quiet : start.Quiet machine) (action : Registers α) :
    Hushes start machine (onRegisters action) := by
  obtain ⟨store, registers, calls, events⟩ := machine
  cases done : action registers with
  | ok value file => exact keeps_ok (onRegisters_eq_ok done _ _ _) ⟨quiet.events, quiet.procs⟩
  | error error file =>
      exact keeps_error (onRegisters_eq_error done _ _ _) ⟨quiet.events, quiet.procs⟩
        fun _ _ => trivial

/-- Changing the innermost activation is quiet, as long as it stays with its procedure. -/
theorem quiet_updateTop (quiet : start.Quiet machine) (change : Activation → Activation)
    (same : ∀ activation, (change activation).proc = activation.proc) :
    Hushes start machine (updateTop change) := by
  obtain ⟨store, registers, calls, events⟩ := machine
  cases top : calls.activations with
  | nil =>
      have empty : calls.isEmpty = true := by
        unfold CallStack.isEmpty
        rw [top]
        rfl
      have failed : updateTop change ⟨store, registers, calls, events⟩ =
          .error (.misuse .callStackUnderflow) ⟨store, registers, calls, events⟩ := by
        unfold updateTop
        rw [get_bind_apply, empty]
        rfl
      exact keeps_error failed quiet fun _ _ => trivial
  | cons activation rest =>
      refine keeps_ok (updateTop_apply top change store registers events) ⟨quiet.events, ?_⟩
      rw [← quiet.procs]
      unfold procs
      show (calls.activations.modifyHead change).map _ = calls.activations.map _
      rw [top, List.modifyHead_cons, List.map_cons, List.map_cons, same]

/-- Opening a scope. -/
theorem quiet_openScope (quiet : start.Quiet machine) (reg : RegId) (frame : Frame) :
    Hushes start machine (openScope reg frame) :=
  (quiet_onRegisters quiet _).bind fun _ _ _ quiet => quiet_updateTop quiet _ fun _ => rfl

/-- Opening a scope with a fresh variable. -/
theorem quiet_openFresh (quiet : start.Quiet machine) (program : Program) (reg : RegId) :
    Hushes start machine (openFresh program reg) := by
  refine keeps_look quiet (fun _ _ => trivial) fun slot _ => ?_
  have allocated : Hushes start machine (Machine.allocate slot.fresh) :=
    keeps_ok rfl ⟨quiet.events, quiet.procs⟩
  exact allocated.bind fun _ _ _ quiet => quiet_openScope quiet reg _

/-- Closing a scope. -/
theorem quiet_closeScope (quiet : start.Quiet machine) (reg : RegId) :
    Hushes start machine (closeScope reg) := by
  refine keeps_get_bind ?_
  cases machine.calls.top? with
  | none => exact keeps_error rfl quiet fun _ _ => trivial
  | some activation =>
      dsimp only
      split
      · exact keeps_error rfl quiet fun _ _ => trivial
      · exact (quiet_updateTop quiet (·.closeScope reg) fun _ => rfl).bind fun _ _ _ quiet =>
          (quiet_onRegisters quiet _).discard

/-- Closing the last scopes. -/
theorem quiet_closeScopes (quiet : start.Quiet machine) (count : Nat) :
    Hushes start machine (closeScopes count) := by
  induction count generalizing machine with
  | zero => exact keeps_ok rfl quiet
  | succ count ih =>
      refine keeps_get_bind ?_
      cases machine.calls.top? with
      | none => exact keeps_error rfl quiet fun _ _ => trivial
      | some activation =>
          dsimp only
          split
          · exact keeps_error rfl quiet fun _ _ => trivial
          · refine Keeps.bind (quiet_updateTop quiet _ ?_) fun _ _ _ quiet =>
              (quiet_onRegisters quiet _).discard.bind fun _ _ _ quiet => ih quiet
            exact fun _ => rfl

/-- **No instruction by itself reports anything**, or enters or leaves a procedure. -/
theorem quiet_execute (program : Program) (machine : Machine) (instruction : Instruction)
    (pc : Nat) : Hushes machine machine (execute program instruction pc) := by
  have quiet := Quiet.refl machine
  have works : instruction.conduct = .works →
      Hushes machine machine (execute program instruction pc) := by
    intro works
    have touched := touches_execute program works machine pc
    cases done : execute program instruction pc machine with
    | ok outcome after => exact keeps_ok done (touched.of_ok done).quiet
    | error error after =>
        exact keeps_error done (touched.of_error done).1.quiet fun _ _ => trivial
  cases instruction with
  | als reg | push reg => exact (quiet_openFresh quiet program reg).bind_pure
  | alsr reg | pushr reg => exact (quiet_openScope quiet reg none).bind_pure
  | pushh reg =>
      have aliased : Hushes machine machine (openAlias reg) :=
        keeps_look quiet (fun _ _ => trivial) fun frame _ => quiet_openScope quiet reg frame
      exact aliased.bind_pure
  | frs reg | pop reg => exact (quiet_closeScope quiet reg).bind_pure
  | frsl count | popl count => exact (quiet_closeScopes quiet count.toNat).bind_pure
  | ldr dst src slot =>
      have loaded : Hushes machine machine (loadRef dst src slot.toNat) :=
        keeps_look quiet (fun _ _ => trivial) fun _ _ => (quiet_onRegisters quiet _).discard
      exact loaded.bind_pure
  | throw =>
      exact keeps_look quiet (fun _ _ => trivial) fun _ _ =>
        keeps_error rfl quiet fun _ _ => trivial
  | call proc | ret => exact keeps_ok rfl quiet
  | _ => exact works rfl

/-- Allocating a register before any scope is quiet. -/
theorem quiet_bootReg (quiet : start.Quiet machine) (slot : RegSlot) (index : Nat) :
    Hushes start machine (bootReg slot index) := by
  refine keeps_look quiet (fun _ _ => trivial) fun reg _ => ?_
  split
  · have allocated : Hushes start machine (Machine.allocate slot.fresh) :=
      keeps_ok rfl ⟨quiet.events, quiet.procs⟩
    exact allocated.bind fun _ _ _ quiet => quiet_onRegisters quiet _
  · split
    · exact quiet_onRegisters quiet _
    · exact keeps_ok rfl quiet

/-- Preparing a machine for a call is quiet. -/
theorem quiet_prepare (program : Program) (entry : ProcCode) (io : VarId) (machine : Machine) :
    Hushes machine machine (prepare program entry io) := by
  have booted : Hushes machine machine (boot program) :=
    keeps_forM (Quiet.refl machine) fun found _ _ quiet => quiet_bootReg quiet found.1 found.2
  exact booted.bind fun _ _ _ quiet => quiet_onRegisters quiet _

end

/-! ### Steps -/

/-- What one step can do to the reports and to the activations. -/
inductive Tells (program : Program) (before after : Machine) : Prop
  /-- Nothing is reported, and the activations stay. -/
  | nothing (quiet : before.Quiet after)
  /-- A procedure is entered, and the report tells how many activations there were. -/
  | enters {proc : ProcId} {code : ProcCode}
      (found : program.procs[proc.index.toNat]? = some code)
      (room : before.procs.length < program.maxCallDepth)
      (events : after.events =
        .entering program.module (code.flags.contains ProcFlags.trace) proc before.procs.length ::
          before.events)
      (procs : after.procs = proc :: before.procs)
  /-- The innermost procedure is left, and a report tells how many activations there are now. -/
  | leaves {proc : ProcId} {code : ProcCode} {rest : List ProcId}
      (found : program.procs[proc.index.toNat]? = some code)
      (was : before.procs = proc :: rest)
      (events : after.events =
        Event.leaving program.module (code.flags.contains ProcFlags.trace) proc rest.length ++
          before.events)
      (procs : after.procs = rest)

/-- Something quiet may come first. -/
theorem Tells.after_quiet {program : Program} {before middle after : Machine}
    (quiet : before.Quiet middle) (tells : Tells program middle after) :
    Tells program before after := by
  cases tells with
  | nothing other => exact .nothing (quiet.trans other)
  | enters found room events procs =>
      rw [quiet.procs] at room procs events
      rw [quiet.events] at events
      exact .enters found room events procs
  | leaves found was events procs =>
      rw [quiet.procs] at was
      rw [quiet.events] at events
      exact .leaves found was events procs

/-- An action tells what one step can tell, and returns some value; or it fails, and nothing is
reported. -/
def Accounts {α : Type} (program : Program) (returns : α → Machine → Prop) (machine : Machine)
    (action : Exec α) : Prop :=
  match action machine with
  | .ok value after => Tells program machine after ∧ returns value after
  | .error _ after => after.events = machine.events

section
variable {α β : Type} {program : Program} {returns : α → Machine → Prop} {machine after : Machine}

/-- What an action tells if it succeeds. -/
theorem Accounts.of_ok {action : Exec α} (accounts : Accounts program returns machine action)
    {value : α} (done : action machine = .ok value after) :
    Tells program machine after ∧ returns value after := by
  unfold Accounts at accounts
  rw [done] at accounts
  exact accounts

/-- An action that fails tells nothing. -/
theorem Accounts.of_error {action : Exec α} (accounts : Accounts program returns machine action)
    {error : Error} (failed : action machine = .error error after) :
    after.events = machine.events := by
  unfold Accounts at accounts
  rw [failed] at accounts
  exact accounts

/-- Something quiet may come first. -/
theorem Hushes.then {first : Exec β} {second : β → Exec α} (hushes : Hushes machine machine first)
    (next : ∀ value middle, Accounts program returns middle (second value)) :
    Accounts program returns machine (first >>= second) := by
  unfold Accounts
  rw [bind_apply]
  cases done : first machine with
  | error error final => exact (hushes.of_error done).1.events
  | ok value middle =>
      have quiet := hushes.of_ok done
      have accounts := next value middle
      dsimp only
      cases ran : second value middle with
      | error error final => exact (accounts.of_error ran).trans quiet.events
      | ok other final =>
          obtain ⟨tells, returned⟩ := accounts.of_ok ran
          exact ⟨tells.after_quiet quiet, returned⟩

/-- Looking whether the machine has come to its end is the last part of a step. -/
theorem Accounts.isEmpty {action : Exec PUnit}
    (accounts : Accounts program (fun _ _ => True) machine action) :
    Accounts program (fun ended after => ended = after.calls.isEmpty) machine
      (action >>= fun _ => do return (← get).calls.isEmpty) := by
  unfold Accounts
  rw [bind_apply]
  cases done : action machine with
  | error error final => exact accounts.of_error done
  | ok _ moved => exact ⟨(accounts.of_ok done).1, rfl⟩

/-- A procedure is entered if there is room, and this is reported. -/
theorem enters_of_enter {proc : ProcId} (entered : enter program proc machine = .ok () after) :
    ∃ code, program.procs[proc.index.toNat]? = some code ∧
      machine.procs.length < program.maxCallDepth ∧
      after.events = .entering program.module (code.flags.contains ProcFlags.trace) proc
        machine.procs.length :: machine.events ∧
      after.procs = proc :: machine.procs := by
  rw [← depth_eq_length_procs]
  by_cases full : program.maxCallDepth ≤ machine.calls.depth
  · rw [enter_of_full proc full] at entered
    cases entered
  · cases found : program.procs[proc.index.toNat]? with
    | none =>
        rw [enter_of_missing full found] at entered
        cases entered
    | some code =>
        refine ⟨code, rfl, Nat.lt_of_not_le full, ?_⟩
        have isFound : program.proc proc = .ok code := by
          unfold Program.proc
          rw [found]
          rfl
        unfold enter at entered
        rw [get_bind_apply] at entered
        dsimp only at entered
        rw [if_neg full, bind_apply, inspect_apply, isFound] at entered
        dsimp only at entered
        unfold Event.entering
        split at entered
        next traced =>
          cases entered
          rw [if_pos traced]
          exact ⟨rfl, rfl⟩
        next plain =>
          cases entered
          rw [if_neg plain]
          exact ⟨rfl, rfl⟩

/-- Entering a procedure is told. -/
theorem accounts_enter (program : Program) (machine : Machine) (proc : ProcId) :
    Accounts program (fun _ _ => True) machine (enter program proc) := by
  unfold Accounts
  cases done : enter program proc machine with
  | error error final => exact congrArg Machine.events (eq_of_enter_error done)
  | ok _ entered =>
      obtain ⟨code, found, room, events, procs⟩ := enters_of_enter done
      exact ⟨.enters found room events procs, trivial⟩

/-- Leaving begins with taking the innermost activation away. -/
theorem leave_apply {activation : Activation} {rest : List Activation}
    (top : machine.calls.activations = activation :: rest) :
    leave program machine = (do
      activation.scopes.forM fun reg => discard (onRegisters (Registers.pop reg))
      let code ← inspect fun _ => program.proc activation.proc
      if code.flags.contains ProcFlags.trace then
        emit (.leftTraced program.module activation.proc (← get).calls.depth) : Exec Unit)
      { machine with calls := machine.calls.pop } := by
  unfold leave
  rw [get_bind_apply, top?_eq top]
  rfl

/-- Leaving a procedure is told. Scopes that have been left open are closed before the report. -/
theorem accounts_leave (program : Program) (machine : Machine) :
    Accounts program (fun _ _ => True) machine (leave program) := by
  unfold Accounts
  cases top : machine.calls.activations with
  | nil =>
      have none : machine.calls.top? = none := List.head?_eq_none_iff.mpr top
      unfold leave
      rw [get_bind_apply, none]
      exact rfl
  | cons activation rest =>
      let popped : Machine := { machine with calls := machine.calls.pop }
      have procs : machine.procs = activation.proc :: rest.map Activation.proc := by
        unfold Machine.procs
        rw [top]
        rfl
      have procsPopped : popped.procs = rest.map Activation.proc := by
        show machine.calls.activations.tail.map _ = _
        rw [top]
        rfl
      -- closing the scopes changes the registers only
      have closes : Hushes popped popped (activation.scopes.forM fun reg =>
          discard (onRegisters (Registers.pop reg))) :=
        keeps_forM (Quiet.refl popped) fun reg _ machine quiet =>
          (quiet_onRegisters quiet _).discard
      rw [leave_apply top, bind_apply]
      cases closed : (activation.scopes.forM fun reg =>
          discard (onRegisters (Registers.pop reg)) : Exec PUnit) popped with
      | error error final => exact (closes.of_error closed).1.events
      | ok _ middle =>
          have quiet := closes.of_ok closed
          -- the depth in the report is counted after the activation is gone
          have left : middle.procs = rest.map Activation.proc := quiet.procs.trans procsPopped
          have depth : middle.calls.depth = (rest.map Activation.proc).length := by
            rw [depth_eq_length_procs, left]
          dsimp only
          rw [bind_apply, inspect_apply]
          unfold Program.proc
          cases found : program.procs[activation.proc.index.toNat]? with
          | none => exact quiet.events
          | some code =>
              dsimp only [orError]
              cases traced : code.flags.contains ProcFlags.trace with
              | true =>
                  refine ⟨.leaves found procs ?_ left, trivial⟩
                  rw [traced, ← depth]
                  exact congrArg _ quiet.events
              | false =>
                  refine ⟨.leaves found procs ?_ left, trivial⟩
                  rw [traced]
                  exact quiet.events

/-- Where an instruction leads is told. -/
theorem accounts_moveOn (program : Program) (pc : Nat) (outcome : Outcome) (machine : Machine) :
    Accounts program (fun ended after => ended = after.calls.isEmpty) machine
      (moveOn program pc outcome) := by
  have turns : ∀ target, Hushes machine machine
      (updateTop fun top => { top with pc := target }) :=
    fun target => quiet_updateTop (Quiet.refl machine) _ fun _ => rfl
  have ends : ∀ machine, Accounts program (fun ended after => ended = after.calls.isEmpty) machine
      (do return (← get).calls.isEmpty) := fun machine => ⟨.nothing (Quiet.refl machine), rfl⟩
  cases outcome with
  | next => exact (turns (pc + 1)).then fun _ middle => ends middle
  | jump target => exact (turns target).then fun _ middle => ends middle
  | call proc =>
      exact (turns (pc + 1)).then fun _ middle => (accounts_enter program middle proc).isEmpty
  | ret => exact (accounts_leave program machine).isEmpty

/-- **What one step tells.** It goes on within a procedure, enters one or leaves one; and if it
fails, nothing is reported. -/
theorem accounts_step (program : Program) (machine : Machine) :
    Accounts program (fun ended after => ended = after.calls.isEmpty) machine (step program) := by
  have looks : Hushes machine machine (inspect (current program)) := by
    unfold Hushes Keeps
    rw [inspect_apply]
    cases current program machine with
    | ok found => exact Quiet.refl machine
    | error error => exact ⟨Quiet.refl machine, fun _ _ => trivial⟩
  refine looks.then fun found middle => ?_
  exact (quiet_execute program middle found.1 found.2).then fun outcome last =>
    accounts_moveOn program found.2 outcome last

end

end Machine

end ScopeMachine
