import ScopeMachine.Proofs.Reports

/-! # Calls are well bracketed

Where a procedure is entered, the depth is reported before the activation is pushed; where a traced
procedure is left, it is reported after the activation has been popped. The two are matched by an
invariant that ties the reports to the activations.

* `Complete` are the reports of calls that have come to an end, and `Complete.balanced` says that
  those of traced procedures among them are a balanced sequence of brackets;
* `Underway` are the reports while some procedures are active. It is kept by every step
  (`Underway.tells`) and so by every run (`Underway.continueFor`), and it can always be completed
  (`Underway.completes`);
* `calls_bracketed` says this of calls of compiled modules, and where each report of an entry comes
  from.

Events are kept with the latest first; the sequences here are in the order in which things
happen. -/

namespace ScopeMachine

/-- Whether a module asks that the calls of a procedure be traced. -/
def Module.traces (module : Module) (proc : ProcId) : Bool :=
  (module.proc? proc).any fun declared => declared.flags.contains ProcFlags.trace

/-! ### Brackets -/

/-- Whether an event is one of a traced procedure. -/
def Event.isTraced : Event → Bool
  | .enteredTraced .. => true
  | .leftTraced .. => true
  | _ => false

/-- The depth at which a procedure is entered, traced or not. -/
def Event.entryDepth? : Event → Option Nat
  | .enteredTraced _ _ depth => some depth
  | .entered _ depth => some depth
  | _ => none

/-- A balanced sequence of brackets: the end of a bracket names the same module, procedure and depth
as its beginning. -/
inductive Balanced : List Event → Prop
  /-- No bracket. -/
  | nothing : Balanced []
  /-- A bracket around some, and before some. -/
  | pair (module : ModuleId) (proc : ProcId) (depth : Nat) {within later : List Event}
      (inner : Balanced within) (others : Balanced later) :
      Balanced (.enteredTraced module proc depth ::
        (within ++ .leftTraced module proc depth :: later))

/-- Balanced sequences can follow each other. -/
theorem Balanced.append {first second : List Event} (balanced : Balanced first)
    (other : Balanced second) : Balanced (first ++ second) := by
  induction balanced with
  | nothing => exact other
  | pair module proc depth inner others _ ih =>
      rw [List.cons_append, List.append_assoc, List.cons_append]
      exact .pair module proc depth inner ih

/-- The reports of calls that have come to an end, one after the other, at a depth below a limit. -/
inductive Complete (module : Module) (limit : Nat) : (depth : Nat) → List Event → Prop
  /-- No call. -/
  | nothing {depth : Nat} : Complete module limit depth []
  /-- A call, with the calls that it makes one deeper, and then others. -/
  | call {depth : Nat} {proc : ProcId} {within later : List Event}
      (declared : module.proc? proc ≠ none) (room : depth < limit)
      (inner : Complete module limit (depth + 1) within)
      (others : Complete module limit depth later) :
      Complete module limit depth (.entering module.id (module.traces proc) proc depth ::
        (within ++ (Event.leaving module.id (module.traces proc) proc depth ++ later)))

section
variable {module : Module} {limit depth : Nat} {events : List Event}

/-- Calls can follow each other. -/
theorem Complete.append {more : List Event} (complete : Complete module limit depth events)
    (others : Complete module limit depth more) : Complete module limit depth (events ++ more) := by
  induction complete with
  | nothing => exact others
  | call declared room inner _ _ ih =>
      rw [List.cons_append, List.append_assoc, List.append_assoc]
      exact .call declared room inner (ih others)

/-- One call, with the calls that it makes. -/
theorem Complete.single {proc : ProcId} {within : List Event} (declared : module.proc? proc ≠ none)
    (room : depth < limit) (inner : Complete module limit (depth + 1) within) :
    Complete module limit depth (.entering module.id (module.traces proc) proc depth ::
      (within ++ Event.leaving module.id (module.traces proc) proc depth)) := by
  have call := Complete.call declared room inner .nothing
  rw [List.append_nil] at call
  exact call

/-- **The reports of traced procedures are balanced**, whatever calls there are in between. -/
theorem Complete.balanced (complete : Complete module limit depth events) :
    Balanced (events.filter Event.isTraced) := by
  induction complete with
  | nothing => exact .nothing
  | @call depth proc within later declared room inner others ihInner ihOthers =>
      cases traced : module.traces proc with
      | true =>
          show Balanced (List.filter Event.isTraced (.enteredTraced module.id proc depth ::
            (within ++ .leftTraced module.id proc depth :: later)))
          rw [List.filter_cons_of_pos rfl, List.filter_append, List.filter_cons_of_pos rfl]
          exact .pair module.id proc depth ihInner ihOthers
      | false =>
          -- a procedure that is not traced leaves no bracket
          show Balanced (List.filter Event.isTraced (.entered proc depth :: (within ++ later)))
          rw [List.filter_cons_of_neg Bool.false_ne_true, List.filter_append]
          exact ihInner.append ihOthers

/-- What an event of a call says: an entry is at a depth below the limit, and brackets are of
procedures that the module traces. No other events belong to calls. -/
def Event.Concerns (module : Module) (limit : Nat) : Event → Prop
  | .enteredTraced id proc depth => id = module.id ∧ module.traces proc = true ∧ depth < limit
  | .entered proc depth => module.traces proc = false ∧ depth < limit
  | .leftTraced id proc _ => id = module.id ∧ module.traces proc = true
  | _ => False

/-- The report of an entry. -/
theorem concerns_entering (module : Module) (proc : ProcId) (room : depth < limit) :
    (Event.entering module.id (module.traces proc) proc depth).Concerns module limit := by
  cases traced : module.traces proc with
  | true => exact ⟨rfl, traced, room⟩
  | false => exact ⟨traced, room⟩

/-- The report of an exit. -/
theorem concerns_leaving (limit : Nat) {proc : ProcId} {event : Event}
    (member : event ∈ Event.leaving module.id (module.traces proc) proc depth) :
    event.Concerns module limit := by
  cases traced : module.traces proc with
  | true =>
      rw [traced] at member
      rw [List.mem_singleton.mp member]
      exact ⟨rfl, traced⟩
  | false =>
      rw [traced] at member
      cases member

/-- Only calls are reported. -/
theorem Complete.concerns (complete : Complete module limit depth events) :
    ∀ event ∈ events, event.Concerns module limit := by
  induction complete with
  | nothing =>
      intro event member
      cases member
  | call declared room inner others ihInner ihOthers =>
      intro event member
      rcases List.mem_cons.mp member with rfl | member
      · exact concerns_entering module _ room
      · rcases List.mem_append.mp member with member | member
        · exact ihInner event member
        · rcases List.mem_append.mp member with leaves | member
          · exact concerns_leaving limit leaves
          · exact ihOthers event member

/-! ### Calls that are under way -/

/-- The reports while some procedures are active, the innermost first. -/
inductive Underway (module : Module) (limit : Nat) : List ProcId → List Event → Prop
  /-- No procedure is active. -/
  | outside {events : List Event} (complete : Complete module limit 0 events) :
      Underway module limit [] events
  /-- A procedure has been entered, and has made some calls since. -/
  | inside {proc : ProcId} {procs : List ProcId} {before within : List Event}
      (outer : Underway module limit procs before) (declared : module.proc? proc ≠ none)
      (room : procs.length < limit) (inner : Complete module limit (procs.length + 1) within) :
      Underway module limit (proc :: procs)
        (before ++ .entering module.id (module.traces proc) proc procs.length :: within)

variable {procs : List ProcId}

/-- Calls that come to an end may be made in between. -/
theorem Underway.append {more : List Event} (underway : Underway module limit procs events)
    (complete : Complete module limit procs.length more) :
    Underway module limit procs (events ++ more) := by
  cases underway with
  | outside before => exact .outside (before.append complete)
  | inside outer declared room inner =>
      rw [List.append_assoc, List.cons_append]
      exact .inside outer declared room (inner.append complete)

/-- A procedure is entered. -/
theorem Underway.enter {proc : ProcId} (underway : Underway module limit procs events)
    (declared : module.proc? proc ≠ none) (room : procs.length < limit) :
    Underway module limit (proc :: procs)
      (events ++ [.entering module.id (module.traces proc) proc procs.length]) :=
  .inside underway declared room .nothing

/-- The innermost procedure is left. -/
theorem Underway.leave {proc : ProcId} (underway : Underway module limit (proc :: procs) events) :
    Underway module limit procs
      (events ++ Event.leaving module.id (module.traces proc) proc procs.length) := by
  cases underway with
  | inside outer declared room inner =>
      rw [List.append_assoc, List.cons_append]
      exact outer.append (.single declared room inner)

/-- **What is under way can be completed**: the active procedures only have to be left. -/
theorem Underway.completes (underway : Underway module limit procs events) :
    ∃ rest, Complete module limit 0 (events ++ rest) := by
  induction procs generalizing events with
  | nil =>
      cases underway with
      | outside complete => exact ⟨[], by rw [List.append_nil]; exact complete⟩
  | cons proc procs ih =>
      obtain ⟨rest, complete⟩ := ih underway.leave
      rw [List.append_assoc] at complete
      exact ⟨_, complete⟩

end

/-! ### Steps and runs -/

/-- A program with the procedures of a module, and with a limit. -/
structure Program.Speaks (program : Program) (module : Module) (limit : Nat) : Prop where
  /-- It reports under the identity of the module. -/
  id : program.module = module.id
  /-- It has the limit. -/
  depth : program.maxCallDepth = limit
  /-- It traces the procedures that the module asks for. -/
  traces : ∀ {proc : ProcId} {code : ProcCode}, program.procs[proc.index.toNat]? = some code →
    module.proc? proc ≠ none ∧ code.flags.contains ProcFlags.trace = module.traces proc

/-- A compiled module is such a program. -/
theorem speaks_of_compile {module : Module} {limit : Nat} {program : Program} {before after : Store}
    (compile : Program.compile module limit before = .ok program after) :
    program.Speaks module limit := by
  obtain ⟨compiles, sameLimit⟩ := compiles_of_compile compile
  refine ⟨?_, sameLimit, ?_⟩
  · obtain ⟨regs, procs, -, -, rfl⟩ := compile_eq_ok.mp compile
    rfl
  · intro proc code found
    obtain ⟨declared, isDeclared, resolves⟩ := compiles.proc found
    have here : module.proc? proc = some declared := isDeclared
    unfold Module.traces
    rw [here, resolves.flags]
    exact ⟨Option.some_ne_none _, rfl⟩

namespace Machine

section
variable {module : Module} {limit : Nat} {program : Program} {machine after : Machine}

/-- The reports of a machine tell which procedures are active. -/
def Orderly (module : Module) (limit : Nat) (machine : Machine) : Prop :=
  Underway module limit machine.procs machine.events.reverse

/-- **A step keeps the reports in order.** -/
theorem Orderly.tells (speaks : program.Speaks module limit)
    (orderly : machine.Orderly module limit) (tells : Tells program machine after) :
    after.Orderly module limit := by
  unfold Orderly at orderly ⊢
  cases tells with
  | nothing quiet =>
      rw [quiet.procs, quiet.events]
      exact orderly
  | enters found room events procs =>
      obtain ⟨declared, traced⟩ := speaks.traces found
      rw [events, procs, List.reverse_cons, speaks.id, traced]
      rw [speaks.depth] at room
      exact orderly.enter declared room
  | @leaves proc code rest found was events procs =>
      obtain ⟨declared, traced⟩ := speaks.traces found
      rw [was] at orderly
      have single : ∀ module traced proc depth,
          (Event.leaving module traced proc depth).reverse =
            Event.leaving module traced proc depth := by
        intro module traced proc depth
        unfold Event.leaving
        split <;> rfl
      rw [events, procs, List.reverse_append, single, speaks.id, traced]
      exact orderly.leave

/-- **A run keeps the reports in order.** If it has returned, no procedure is active; if it has
failed, the reports are those of its last completed step. -/
theorem Orderly.continueFor (speaks : program.Speaks module limit)
    (orderly : machine.Orderly module limit) (steps : Nat) :
    (∃ procs, Underway module limit procs (continueFor program steps machine).1.events.reverse) ∧
      ((continueFor program steps machine).2 = .returned →
        Complete module limit 0 (continueFor program steps machine).1.events.reverse) := by
  induction steps generalizing machine with
  | zero => exact ⟨⟨_, orderly⟩, by rintro ⟨⟩⟩
  | succ steps ih =>
      have accounts := accounts_step program machine
      rw [Machine.continueFor]
      cases stepped : step program machine with
      | error error final =>
          dsimp only
          rw [accounts.of_error stepped]
          exact ⟨⟨_, orderly⟩, by rintro ⟨⟩⟩
      | ok ended next =>
          obtain ⟨tells, isEmpty⟩ := accounts.of_ok stepped
          have kept := orderly.tells speaks tells
          cases ended with
          | false => exact ih kept
          | true =>
              -- the run has returned, so nothing is active and nothing is left open
              refine ⟨⟨_, kept⟩, fun _ => ?_⟩
              have none : next.procs = [] := by
                unfold Machine.procs
                rw [List.isEmpty_iff.mp isEmpty.symm]
                rfl
              unfold Orderly at kept
              rw [none] at kept
              cases kept with
              | outside complete => exact complete

/-! ### Where entries are reported -/

/-- A report of an entry that is there after a step was there before; or the step has made it, and
it tells how many activations there were. -/
theorem entry_of_tells (tells : Tells program machine after) {later earlier : List Event}
    {event : Event} {depth : Nat} (reported : after.events = later ++ event :: earlier)
    (enters : event.entryDepth? = some depth) :
    (∃ others, machine.events = others ++ event :: earlier) ∨
      machine.events = earlier ∧ after.events = event :: earlier ∧
        machine.procs.length = depth := by
  cases tells with
  | nothing quiet => exact .inl ⟨later, quiet.events ▸ reported⟩
  | enters found room events procs =>
      cases later with
      | nil =>
          refine .inr ?_
          rw [events] at reported
          obtain ⟨rfl, rfl⟩ := List.cons.inj reported
          refine ⟨rfl, events, ?_⟩
          unfold Event.entering at enters
          split at enters <;> exact Option.some.inj enters
      | cons last others =>
          rw [events] at reported
          exact .inl ⟨others, (List.cons.inj reported).2⟩
  | leaves found was events procs =>
      rw [events] at reported
      unfold Event.leaving at reported
      split at reported
      · cases later with
        | nil =>
            obtain ⟨rfl, -⟩ := List.cons.inj reported
            cases enters
        | cons last others => exact .inl ⟨others, (List.cons.inj reported).2⟩
      · exact .inl ⟨later, reported⟩

/-- A report of an entry that is there after a run was there before; or one of its steps has made
it, and it tells how many activations there were. -/
theorem entry_of_continueFor {steps : Nat} {later earlier : List Event} {event : Event}
    {depth : Nat}
    (reported : (continueFor program steps machine).1.events = later ++ event :: earlier)
    (enters : event.entryDepth? = some depth) :
    (∃ others, machine.events = others ++ event :: earlier) ∨
      ∃ taken before ended next, continueFor program taken machine = (before, .running) ∧
        step program before = .ok ended next ∧ before.events = earlier ∧
        next.events = event :: earlier ∧ before.procs.length = depth := by
  induction steps generalizing machine with
  | zero => exact .inl ⟨later, reported⟩
  | succ steps ih =>
      have accounts := accounts_step program machine
      rw [continueFor] at reported
      cases stepped : step program machine with
      | error error final =>
          rw [stepped] at reported
          exact .inl ⟨later, accounts.of_error stepped ▸ reported⟩
      | ok ended next =>
          rw [stepped] at reported
          -- what was there after the first step was there before, or is the report of this step
          have first : ∀ {others : List Event}, next.events = others ++ event :: earlier →
              (∃ others, machine.events = others ++ event :: earlier) ∨
                ∃ taken before ended next, continueFor program taken machine = (before, .running) ∧
                  step program before = .ok ended next ∧ before.events = earlier ∧
                  next.events = event :: earlier ∧ before.procs.length = depth := by
            intro others reported
            rcases entry_of_tells (accounts.of_ok stepped).1 reported enters with
              before | ⟨same, made, length⟩
            · exact .inl before
            · exact .inr ⟨0, machine, ended, next, rfl, stepped, same, made, length⟩
          cases ended with
          | true => exact first reported
          | false =>
              rcases ih reported with ⟨others, before⟩ | ⟨taken, before, ended, last, ran, rest⟩
              · exact first before
              · refine .inr ⟨taken + 1, before, ended, last, ?_, rest⟩
                rw [continueFor, stepped]
                exact ran

end

/-! ### Calls -/

/-- What leads from one machine to the next during a call: the entry point is entered, or a step is
taken. -/
inductive Passes (program : Program) (proc : ProcId) (io : VarId) (store : Store)
    (before after : Machine) : Prop
  /-- The entry point is entered. -/
  | starts {entry : ProcCode} (starts : Starts program proc io store entry before after)
  /-- A step is taken. -/
  | steps {taken : Nat} {ended : Bool}
      (ran : invoke program proc io taken store = (before, .running))
      (stepped : step program before = .ok ended after)

/-- What the reports of a call say, in whatever way it has ended, or if it has not. -/
structure Recounts (module : Module) (limit : Nat) (program : Program) (proc : ProcId) (io : VarId)
    (store : Store) (machine : Machine) (completion : Completion) : Prop where
  /-- If the call has returned, all calls have come to an end, and those of traced procedures are a
  balanced sequence of brackets. -/
  returned : completion = .returned → Complete module limit 0 machine.events.reverse ∧
    Balanced (machine.events.reverse.filter Event.isTraced)
  /-- In any case the reports are the first part of such a sequence. -/
  underway : ∃ rest, Complete module limit 0 (machine.events.reverse ++ rest) ∧
    Balanced ((machine.events.reverse ++ rest).filter Event.isTraced)
  /-- Every entry, traced or not, is reported with the number of activations that were open just
  then, which was below the limit. -/
  entries : ∀ {later earlier : List Event} {event : Event} {depth : Nat},
    machine.events = later ++ event :: earlier → event.entryDepth? = some depth →
      depth < limit ∧ ∃ before after, Passes program proc io store before after ∧
        before.events = earlier ∧ after.events = event :: earlier ∧
        before.calls.activations.length = depth
  /-- Exits are reported of traced procedures only, and entries as traced or not as the module asks
  for. -/
  concerns : ∀ event ∈ machine.events, event.Concerns module limit

section
variable {module : Module} {limit : Nat} {program : Program} {proc : ProcId} {io : VarId}
  {store : Store} {machine : Machine} {completion : Completion}

/-- What reports that are in order say. -/
theorem recounts_of_underway {procs : List ProcId}
    (underway : Underway module limit procs machine.events.reverse)
    (returned : completion = .returned → Complete module limit 0 machine.events.reverse)
    (entries : ∀ {later earlier : List Event} {event : Event} {depth : Nat},
      machine.events = later ++ event :: earlier → event.entryDepth? = some depth →
        ∃ before after, Passes program proc io store before after ∧ before.events = earlier ∧
          after.events = event :: earlier ∧ before.calls.activations.length = depth) :
    Recounts module limit program proc io store machine completion := by
  obtain ⟨rest, complete⟩ := underway.completes
  have concerns : ∀ event ∈ machine.events, event.Concerns module limit := by
    intro event member
    exact complete.concerns event (List.mem_append_left _ (List.mem_reverse.mpr member))
  refine ⟨fun ended => ⟨returned ended, (returned ended).balanced⟩,
    ⟨rest, complete, complete.balanced⟩, ?_, concerns⟩
  intro later earlier event depth reported enters
  have concern := concerns event
    (by rw [reported]; exact List.mem_append_right _ List.mem_cons_self)
  refine ⟨?_, entries reported enters⟩
  cases event with
  | enteredTraced => exact Option.some.inj enters ▸ concern.2.2
  | entered => exact Option.some.inj enters ▸ concern.2
  | _ => cases enters

/-- A call that is refused reports nothing. -/
theorem Refuses.events {error : Error} (refuses : Refuses program proc io store error machine) :
    machine.events = [] := by
  cases refuses with
  | forbids refused => rfl
  | @lacks entry _ allowed refused =>
      exact ((quiet_prepare program entry io (idle program store)).of_error refused).1.events
  | excludes allowed prepared refused =>
      rw [eq_of_enter_error refused]
      exact (prepared_of_prepare prepared).events

/-- **Calls are well bracketed**, in whatever way they end. -/
theorem recounts_of_invoke (speaks : program.Speaks module limit) (proc : ProcId) (io : VarId)
    (steps : Nat) (store : Store) :
    Recounts module limit program proc io store (invoke program proc io steps store).1
      (invoke program proc io steps store).2 := by
  rcases invoke_cases program proc io store with
    ⟨entry, start, entered, starts, runs⟩ | ⟨error, final, refuses, fails⟩
  · have prepared := prepared_of_prepare starts.prepared
    obtain ⟨code, found, room, events, procs⟩ := enters_of_enter starts.entered
    have none : start.procs = [] := by
      unfold Machine.procs
      rw [prepared.calls]
      rfl
    have orderly : entered.Orderly module limit := by
      refine Orderly.tells speaks ?_ (.enters found room events procs)
      unfold Orderly
      rw [none, prepared.events]
      exact .outside .nothing
    obtain ⟨⟨active, underway⟩, returned⟩ := orderly.continueFor speaks steps
    rw [runs]
    refine recounts_of_underway underway returned ?_
    intro later earlier event depth reported enters
    rcases entry_of_continueFor reported enters with
      ⟨others, first⟩ | ⟨taken, before, ended, next, ran, stepped, same, made, length⟩
    · -- only the entry point has been entered before the first step
      rcases entry_of_tells (.enters found room events procs) first enters with
        ⟨others, before⟩ | ⟨same, made, length⟩
      · rw [prepared.events] at before
        cases others <;> cases before
      · refine ⟨start, entered, .starts starts, same, made, ?_⟩
        rw [← length, Machine.procs, List.length_map]
    · refine ⟨before, next, .steps (by rw [runs]; exact ran) stepped, same, made, ?_⟩
      rw [← length, Machine.procs, List.length_map]
  · rw [fails]
    have silent := refuses.events
    have outside : Underway module limit [] final.events.reverse := by
      rw [silent]
      exact .outside .nothing
    refine recounts_of_underway outside (by rintro ⟨⟩) ?_
    · intro later earlier event depth reported
      rw [silent] at reported
      cases later <;> cases reported

end

end Machine

/-! ### Hosts -/

namespace Host

section
variable {host after : Host} {module : Module} {program : Program} {key : Nat} {id : ModuleId}

/-- Running a program adds the reports of the machine. -/
theorem events_invokeProgram (host : Host) (program : Program) (proc : ProcId) (io : VarId)
    (steps : Nat) : (host.after (invokeProgram program proc io steps)).events =
      (Machine.invoke program proc io steps host.store).1.events ++ host.events := by
  have settled : ∀ (host : Host) (machine : Machine) (completion : Machine.Completion),
      (host.after (settle machine completion)).events = machine.events ++ host.events := by
    intro host machine completion
    cases completion <;> rfl
  exact settled { host with store := Slots.empty } _ _

/-- A call that comes back without an error has added the reports of the machine. -/
theorem events_callModule_ok (isStage : host.stage key id = .compiled module program)
    {proc : ProcId} {io : VarId} {steps : Nat} {status : CallStatus}
    (called : callModule key id proc io steps host = .ok status after) :
    after.events = (Machine.invoke program proc io steps host.store).1.events ++ host.events ∧
      (status = .returned → (Machine.invoke program proc io steps host.store).2 = .returned) := by
  have ends := outcome_invokeProgram host program proc io steps
  have events := events_invokeProgram host program proc io steps
  rw [callModule_apply isStage] at called
  split at called
  · cases called
  · rw [tryCatch_apply] at called
    unfold outcome at ends
    unfold Host.after at events
    cases ran : invokeProgram program proc io steps host with
    | error error middle =>
        rw [ran] at called
        cases error <;> cases called
    | ok value middle =>
        rw [ran] at called ends events
        cases called
        refine ⟨events, ?_⟩
        rintro rfl
        cases completion : (Machine.invoke program proc io steps host.store).2 with
        | returned => rfl
        | failed error | running =>
            rw [completion] at ends
            cases ends

/-- A call that fails has added the reports of the machine, and a fault at most. -/
theorem events_callModule_error (isStage : host.stage key id = .compiled module program)
    {proc : ProcId} {io : VarId} {steps : Nat} {error : Error}
    (failed : callModule key id proc io steps host = .error error after) :
    ∃ faults, after.events =
        faults ++ (Machine.invoke program proc io steps host.store).1.events ++ host.events ∧
      ∀ event ∈ faults, ∃ fault, event = .faulted id proc fault := by
  have events := events_invokeProgram host program proc io steps
  rw [callModule_apply isStage] at failed
  split at failed
  next missing =>
    -- without an entry point the machine is not started
    cases failed
    have none : program.entryPoint? proc = none := Option.isNone_iff_eq_none.mp missing
    have idle : (Machine.invoke program proc io steps host.store).1.events = [] := by
      unfold Machine.invoke Machine.checkCall
      rw [none]
      rfl
    exact ⟨[], by rw [idle]; rfl, fun event member => by cases member⟩
  next =>
    rw [tryCatch_apply] at failed
    unfold Host.after at events
    cases ran : invokeProgram program proc io steps host with
    | ok value middle =>
        rw [ran] at failed
        cases failed
    | error reason middle =>
        rw [ran] at failed events
        dsimp only at events
        cases reason with
        | execution fault =>
            cases failed
            refine ⟨[.faulted id proc fault], congrArg _ events, ?_⟩
            intro event member
            exact ⟨fault, List.mem_singleton.mp member⟩
        | _ =>
            cases failed
            exact ⟨[], events, fun event member => by cases member⟩

end

end Host

/-- **Calls are well bracketed.** A call of a compiled module adds the reports of its machine to the
events of the host, and a fault behind them if it ends in one. If it returns, the reports of traced
procedures are a balanced sequence of brackets; otherwise they are the first part of one. Every
entry is reported with the number of activations that are open just then, which is below the limit,
and exits are reported of traced procedures only. The code need not even have been verified. -/
theorem calls_bracketed {module : Module} {program : Program} {maxCallDepth : Nat}
    {before compiled : Store}
    (compile : Program.compile module maxCallDepth before = .ok program compiled) {host : Host}
    {key : Nat} {id : ModuleId} (isStage : host.stage key id = .compiled module program)
    (proc : ProcId) (io : VarId) (steps : Nat) :
    ∃ machine completion,
      Machine.invoke program proc io steps host.store = (machine, completion) ∧
      Machine.Recounts module maxCallDepth program proc io host.store machine completion ∧
      (∀ status after, Host.callModule key id proc io steps host = .ok status after →
        after.events = machine.events ++ host.events ∧
          (status = .returned → completion = .returned)) ∧
      ∀ error after, Host.callModule key id proc io steps host = .error error after →
        ∃ faults, after.events = faults ++ machine.events ++ host.events ∧
          ∀ event ∈ faults, ∃ fault, event = .faulted id proc fault := by
  refine ⟨_, _, rfl, ?_, ?_, ?_⟩
  · exact Machine.recounts_of_invoke (speaks_of_compile compile) proc io steps host.store
  · exact fun status after called => Host.events_callModule_ok isStage called
  · exact fun error after failed => Host.events_callModule_error isStage failed

namespace Samples

/-- The identity of the seesaw. -/
def seesawId : ModuleId := ⟨5⟩

/-- Two procedures that call each other and count their argument down to zero. The first is
traced. -/
def seesaw : Build Unit := do
  let n ← addWordReg
  let ptype ← Builder.addProcType entryFlags n
  let traced ← Builder.addProc ProcFlags.trace ptype
  let plain ← Builder.addProc Flags.empty ptype
  addCode traced [.jz n 3, .dec n, .call plain, .ret]
  addCode plain [.jz n 3, .dec n, .call traced, .ret]

/-- A host with the seesaw, compiled for some number of nested calls, and with the word three. -/
def seesawHost (limit : Nat) : Host :=
  Host.empty.after do
    let registry ← Host.newRegistry (.interpreter limit)
    register registry seesaw seesawId
    Host.unpackModule registry seesawId
    let io ← Host.newVar (Variable.zeroed ⟨VarTypeId.word, VarType.word⟩ 1)
    Host.setWord io 0 3

/-- The module of the seesaw. -/
def seesawModule : Module :=
  match seesaw Builder.initial with
  | .ok _ builder | .error _ builder => { builder.module with id := seesawId }

/-- The seesaw, compiled for some number of nested calls. -/
def seesawProgram (limit : Nat) : Program :=
  match Program.compile seesawModule limit Slots.empty with
  | .ok program _ => program
  | .error _ _ => ⟨ModuleId.nil, limit, #[], #[]⟩

/-- The reports of the seesaw for the word three. -/
def seesawReports : List Event :=
  [.enteredTraced seesawId entry 0, .entered ⟨1⟩ 1, .enteredTraced seesawId entry 2,
    .entered ⟨1⟩ 3, .leftTraced seesawId entry 2, .leftTraced seesawId entry 0]

end Samples

/-- The seesaw goes four activations deep. With room for ten, the reports of the first procedure are
two brackets, one in the other; with room for three, the first three entries are reported. -/
theorem seesaw_bracketed :
    (∃ machine, Machine.invoke (Samples.seesawProgram 10) Samples.entry 0 50
        (Samples.seesawHost 10).store = (machine, .returned) ∧
      machine.events.reverse = Samples.seesawReports ∧
      Balanced (Samples.seesawReports.filter Event.isTraced)) ∧
    ∃ machine rest, Machine.invoke (Samples.seesawProgram 3) Samples.entry 0 50
        (Samples.seesawHost 3).store =
          (machine, .failed (.execution (.callDepthExceeded 3))) ∧
      machine.events.reverse = Samples.seesawReports.take 3 ∧
      Balanced ((Samples.seesawReports.take 3 ++ rest).filter Event.isTraced) := by
  have compile : ∀ limit, Program.compile Samples.seesawModule limit Slots.empty =
      .ok (Samples.seesawProgram limit) Slots.empty := fun _ => rfl
  refine ⟨?_, ?_⟩
  · have isStage : (Samples.seesawHost 10).stage 0 Samples.seesawId =
        .compiled Samples.seesawModule (Samples.seesawProgram 10) := by decide +kernel
    have reports : ((Machine.invoke (Samples.seesawProgram 10) Samples.entry 0 50
        (Samples.seesawHost 10).store).map (fun machine => machine.events.reverse) id) =
          (Samples.seesawReports, .returned) := by decide +kernel
    obtain ⟨machine, completion, ran, recounts, -, -⟩ :=
      calls_bracketed (compile 10) isStage Samples.entry 0 50
    rw [ran] at reports
    obtain ⟨same, rfl⟩ := Prod.mk.inj reports
    refine ⟨machine, ran, same, ?_⟩
    rw [← same]
    exact (recounts.returned rfl).2
  · have isStage : (Samples.seesawHost 3).stage 0 Samples.seesawId =
        .compiled Samples.seesawModule (Samples.seesawProgram 3) := by decide +kernel
    have reports : ((Machine.invoke (Samples.seesawProgram 3) Samples.entry 0 50
        (Samples.seesawHost 3).store).map (fun machine => machine.events.reverse) id) =
          (Samples.seesawReports.take 3, .failed (.execution (.callDepthExceeded 3))) := by
      decide +kernel
    obtain ⟨machine, completion, ran, recounts, -, -⟩ :=
      calls_bracketed (compile 3) isStage Samples.entry 0 50
    rw [ran] at reports
    obtain ⟨same, rfl⟩ := Prod.mk.inj reports
    obtain ⟨rest, -, balanced⟩ := recounts.underway
    refine ⟨machine, rest, ran, same, ?_⟩
    rw [← same]
    exact balanced

end ScopeMachine
