import ScopeMachine.Proofs.Building
import ScopeMachine.Proofs.Refinement

/-! # Invariants of executions

What a machine keeps on holding whatever it executes, and what can be said of the faults in which it
ends. An invariant of the kind that matters here says something of the store, and something of each
frame; the activations do not matter to it.

* `Machine.Keeps` says that an action keeps an invariant, and that a fault is one of some;
* `Machine.Holds` is an invariant of store and frames; opening, closing and leaving keep it, since
  they move frames only;
* `Machine.keeps_step` reduces a step to its instruction, and `Machine.keeps_continueFor` and
  `Machine.keeps_invoke` a run to its steps;
* `Machine.continueFor_eq_failed` finds the step at which a run has failed. -/

namespace ScopeMachine

namespace Machine

/-! ### Actions -/

/-- An action keeps an invariant, and if it ends in a fault of the execution, the fault is one of
some. -/
def Keeps {α : Type} (holds : Machine → Prop) (strays : ExecFault → Prop) (machine : Machine)
    (action : Exec α) : Prop :=
  match action machine with
  | .ok _ after => holds after
  | .error error after => holds after ∧ ∀ fault, error = .execution fault → strays fault

section
variable {α β : Type} {holds : Machine → Prop} {strays : ExecFault → Prop} {machine : Machine}

/-- An action that succeeds. -/
theorem keeps_ok {action : Exec α} {value : α} {after : Machine}
    (done : action machine = .ok value after) (kept : holds after) :
    Keeps holds strays machine action := by
  unfold Keeps
  rw [done]
  exact kept

/-- An action that fails. -/
theorem keeps_error {action : Exec α} {error : Error} {after : Machine}
    (failed : action machine = .error error after) (kept : holds after)
    (right : ∀ fault, error = .execution fault → strays fault) :
    Keeps holds strays machine action := by
  unfold Keeps
  rw [failed]
  exact ⟨kept, right⟩

/-- What an action leads to if it succeeds. -/
theorem Keeps.of_ok {action : Exec α} (keeps : Keeps holds strays machine action) {value : α}
    {after : Machine} (done : action machine = .ok value after) : holds after := by
  unfold Keeps at keeps
  rw [done] at keeps
  exact keeps

/-- What an action leads to if it fails. -/
theorem Keeps.of_error {action : Exec α} (keeps : Keeps holds strays machine action) {error : Error}
    {after : Machine} (failed : action machine = .error error after) :
    holds after ∧ ∀ fault, error = .execution fault → strays fault := by
  unfold Keeps at keeps
  rw [failed] at keeps
  exact keeps

/-- One action after the other. -/
theorem Keeps.bind {first : Exec α} {second : α → Exec β} (keeps : Keeps holds strays machine first)
    (next : ∀ value after, first machine = .ok value after → holds after →
      Keeps holds strays after (second value)) :
    Keeps holds strays machine (first >>= second) := by
  cases done : first machine with
  | ok value after =>
      unfold Keeps
      rw [bind_apply, done]
      exact next value after done (keeps.of_ok done)
  | error error after =>
      obtain ⟨kept, right⟩ := keeps.of_error done
      refine keeps_error ?_ kept right
      rw [bind_apply, done]

/-- A value after an action. -/
theorem Keeps.bind_pure {action : Exec α} {value : β} (keeps : Keeps holds strays machine action) :
    Keeps holds strays machine (action >>= fun _ => pure value) :=
  keeps.bind fun _ _ _ kept => keeps_ok rfl kept

/-- An action whose value does not matter. -/
theorem Keeps.discard {action : Exec α} (keeps : Keeps holds strays machine action) :
    Keeps holds strays machine (discard action) := by
  cases done : action machine with
  | ok value after => exact keeps_ok (by rw [discard_apply, done]) (keeps.of_ok done)
  | error error after =>
      obtain ⟨kept, right⟩ := keeps.of_error done
      exact keeps_error (by rw [discard_apply, done]) kept right

/-- More faults may be allowed for. -/
theorem Keeps.mono {more : ExecFault → Prop} {action : Exec α}
    (keeps : Keeps holds strays machine action) (weakens : ∀ fault, strays fault → more fault) :
    Keeps holds more machine action := by
  cases done : action machine with
  | ok value after => exact keeps_ok done (keeps.of_ok done)
  | error error after =>
      obtain ⟨kept, right⟩ := keeps.of_error done
      exact keeps_error done kept fun fault isFault => weakens fault (right fault isFault)

/-- Two invariants that are kept are kept together. -/
theorem Keeps.and {other both : Machine → Prop} {action : Exec α}
    (keeps : Keeps holds (fun _ => True) machine action)
    (others : Keeps other strays machine action)
    (join : ∀ {machine}, holds machine → other machine → both machine) :
    Keeps both strays machine action := by
  cases done : action machine with
  | ok value after => exact keeps_ok done (join (keeps.of_ok done) (others.of_ok done))
  | error error after =>
      obtain ⟨kept, right⟩ := others.of_error done
      exact keeps_error done (join (keeps.of_error done).1 kept) right

/-- What follows a look runs on the same machine. -/
theorem keeps_look {look : Machine → Except Error α} {second : α → Exec β} (kept : holds machine)
    (right : ∀ fault, look machine = .error (.execution fault) → strays fault)
    (next : ∀ value, look machine = .ok value → Keeps holds strays machine (second value)) :
    Keeps holds strays machine (inspect look >>= second) := by
  unfold Keeps
  rw [bind_apply, inspect_apply]
  cases found : look machine with
  | ok value => exact next value found
  | error error =>
      refine ⟨kept, ?_⟩
      rintro fault rfl
      exact right fault found

/-- What follows a look at the whole machine. -/
theorem keeps_get_bind {second : Machine → Exec β}
    (next : Keeps holds strays machine (second machine)) :
    Keeps holds strays machine (get >>= second) := next

/-- An error that is not a fault of the execution. -/
theorem keeps_throw {error : Error} (kept : holds machine)
    (plain : ∀ fault, error ≠ .execution fault) :
    Keeps holds strays machine (throw error : Exec α) :=
  keeps_error rfl kept fun fault isFault => absurd isFault (plain fault)

/-- Nothing follows such an error. -/
theorem keeps_throw_bind {error : Error} {next : α → Exec β} (kept : holds machine)
    (plain : ∀ fault, error ≠ .execution fault) :
    Keeps holds strays machine ((throw error : Exec α) >>= next) :=
  keeps_error rfl kept fun fault isFault => absurd isFault (plain fault)

/-- A row of actions. -/
theorem keeps_forM {items : List α} {action : α → Exec PUnit} (kept : holds machine)
    (each : ∀ item ∈ items, ∀ machine, holds machine → Keeps holds strays machine (action item)) :
    Keeps holds strays machine (items.forM action) := by
  induction items generalizing machine with
  | nil => exact keeps_ok rfl kept
  | cons head items ih =>
      refine (each head List.mem_cons_self machine kept).bind fun _ after _ kept => ?_
      exact ih kept fun item member => each item (List.mem_cons_of_mem _ member)

end

/-! ### Frames that are moved -/

/-- An invariant of the store, and one of each frame. -/
structure Holds (stored : Store → Prop) (framed : Store → RegId → VarId → Prop)
    (machine : Machine) : Prop where
  /-- The invariant of the store. -/
  store : stored machine.store
  /-- The invariant of the frames. -/
  frames : ∀ {reg : RegId} {id : VarId}, some id ∈ machine.registers.framesOf reg →
    framed machine.store reg id

section
variable {stored : Store → Prop} {framed : Store → RegId → VarId → Prop}
  {strays : ExecFault → Prop} {machine : Machine}

/-- Activations and events do not matter. -/
theorem Holds.sameData {after : Machine} (kept : machine.Holds stored framed)
    (same : SameData machine after) : after.Holds stored framed := by
  refine ⟨?_, ?_⟩
  · rw [same.store]
    exact kept.store
  · intro reg id member
    rw [same.registers] at member
    rw [same.store]
    exact kept.frames member

/-- Frames that were there, and frames of which the invariant holds. -/
theorem Holds.of_frames (kept : machine.Holds stored framed) {file : RegisterFile}
    (frames : ∀ {reg : RegId} {id : VarId}, some id ∈ file.framesOf reg →
      some id ∈ machine.registers.framesOf reg ∨ framed machine.store reg id) :
    Holds stored framed { machine with registers := file } := by
  refine ⟨kept.store, ?_⟩
  intro reg id member
  rcases frames member with old | new
  · exact kept.frames old
  · exact new

/-- Opening a frame. -/
theorem keeps_push (kept : machine.Holds stored framed) {reg : RegId} {frame : Frame}
    (right : ∀ id, frame = some id → framed machine.store reg id) :
    Keeps (Holds stored framed) strays machine (onRegisters (Registers.push reg frame)) := by
  by_cases has : machine.registers.Has reg
  · refine keeps_ok (onRegisters_eq_ok (Registers.push_apply has frame) _ _ _) (kept.of_frames ?_)
    intro other id member
    rw [RegisterFile.framesOf_modifyFrames has] at member
    split at member
    next same =>
      subst same
      rcases List.mem_cons.mp member with isFrame | old
      · exact .inr (right id isFrame.symm)
      · exact .inl old
    next => exact .inl member
  · refine keeps_error (onRegisters_eq_error (Registers.push_apply_of_not_has has frame) _ _ _)
      kept ?_
    rintro fault ⟨⟩

/-- What needs a frame fails without one, but not with a fault of the execution. -/
theorem exists_error_of_no_frame {α : Type} {file : RegisterFile} {reg : RegId}
    {cause : MisuseCause} {next : List Frame → Registers α} (none : file.framesOf reg = [])
    (fails : next [] file = .error (.misuse cause) file) :
    ∃ error, (Registers.inspect (fun file => file.frames reg) >>= next) file = .error error file ∧
      ∀ fault, error ≠ .execution fault := by
  rw [Registers.inspect_bind_apply]
  by_cases has : file.Has reg
  · rw [RegisterFile.frames_eq_ok has, none]
    refine ⟨_, fails, ?_⟩
    rintro fault ⟨⟩
  · rw [RegisterFile.frames_eq_error has]
    refine ⟨_, rfl, ?_⟩
    rintro fault ⟨⟩

/-- Closing a frame. -/
theorem keeps_pop (kept : machine.Holds stored framed) (reg : RegId) :
    Keeps (Holds stored framed) strays machine (onRegisters (Registers.pop reg)) := by
  cases top : machine.registers.framesOf reg with
  | nil =>
      obtain ⟨error, failed, plain⟩ : ∃ error, Registers.pop reg machine.registers =
          .error error machine.registers ∧ ∀ fault, error ≠ .execution fault :=
        exists_error_of_no_frame top rfl
      exact keeps_error (onRegisters_eq_error failed _ _ _) kept
        fun fault isFault => absurd isFault (plain fault)
  | cons frame frames =>
      refine keeps_ok (onRegisters_eq_ok (Registers.pop_apply top) _ _ _) (kept.of_frames ?_)
      intro other id member
      rw [RegisterFile.framesOf_pop] at member
      split at member
      next same =>
        rw [same]
        exact .inl (List.mem_of_mem_tail member)
      next => exact .inl member

/-- Binding a frame to another variable. -/
theorem keeps_rebind (kept : machine.Holds stored framed) {reg : RegId} {frame : Frame}
    (right : ∀ id, frame = some id → framed machine.store reg id) :
    Keeps (Holds stored framed) strays machine (onRegisters (Registers.rebind reg frame)) := by
  cases top : machine.registers.framesOf reg with
  | nil =>
      obtain ⟨error, failed, plain⟩ : ∃ error, Registers.rebind reg frame machine.registers =
          .error error machine.registers ∧ ∀ fault, error ≠ .execution fault :=
        exists_error_of_no_frame top rfl
      exact keeps_error (onRegisters_eq_error failed _ _ _) kept
        fun fault isFault => absurd isFault (plain fault)
  | cons old frames =>
      have has := RegisterFile.has_of_framesOf_eq_cons top
      refine keeps_ok (onRegisters_eq_ok (Registers.rebind_apply top frame) _ _ _)
        (kept.of_frames ?_)
      intro other id member
      rw [RegisterFile.framesOf_modifyFrames has] at member
      split at member
      next same =>
        subst same
        rcases List.mem_cons.mp member with isFrame | tail
        · exact .inr (right id isFrame.symm)
        · exact .inl (List.mem_of_mem_tail tail)
      next => exact .inl member

/-- Changing the innermost activation. -/
theorem keeps_updateTop (kept : machine.Holds stored framed) (change : Activation → Activation) :
    Keeps (Holds stored framed) strays machine (updateTop change) := by
  cases empty : machine.calls.isEmpty with
  | true =>
      have failed : updateTop change machine = .error (.misuse .callStackUnderflow) machine := by
        unfold updateTop
        rw [get_bind_apply, empty]
        rfl
      refine keeps_error failed kept ?_
      rintro fault ⟨⟩
  | false =>
      have done : updateTop change machine =
          .ok () { machine with calls := machine.calls.modifyTop change } := by
        unfold updateTop
        rw [get_bind_apply, empty]
        rfl
      exact keeps_ok done (kept.sameData ⟨rfl, rfl⟩)

/-- Opening a scope. -/
theorem keeps_openScope (kept : machine.Holds stored framed) {reg : RegId} {frame : Frame}
    (right : ∀ id, frame = some id → framed machine.store reg id) :
    Keeps (Holds stored framed) strays machine (openScope reg frame) :=
  (keeps_push kept right).bind fun _ _ _ kept => keeps_updateTop kept _

/-- Closing a scope. -/
theorem keeps_closeScope (kept : machine.Holds stored framed) (reg : RegId) :
    Keeps (Holds stored framed) strays machine (closeScope reg) := by
  refine keeps_get_bind ?_
  cases machine.calls.top? with
  | none => exact keeps_throw kept (by rintro fault ⟨⟩)
  | some activation =>
      dsimp only
      split
      · exact keeps_throw_bind kept (by rintro fault ⟨⟩)
      · exact (keeps_updateTop kept _).bind fun _ _ _ kept => (keeps_pop kept reg).discard

/-- Closing the last scopes. -/
theorem keeps_closeScopes (kept : machine.Holds stored framed) (count : Nat) :
    Keeps (Holds stored framed) strays machine (closeScopes count) := by
  induction count generalizing machine with
  | zero => exact keeps_ok rfl kept
  | succ count ih =>
      refine keeps_get_bind ?_
      cases machine.calls.top? with
      | none => exact keeps_throw kept (by rintro fault ⟨⟩)
      | some activation =>
          dsimp only
          split
          · exact keeps_throw kept (by rintro fault ⟨⟩)
          · exact (keeps_updateTop kept _).bind fun _ _ _ kept =>
              (keeps_pop kept _).discard.bind fun _ _ _ kept => ih kept

/-- Reporting an event. -/
theorem keeps_emit (kept : machine.Holds stored framed) (event : Event) :
    Keeps (Holds stored framed) strays machine (emit event) :=
  keeps_ok rfl (kept.sameData ⟨rfl, rfl⟩)

/-- A procedure is there or missing, which is not a fault of the execution. -/
theorem proc_ne_fault (program : Program) (proc : ProcId) (fault : ExecFault) :
    program.proc proc ≠ .error (.execution fault) := by
  unfold Program.proc
  cases program.procs[proc.index.toNat]? <;> rintro ⟨⟩

/-- Entering a procedure. The only fault is that there are too many calls. -/
theorem keeps_enter (kept : machine.Holds stored framed) (program : Program) (proc : ProcId)
    (deep : ∀ limit, strays (.callDepthExceeded limit)) :
    Keeps (Holds stored framed) strays machine (enter program proc) := by
  refine keeps_get_bind ?_
  dsimp only
  split
  · refine keeps_error rfl kept ?_
    rintro fault ⟨⟩
    exact deep _
  · refine keeps_look kept (fun fault failed => absurd failed (proc_ne_fault program proc fault)) ?_
    intro code found
    split
    · exact (keeps_emit kept _).bind fun _ _ _ kept => keeps_ok rfl (kept.sameData ⟨rfl, rfl⟩)
    · exact (keeps_emit kept _).bind fun _ _ _ kept => keeps_ok rfl (kept.sameData ⟨rfl, rfl⟩)

/-- Leaving a procedure. -/
theorem keeps_leave (kept : machine.Holds stored framed) (program : Program) :
    Keeps (Holds stored framed) strays machine (leave program) := by
  refine keeps_get_bind ?_
  cases machine.calls.top? with
  | none => exact keeps_throw kept (by rintro fault ⟨⟩)
  | some activation =>
      refine Keeps.bind (keeps_ok rfl (kept.sameData ⟨rfl, rfl⟩)) fun _ machine _ kept => ?_
      refine Keeps.bind ?_ fun _ machine _ kept => ?_
      · exact keeps_forM kept fun reg _ machine kept => (keeps_pop kept reg).discard
      · refine keeps_look kept
          (fun fault failed => absurd failed (proc_ne_fault program activation.proc fault)) ?_
        intro code found
        split
        · exact keeps_get_bind (keeps_emit kept _)
        · exact keeps_ok rfl kept

/-! ### Frames that are opened -/

/-- The invariants allow for the variables of a program's registers. -/
structure Allots (stored : Store → Prop) (framed : Store → RegId → VarId → Prop)
    (program : Program) : Prop where
  /-- Fresh variables can be allocated for a frame, which leaves the other frames as they are. -/
  fresh : ∀ {store : Store} {reg : RegId} {slot : RegSlot}, stored store →
    program.regs[reg.index]? = some slot →
      stored (store.insert slot.fresh) ∧ framed (store.insert slot.fresh) reg store.next ∧
        ∀ other id, framed store other id → framed (store.insert slot.fresh) other id
  /-- The storage of persistent registers is right for a frame. -/
  persistent : ∀ {store : Store} {reg : RegId} {slot : RegSlot} {id : VarId}, stored store →
    program.regs[reg.index]? = some slot → slot.persistent = some id → framed store reg id

section
variable {program : Program} {reg : RegId} {slot : RegSlot}

/-- Allocating a fresh variable. -/
theorem Allots.allocate (allots : Allots stored framed program) (kept : machine.Holds stored framed)
    (found : program.regs[reg.index]? = some slot) :
    Holds stored framed { machine with store := machine.store.insert slot.fresh } ∧
      framed (machine.store.insert slot.fresh) reg machine.store.next := by
  obtain ⟨inserted, right, others⟩ := allots.fresh kept.store found
  exact ⟨⟨inserted, fun member => others _ _ (kept.frames member)⟩, right⟩

/-- Opening a scope with a fresh variable. -/
theorem Allots.keeps_openFresh (allots : Allots stored framed program)
    (kept : machine.Holds stored framed) (reg : RegId) :
    Keeps (Holds stored framed) strays machine (openFresh program reg) := by
  refine keeps_look kept ?_ ?_
  · intro fault failed
    unfold Program.reg at failed
    cases found : program.regs[reg.index]? with
    | none =>
        rw [found] at failed
        cases failed
    | some slot =>
        rw [found] at failed
        cases failed
  · intro slot found
    obtain ⟨keptFresh, right⟩ := allots.allocate kept (orError_eq_ok.mp found)
    have allocated : Keeps (Holds stored framed) strays machine (Machine.allocate slot.fresh) :=
      keeps_ok rfl keptFresh
    refine allocated.bind ?_
    rintro id after ⟨⟩ keptAfter
    refine keeps_openScope keptAfter ?_
    rintro id ⟨⟩
    exact right

/-- Opening a scope with the variable of the frame below. -/
theorem keeps_openAlias (kept : machine.Holds stored framed) (reg : RegId) :
    Keeps (Holds stored framed) strays machine (openAlias reg) := by
  by_cases has : machine.registers.Has reg
  · have isTop : machine.registers.top reg = .ok (machine.registers.framesOf reg).head?.join := by
      unfold RegisterFile.top
      rw [RegisterFile.frames_eq_ok has]
      rfl
    refine keeps_look kept (fun fault failed => by rw [isTop] at failed; cases failed) ?_
    intro frame found
    rw [isTop] at found
    cases found
    refine keeps_openScope kept ?_
    intro id isFrame
    exact kept.frames (List.mem_of_head? (Option.join_eq_some_iff.mp isFrame))
  · have isMissing : machine.registers.top reg = .error (.missing (.register reg)) := by
      unfold RegisterFile.top
      rw [RegisterFile.frames_eq_error has]
      rfl
    refine keeps_look kept (fun fault failed => by rw [isMissing] at failed; cases failed) ?_
    intro frame found
    rw [isMissing] at found
    cases found

/-- **The instructions that open, close and pass control keep the invariant.** What is left are
those that work on variables, that rebind a frame, and that raise a fault. -/
theorem Allots.keeps_execute (allots : Allots stored framed program)
    (kept : machine.Holds stored framed) (instruction : Instruction) (pc : Nat)
    (works : instruction.conduct = .works →
      Keeps (Holds stored framed) strays machine (execute program instruction pc))
    (rebinds : ∀ dst src slot, instruction = .ldr dst src slot →
      Keeps (Holds stored framed) strays machine (loadRef dst src slot.toNat))
    (throws : instruction = .throw →
      Keeps (Holds stored framed) strays machine (execute program .throw pc)) :
    Keeps (Holds stored framed) strays machine (execute program instruction pc) := by
  have null : ∀ reg, Keeps (Holds stored framed) strays machine (openScope reg none) := by
    intro reg
    refine keeps_openScope kept ?_
    rintro id ⟨⟩
  cases instruction with
  | als reg => exact (allots.keeps_openFresh kept reg).bind_pure
  | push reg => exact (allots.keeps_openFresh kept reg).bind_pure
  | alsr reg => exact (null reg).bind_pure
  | pushr reg => exact (null reg).bind_pure
  | pushh reg => exact (keeps_openAlias kept reg).bind_pure
  | frs reg => exact (keeps_closeScope kept reg).bind_pure
  | pop reg => exact (keeps_closeScope kept reg).bind_pure
  | frsl count => exact (keeps_closeScopes kept count.toNat).bind_pure
  | popl count => exact (keeps_closeScopes kept count.toNat).bind_pure
  | call proc => exact keeps_ok rfl kept
  | ret => exact keeps_ok rfl kept
  | ldr dst src slot => exact (rebinds dst src slot rfl).bind_pure
  | throw => exact throws rfl
  | _ => exact works rfl

/-- Allocating a register before any scope. -/
theorem Allots.keeps_bootReg (allots : Allots stored framed program)
    (kept : machine.Holds stored framed) {index : Nat}
    (found : program.regs[index]? = some slot) :
    Keeps (Holds stored framed) strays machine (bootReg slot index) := by
  refine keeps_look kept ?_ ?_
  · intro fault failed
    cases named : RegId.ofIndex index with
    | ok reg =>
        rw [named] at failed
        cases failed
    | error error =>
        rw [named] at failed
        cases error <;> cases failed
  · intro reg named
    obtain rfl : reg.index = index := (RegId.ofIndex_eq_ok.mp (liftCodec_eq_ok.mp named)).2
    split
    · obtain ⟨keptFresh, right⟩ := allots.allocate kept found
      have allocated : Keeps (Holds stored framed) strays machine (Machine.allocate slot.fresh) :=
        keeps_ok rfl keptFresh
      refine allocated.bind ?_
      rintro id after ⟨⟩ keptAfter
      refine keeps_push keptAfter ?_
      rintro id ⟨⟩
      exact right
    · split
      · exact keeps_push kept fun id stored => allots.persistent kept.store found stored
      · exact keeps_ok rfl kept

/-- Preparing a machine for a call. -/
theorem Allots.keeps_prepare (allots : Allots stored framed program)
    (kept : machine.Holds stored framed) {entry : ProcCode} {io : VarId}
    (right : ∀ store, stored store → framed store entry.io io) :
    Keeps (Holds stored framed) strays machine (prepare program entry io) := by
  have booted : Keeps (Holds stored framed) strays machine (boot program) := by
    refine keeps_forM kept ?_
    rintro ⟨slot, index⟩ member machine kept
    rw [List.mk_mem_zipIdx_iff_getElem?, Array.getElem?_toList] at member
    exact allots.keeps_bootReg kept member
  refine booted.bind fun _ machine _ kept => keeps_push kept ?_
  rintro id ⟨⟩
  exact right _ kept.store

end

/-! ### Steps -/

/-- The current instruction is there or missing. -/
theorem current_ne_fault (program : Program) (machine : Machine) (fault : ExecFault) :
    current program machine ≠ .error (.execution fault) := by
  unfold current
  cases machine.calls.top? with
  | none => rintro ⟨⟩
  | some activation =>
      dsimp only
      unfold Program.proc
      cases program.procs[activation.proc.index.toNat]? with
      | none => rintro ⟨⟩
      | some code =>
          show ((orError _ code.code[activation.pc]?) >>= fun instruction =>
            pure (instruction, activation.pc)) ≠ _
          cases code.code[activation.pc]? <;> rintro ⟨⟩

/-- **A step keeps what its instruction keeps.** -/
theorem keeps_step (kept : machine.Holds stored framed) (program : Program)
    (deep : ∀ limit, strays (.callDepthExceeded limit))
    (each : ∀ instruction pc, current program machine = .ok (instruction, pc) →
      Keeps (Holds stored framed) strays machine (execute program instruction pc)) :
    Keeps (Holds stored framed) strays machine (step program) := by
  refine keeps_look kept
    (fun fault failed => absurd failed (current_ne_fault program machine fault)) ?_
  rintro ⟨instruction, pc⟩ isCurrent
  refine (each instruction pc isCurrent).bind fun outcome machine _ kept => ?_
  have ends : ∀ {machine : Machine}, machine.Holds stored framed →
      Keeps (Holds stored framed) strays machine
        (get >>= fun machine => pure machine.calls.isEmpty : Exec Bool) :=
    fun kept => keeps_ok rfl kept
  cases outcome with
  | next => exact (keeps_updateTop kept _).bind fun _ _ _ kept => ends kept
  | jump target => exact (keeps_updateTop kept _).bind fun _ _ _ kept => ends kept
  | call proc =>
      exact (keeps_updateTop kept _).bind fun _ _ _ kept =>
        (keeps_enter kept program proc deep).bind fun _ _ _ kept => ends kept
  | ret => exact (keeps_leave kept program).bind fun _ _ _ kept => ends kept

/-- A step that ends in a fault has had an instruction to carry out. -/
theorem exists_current_of_step {program : Program} {fault : ExecFault} {after : Machine}
    (failed : step program machine = .error (.execution fault) after) :
    ∃ instruction pc, current program machine = .ok (instruction, pc) := by
  cases isCurrent : current program machine with
  | ok found => exact ⟨found.1, found.2, rfl⟩
  | error error =>
      unfold step at failed
      rw [bind_apply, inspect_apply, isCurrent] at failed
      cases failed
      exact absurd isCurrent (current_ne_fault program machine fault)

end

/-! ### Runs -/

section
variable {holds : Machine → Prop} {strays : Machine → ExecFault → Prop} {program : Program}

/-- The last step of a run that has ended in a fault of the execution. -/
structure Stumbles (holds : Machine → Prop) (strays : Machine → ExecFault → Prop)
    (program : Program) (fault : ExecFault) (machine : Machine) : Prop where
  /-- The invariant held. -/
  held : holds machine
  /-- The fault is one of those that the machine may have had. -/
  strays : strays machine fault
  /-- It has had it. -/
  failed : ∃ after, step program machine = .error (.execution fault) after

/-- **A run that has ended in an error** has taken some steps, and the next one has failed. -/
theorem continueFor_eq_failed {steps : Nat} {machine final : Machine} {error : Error}
    (ends : continueFor program steps machine = (final, .failed error)) :
    ∃ taken earlier, taken < steps ∧ continueFor program taken machine = (earlier, .running) ∧
      step program earlier = .error error final := by
  induction steps generalizing machine with
  | zero => cases ends
  | succ steps ih =>
      rw [continueFor] at ends
      cases stepped : step program machine with
      | error other after =>
          rw [stepped] at ends
          cases ends
          exact ⟨0, machine, Nat.zero_lt_succ _, rfl, stepped⟩
      | ok ended after =>
          rw [stepped] at ends
          cases ended with
          | true => cases ends
          | false =>
              obtain ⟨taken, earlier, before, ran, failed⟩ := ih ends
              refine ⟨taken + 1, earlier, Nat.succ_lt_succ before, ?_, failed⟩
              rw [continueFor, stepped]
              exact ran

/-- What steps keep holds all along a run. -/
theorem holds_continueFor
    (each : ∀ machine, holds machine → Keeps holds (strays machine) machine (step program))
    {machine : Machine} (kept : holds machine) (steps : Nat) :
    holds (continueFor program steps machine).1 := by
  induction steps generalizing machine with
  | zero => exact kept
  | succ steps ih =>
      have keeps := each machine kept
      rw [continueFor]
      cases stepped : step program machine with
      | error error after => exact (keeps.of_error stepped).1
      | ok ended after =>
          cases ended with
          | true => exact keeps.of_ok stepped
          | false => exact ih (keeps.of_ok stepped)

/-- **A run keeps what its steps keep**, and a fault in which it ends is one of its last step. -/
theorem keeps_continueFor
    (each : ∀ machine, holds machine → Keeps holds (strays machine) machine (step program))
    {machine : Machine} (kept : holds machine) (steps : Nat) :
    holds (continueFor program steps machine).1 ∧
      ∀ fault, (continueFor program steps machine).2 = .failed (.execution fault) →
        ∃ taken earlier, taken < steps ∧
          continueFor program taken machine = (earlier, .running) ∧
          Stumbles holds strays program fault earlier := by
  refine ⟨holds_continueFor each kept steps, ?_⟩
  intro fault ends
  obtain ⟨taken, earlier, before, ran, failed⟩ := continueFor_eq_failed (Prod.ext rfl ends)
  have keptEarlier := holds_continueFor each kept taken
  rw [ran] at keptEarlier
  have right := ((each earlier keptEarlier).of_error failed).2 fault rfl
  exact ⟨taken, earlier, before, ran, keptEarlier, right, _, failed⟩

/-- What a call may be refused for is not a fault of the execution. -/
theorem checkCall_ne_fault (program : Program) (proc : ProcId) (io : VarId) (store : Store)
    (fault : ExecFault) : checkCall program proc io store ≠ .error (.execution fault) := by
  unfold checkCall
  cases program.entryPoint? proc with
  | none => rintro ⟨⟩
  | some entry =>
      cases store.get? io with
      | none => rintro ⟨⟩
      | some var =>
          show (program.checkIo entry var >>= fun _ => pure entry) ≠ _
          unfold Program.checkIo Program.reg
          cases program.regs[entry.io.index]? with
          | none => rintro ⟨⟩
          | some slot =>
              show ((if _ then throw _ else pure ()) >>= fun _ => pure entry) ≠ _
              split <;> rintro ⟨⟩

/-- **A call keeps what its steps keep.** If it ends in a fault, this is for too many calls, or it
is one of its last step. -/
theorem keeps_invoke {proc : ProcId} {io : VarId} {store : Store}
    (each : ∀ machine, holds machine → Keeps holds (strays machine) machine (step program))
    (idle : holds (idle program store))
    (prepares : ∀ entry, checkCall program proc io store = .ok entry →
      Keeps holds (fun _ => False) (Machine.idle program store) (prepare program entry io))
    (enters : ∀ machine, holds machine →
      Keeps holds (fun fault => ∃ limit, fault = .callDepthExceeded limit) machine
        (enter program proc)) (steps : Nat) :
    holds (invoke program proc io steps store).1 ∧
      ∀ fault, (invoke program proc io steps store).2 = .failed (.execution fault) →
        (∃ limit, fault = .callDepthExceeded limit) ∨
        ∃ taken earlier, taken < steps ∧
          invoke program proc io taken store = (earlier, .running) ∧
          Stumbles holds strays program fault earlier := by
  rcases invoke_cases program proc io store with
    ⟨entry, start, entered, starts, runs⟩ | ⟨error, final, refuses, fails⟩
  · simp only [runs]
    have kept := (prepares entry starts.allowed).of_ok starts.prepared
    obtain ⟨keptLast, stumbles⟩ :=
      keeps_continueFor each ((enters start kept).of_ok starts.entered) steps
    exact ⟨keptLast, fun fault failed => .inr (stumbles fault failed)⟩
  · rw [fails]
    cases refuses with
    | forbids refused =>
        refine ⟨idle, ?_⟩
        rintro fault ⟨⟩
        exact absurd refused (checkCall_ne_fault program proc io store fault)
    | lacks allowed refused =>
        obtain ⟨kept, plain⟩ := (prepares _ allowed).of_error refused
        refine ⟨kept, ?_⟩
        rintro fault ⟨⟩
        exact absurd rfl (plain fault)
    | excludes allowed prepared refused =>
        have kept := (prepares _ allowed).of_ok prepared
        obtain ⟨keptFinal, deep⟩ := (enters _ kept).of_error refused
        refine ⟨keptFinal, ?_⟩
        rintro fault ⟨⟩
        exact .inl (deep fault rfl)

end

end Machine

end ScopeMachine
