import ScopeMachine.Proofs.Refinement

/-! # Activations are isolated

All activations share the frames of the registers, but each keeps to its own: an activation looks
at static registers, at frames that it has opened itself, and at its argument.

* `Ledger` is a record kept beside a running machine: which activation opened which frame, and what
  the register file was before each activation was entered. `Ledger.record` observes one step, and
  `Watched` a run;
* `Ledger.Matches` ties the record to the scopes of the activations, and `Ledger.Matches.record`
  carries that along a step;
* `Isolated` is what the record shows about one state, and `isolated_of_invoke` shows it of all
  states of a call. -/

namespace ScopeMachine

open Machine

/-! ### The record of a run -/

/-- An activation in the record of a run. -/
structure Visit where
  /-- The number of activations entered before it, which tells it from all others. -/
  number : Nat
  /-- The register file just before it was entered. -/
  file : RegisterFile

/-- A record of a run. -/
structure Ledger where
  /-- The number of activations entered so far. -/
  entered : Nat
  /-- The activations that have been entered and not left, the innermost first. -/
  running : List Visit
  /-- For each register, the number of the activation that opened each of its frames, the top frame
  first. Frames that were there at the start are not recorded. -/
  owners : RegId → List Nat

namespace Ledger

/-- The record when the entry point has just been entered. -/
def opening (file : RegisterFile) : Ledger := ⟨1, [⟨0, file⟩], fun _ => []⟩

/-- The number of the innermost activation. -/
def current (ledger : Ledger) : Nat := (ledger.running.head?.map Visit.number).getD 0

/-- Who opened the frames of a register after a step: frames that are gone are forgotten, and new
ones belong to the activation that was the innermost. -/
def recordFrames (ledger : Ledger) (before after : RegisterFile) (reg : RegId) : List Nat :=
  List.replicate (after.depth reg - before.depth reg) ledger.current ++
    (ledger.owners reg).drop (before.depth reg - after.depth reg)

/-- Observe one step. -/
def record (ledger : Ledger) (before after : Machine) : Ledger :=
  if before.calls.depth < after.calls.depth then
    ⟨ledger.entered + 1, ⟨ledger.entered, before.registers⟩ :: ledger.running,
      ledger.recordFrames before.registers after.registers⟩
  else if after.calls.depth < before.calls.depth then
    ⟨ledger.entered, ledger.running.tail, ledger.recordFrames before.registers after.registers⟩
  else ⟨ledger.entered, ledger.running, ledger.recordFrames before.registers after.registers⟩

end Ledger

/-- A state of a run from a prepared machine, with the record of the run so far. -/
inductive Watched (program : Program) (proc : ProcId) (start : Machine) : Machine → Ledger → Prop
  /-- The entry point has just been entered. -/
  | entered {machine : Machine} (enters : enter program proc start = .ok () machine) :
      Watched program proc start machine (Ledger.opening start.registers)
  /-- One more step has been observed. -/
  | stepped {machine after : Machine} {ledger : Ledger}
      (watched : Watched program proc start machine ledger)
      (steps : step program machine = .ok false after) :
      Watched program proc start after (ledger.record machine after)

/-! ### The record and the scopes -/

/-- The owners of a register's frames, by the scopes of the activations. -/
def ownersOf (reg : RegId) : List Level → List Visit → List Nat
  | level :: levels, visit :: visits =>
      List.replicate (level.activation.scopes.count reg) visit.number ++ ownersOf reg levels visits
  | _, _ => []

/-- The record agrees with the activations. -/
structure Ledger.Matches (ledger : Ledger) (levels : List Level) : Prop where
  /-- The files on entry are the recorded ones. -/
  files : ledger.running.map Visit.file = levels.map Level.entry
  /-- Each activation owns a frame for each of its scopes. -/
  owners : ∀ reg, ledger.owners reg = ownersOf reg levels ledger.running

section
variable {module : Module} {program : Program} {start : RegisterFile} {level : Level}
  {rest levels : List Level} {machine after : Machine} {instruction : Instruction}
  {ledger : Ledger}

/-- The record of a machine with an activation has a first entry. -/
theorem Ledger.Matches.exists_visit (matched : ledger.Matches (level :: rest)) :
    ∃ visit visits, ledger.running = visit :: visits ∧ visit.file = level.entry ∧
      visits.map Visit.file = rest.map Level.entry ∧ ledger.current = visit.number ∧
      ∀ reg, ledger.owners reg =
        List.replicate (level.activation.scopes.count reg) visit.number ++
          ownersOf reg rest visits := by
  have files := matched.files
  cases running : ledger.running with
  | nil =>
      rw [running] at files
      cases files
  | cons visit visits =>
      rw [running] at files
      obtain ⟨first, others⟩ := List.cons.inj files
      refine ⟨visit, visits, rfl, first, others, ?_, ?_⟩
      · unfold Ledger.current
        rw [running]
        rfl
      · intro reg
        rw [matched.owners, running]
        rfl

/-- The number of activations is the number of levels. -/
theorem Tracks.depth_eq (tracks : Tracks module program start levels machine) :
    machine.calls.depth = levels.length := by
  rw [machine.calls.depth_eq, tracks.activations, List.length_map]

/-- An activation whose scopes change owns a frame for each of the new ones. -/
theorem replicate_append_drop (old new owner : Nat) (others : List Nat) :
    List.replicate (new - old) owner ++
        (List.replicate old owner ++ others).drop (old - new) =
      List.replicate new owner ++ others := by
  by_cases fewer : new ≤ old
  · -- frames are dropped, and they are its own: there are enough of them
    rw [Nat.sub_eq_zero_of_le fewer, List.drop_append_of_le_length
      (by rw [List.length_replicate]; exact Nat.sub_le old new), List.drop_replicate,
      Nat.sub_sub_self fewer]
    rfl
  · have more : old ≤ new := by omega
    rw [Nat.sub_eq_zero_of_le more, List.drop_zero, ← List.append_assoc,
      List.replicate_append_replicate, Nat.sub_add_cancel more]

/-- **One step keeps the record right.** -/
theorem Ledger.Matches.record (matched : ledger.Matches (level :: rest))
    (tracks : Tracks module program start (level :: rest) machine)
    (tracksAfter : Tracks module program start levels after)
    (moves : Moves program level rest instruction machine.registers after.registers levels) :
    (ledger.record machine after).Matches levels := by
  obtain ⟨visit, visits, running, file, files, isCurrent, owners⟩ := matched.exists_visit
  have depth := tracks.depth_eq
  have depthAfter := tracksAfter.depth_eq
  have frames := fun reg => tracks.stacked.1.depth_eq reg
  -- the record sees the number of activations and of frames only; the move says what they mean
  unfold Ledger.record
  cases moves with
  | @goes target scopes leads effect =>
      -- both files stand on the same entry file, so their depths differ as the scopes do
      have framesAfter := fun reg => tracksAfter.stacked.1.depth_eq reg
      have sameDepth : after.calls.depth = machine.calls.depth := by
        rw [depth, depthAfter, List.length_cons, List.length_cons]
      rw [if_neg (by omega), if_neg (by omega)]
      refine ⟨?_, ?_⟩
      · rw [running, List.map_cons, List.map_cons, file, files]
      · intro reg
        show ledger.recordFrames machine.registers after.registers reg = _
        unfold Ledger.recordFrames
        rw [frames, framesAfter, Nat.add_sub_add_right, Nat.add_sub_add_right, isCurrent, owners,
          running]
        exact replicate_append_drop _ _ _ _
  | @calls proc code isCall found same =>
      have deeper : machine.calls.depth < after.calls.depth := by
        rw [depth, depthAfter, List.length_cons, List.length_cons, List.length_cons]
        omega
      rw [if_pos deeper]
      refine ⟨?_, ?_⟩
      · rw [List.map_cons, List.map_cons, List.map_cons, running, List.map_cons, file, files]
      · intro reg
        show ledger.recordFrames machine.registers after.registers reg = _
        unfold Ledger.recordFrames
        rw [same, Nat.sub_self, matched.owners, running]
        rfl
  | returns isRet restored =>
      have shallower : after.calls.depth < machine.calls.depth := by
        rw [depth, depthAfter, List.length_cons]
        omega
      rw [if_neg (by omega), if_pos shallower]
      refine ⟨?_, ?_⟩
      · rw [running]
        exact files
      · -- the frames that go are those of the activation that returns, and it owns them all
        intro reg
        show ledger.recordFrames machine.registers after.registers reg = _
        unfold Ledger.recordFrames
        rw [frames, restored, Nat.add_sub_cancel, Nat.sub_eq_zero_of_le (Nat.le_add_left _ _),
          owners, running,
          List.drop_append_of_le_length (Nat.le_of_eq List.length_replicate.symm),
          List.drop_replicate, Nat.sub_self]
        rfl

end

/-! ### What the record shows -/

/-- The innermost activation keeps to its own frames. -/
structure Isolated (module : Module) (program : Program) (start machine : Machine)
    (ledger : Ledger) (activation : Activation) (visit : Visit) : Prop where
  /-- Each frame that an instruction looks at is that of a static register, one that the activation
  has opened, or the one that was on top of the procedure's argument register on entry. -/
  looks : ∀ {instruction : Instruction} {pc : Nat} {reg : RegId},
    Machine.current program machine = .ok (instruction, pc) → reg ∈ instruction.accesses →
      machine.registers.framesOf reg ≠ [] ∧
        ((module.isStatic reg = true ∧
            machine.registers.framesOf reg = start.registers.framesOf reg) ∨
          (ledger.owners reg).head? = some visit.number ∨
          (module.ioOf? activation.proc = some reg ∧
            machine.registers.framesOf reg = visit.file.framesOf reg))
  /-- Only a frame that the activation has opened is bound to another variable. -/
  rebinds : ∀ {dst src : RegId} {slot : UInt32} {pc : Nat},
    Machine.current program machine = .ok (.ldr dst src slot, pc) →
      (ledger.owners dst).head? = some visit.number
  /-- Only frames that the activation has opened are closed. -/
  closes : ∀ {done : Bool} {after : Machine} (reg : RegId), step program machine = .ok done after →
    (ledger.owners reg).take (machine.registers.depth reg - after.registers.depth reg) =
      List.replicate (machine.registers.depth reg - after.registers.depth reg) visit.number
  /-- When the activation returns, the register file is what it was before the call. -/
  restores : ∀ {done : Bool} {after : Machine}, step program machine = .ok done after →
    after.calls.depth < machine.calls.depth → after.registers = visit.file

/-- The owner of the top frame of a register that an activation has a scope of. -/
theorem head?_replicate_append {count : Nat} (opened : 0 < count) (owner : Nat)
    (others : List Nat) : (List.replicate count owner ++ others).head? = some owner := by
  cases count with
  | zero => cases opened
  | succ count => rfl

section
variable {module : Module} {program : Program} {proc : ProcId} {start machine : Machine}
  {level : Level} {rest : List Level} {ledger : Ledger}

/-- A record that agrees with the activations shows that the innermost is isolated. -/
theorem Ledger.Matches.isolated (matched : ledger.Matches (level :: rest))
    (tracks : Tracks module program start.registers (level :: rest) machine)
    (compiles : Compiles module program) (verified : verifyModule module = .ok ())
    (grounds : Grounds module program start.registers) :
    ∃ visit, ledger.running.head? = some visit ∧
      Isolated module program start machine ledger level.activation visit := by
  obtain ⟨visit, visits, running, file, -, -, owners⟩ := matched.exists_visit
  obtain ⟨instruction, allowed, found, admitted, isCurrent⟩ :=
    tracks.exists_current compiles verified
  have placed := tracks.placed level List.mem_cons_self
  have owned : ∀ reg ∈ level.activation.scopes, (ledger.owners reg).head? = some visit.number := by
    intro reg opened
    rw [owners]
    exact head?_replicate_append (List.count_pos_iff.mpr opened) _ _
  refine ⟨visit, by rw [running]; rfl, ?_, ?_, ?_, ?_⟩
  · intro instruction' pc reg isCurrent' accessed
    rw [isCurrent] at isCurrent'
    obtain ⟨rfl, rfl⟩ := Prod.mk.inj (Except.ok.inj isCurrent')
    refine ⟨tracks.framesOf_accesses grounds admitted reg accessed, ?_⟩
    -- an argument register with a scope of its own has the frame of that scope on top
    by_cases opened : reg ∈ level.activation.scopes
    · exact .inr (.inl (owned reg opened))
    · rcases Scopes.allocates_iff.mp (Scopes.allocates_of_step admitted accessed) with
        isStatic | isIo | isOpened
      · rw [ScopeContext.isStatic_eq] at isStatic
        exact .inl ⟨isStatic, tracks.framesOf_static isStatic⟩
      · refine .inr (.inr ⟨?_, ?_⟩)
        · rw [compiles.ioOf? placed.found, isIo]
        · rw [tracks.stacked.1.framesOf_of_not_mem opened, file]
      · exact absurd isOpened opened
  · intro dst src slot pc isCurrent'
    rw [isCurrent] at isCurrent'
    obtain ⟨rfl, rfl⟩ := Prod.mk.inj (Except.ok.inj isCurrent')
    exact owned dst (Scopes.allows_of_step admitted).2.1
  · intro done after reg steps
    obtain ⟨_, levels, moves, tracksAfter, -⟩ :=
      tracks.exists_moves compiles verified grounds steps
    have frames := tracks.stacked.1.depth_eq reg
    -- no more frames go than the activation has scopes of the register
    have closed : machine.registers.depth reg - after.registers.depth reg ≤
        level.activation.scopes.count reg := by
      cases moves with
      | goes leads effect =>
          have framesAfter := tracksAfter.stacked.1.depth_eq reg
          dsimp only at framesAfter
          omega
      | calls isCall foundCode same =>
          rw [same]
          omega
      | returns isRet restored =>
          rw [restored]
          omega
    rw [owners, List.take_append_of_le_length (by rw [List.length_replicate]; exact closed),
      List.take_replicate, Nat.min_eq_left closed]
  · intro done after steps shallower
    obtain ⟨_, levels, moves, tracksAfter, -⟩ :=
      tracks.exists_moves compiles verified grounds steps
    rw [tracks.depth_eq, tracksAfter.depth_eq] at shallower
    cases moves with
    | goes leads effect =>
        rw [List.length_cons, List.length_cons] at shallower
        omega
    | calls isCall foundCode same =>
        rw [List.length_cons, List.length_cons, List.length_cons] at shallower
        omega
    | returns isRet restored => rw [restored, file]

/-- **The record is right along every run.** -/
theorem Watched.exists_matches {entry : ProcCode} {io : VarId} {store : Store}
    (watched : Watched program proc start machine ledger)
    (prepared : Prepared program entry io store start)
    (isEntry : program.procs[proc.index.toNat]? = some entry)
    (compiles : Compiles module program) (verified : verifyModule module = .ok ()) :
    ∃ level rest, Tracks module program start.registers (level :: rest) machine ∧
      ledger.Matches (level :: rest) := by
  induction watched with
  | entered enters =>
      obtain ⟨tracks, -⟩ := tracks_of_enter module prepared isEntry enters
      exact ⟨_, [], tracks, rfl, fun reg => rfl⟩
  | @stepped machine after ledger watched steps ih =>
      obtain ⟨level, rest, tracks, matched⟩ := ih
      obtain ⟨_, levels, moves, tracksAfter, running, -⟩ :=
        tracks.exists_moves compiles verified (prepared.grounds compiles) steps
      have matchedAfter := matched.record tracks tracksAfter moves
      cases levels with
      | nil =>
          -- the last return ends the run, and the step says that it has not ended
          cases running
      | cons level' rest' => exact ⟨level', rest', tracksAfter, matchedAfter⟩

end

/-- Every state of a run can be watched. -/
theorem exists_watched {program : Program} {proc : ProcId} {start entered machine : Machine}
    {steps : Nat} (enters : enter program proc start = .ok () entered)
    (ran : continueFor program steps entered = (machine, .running)) :
    ∃ ledger, Watched program proc start machine ledger := by
  induction steps generalizing machine with
  | zero =>
      cases ran
      exact ⟨_, .entered enters⟩
  | succ steps ih =>
      obtain ⟨middle, ranBefore, stepped⟩ := continueFor_succ_eq_running.mp ran
      obtain ⟨ledger, watched⟩ := ih ranBefore
      exact ⟨_, .stepped watched stepped⟩

/-- A run that returns does so from a state that was running. -/
theorem Machine.exists_of_continueFor_returned {program : Program} {steps : Nat}
    {machine after : Machine} (ran : continueFor program steps machine = (after, .returned)) :
    ∃ count middle, continueFor program count machine = (middle, .running) ∧
      step program middle = .ok true after := by
  induction steps generalizing machine with
  | zero => cases ran
  | succ steps ih =>
      rw [continueFor] at ran
      cases stepped : step program machine with
      | error error other =>
          rw [stepped] at ran
          cases ran
      | ok done other =>
          rw [stepped] at ran
          cases done with
          | true =>
              cases ran
              exact ⟨0, machine, rfl, stepped⟩
          | false =>
              obtain ⟨count, middle, ranBefore, last⟩ := ih ran
              refine ⟨count + 1, middle, ?_, last⟩
              rw [continueFor, stepped]
              exact ranBefore

/-- **Activations are isolated.** Every state of a call to a verified module is one of a watched
run, in which the innermost activation keeps to static registers, its own frames and its argument,
and leaves the register file to its caller as it was; and when the call returns, the registers are
those of the start. -/
theorem isolated_of_invoke {module : Module} {program : Program} {maxCallDepth : Nat}
    {before compiled store : Store} {proc : ProcId} {io : VarId} {entry : ProcCode}
    {start : Machine} (verified : verifyModule module = .ok ())
    (compile : Program.compile module maxCallDepth before = .ok program compiled)
    (allowed : checkCall program proc io store = .ok entry)
    (prepare : Machine.prepare program entry io (idle program store) = .ok () start) :
    (∀ {steps : Nat} {machine : Machine},
      invoke program proc io steps store = (machine, .running) →
        ∃ ledger, Watched program proc start machine ledger) ∧
    (∀ {machine : Machine} {ledger : Ledger}, Watched program proc start machine ledger →
      ∃ activation visit, machine.calls.top? = some activation ∧
        ledger.running.head? = some visit ∧
        Isolated module program start machine ledger activation visit) ∧
    ∀ {steps : Nat} {machine : Machine},
      invoke program proc io steps store = (machine, .returned) →
        machine.registers = start.registers := by
  obtain ⟨compiles, -⟩ := compiles_of_compile compile
  have prepared := prepared_of_prepare prepare
  have isEntry := found_of_checkCall allowed
  refine ⟨?_, ?_, ?_⟩
  · intro steps machine running
    obtain ⟨entry', start', entered, allowed', prepare', enters, ran⟩ :=
      exists_prepare_of_invoke running
    rw [allowed] at allowed'
    obtain rfl := Except.ok.inj allowed'
    rw [prepare] at prepare'
    injection prepare' with _ same
    subst same
    exact exists_watched enters ran
  · intro machine ledger watched
    obtain ⟨level, rest, tracks, matched⟩ :=
      watched.exists_matches prepared isEntry compiles verified
    obtain ⟨visit, isFirst, isolated⟩ :=
      matched.isolated tracks compiles verified (prepared.grounds compiles)
    exact ⟨level.activation, visit, top?_eq tracks.activations, isFirst, isolated⟩
  · intro steps machine returned
    rw [invoke_eq, allowed] at returned
    dsimp only at returned
    rw [prepare] at returned
    dsimp only at returned
    unfold run at returned
    cases enters : enter program proc start with
    | error error other =>
        rw [enters] at returned
        cases returned
    | ok _ entered =>
        rw [enters] at returned
        obtain ⟨count, middle, ran, last⟩ := exists_of_continueFor_returned returned
        obtain ⟨ledger, watched⟩ := exists_watched enters ran
        obtain ⟨level, rest, tracks, -⟩ :=
          watched.exists_matches prepared isEntry compiles verified
        obtain ⟨_, levels, -, tracksAfter, ended, -⟩ :=
          tracks.exists_moves compiles verified (prepared.grounds compiles) last
        have none : levels = [] := List.isEmpty_iff.mp ended.symm
        subst none
        exact tracksAfter.stacked

/-- The factorial of three leaves the registers as they were. -/
theorem factorial_restores : ∃ entry start final,
    prepare Samples.factorialProgram entry 0
        (idle Samples.factorialProgram Samples.factorialStore) = .ok () start ∧
      invoke Samples.factorialProgram Samples.entry 0 50 Samples.factorialStore =
        (final, .returned) ∧
      final.registers = start.registers := by
  have isRunning : (invoke Samples.factorialProgram Samples.entry 0 0 Samples.factorialStore).2 =
      .running := by decide +kernel
  have hasReturned : (invoke Samples.factorialProgram Samples.entry 0 50 Samples.factorialStore).2 =
      .returned := by decide +kernel
  have running : invoke Samples.factorialProgram Samples.entry 0 0 Samples.factorialStore =
      (_, .running) := Prod.ext rfl isRunning
  have returned : invoke Samples.factorialProgram Samples.entry 0 50 Samples.factorialStore =
      (_, .returned) := Prod.ext rfl hasReturned
  have verified : verifyModule Samples.factorialModule = .ok () := rfl
  obtain ⟨entry, start, -, allowed, prepared, -, -⟩ := exists_prepare_of_invoke running
  obtain ⟨-, -, restored⟩ :=
    isolated_of_invoke verified Samples.compile_factorialModule allowed prepared
  exact ⟨entry, start, _, prepared, returned, restored returned⟩

end ScopeMachine
