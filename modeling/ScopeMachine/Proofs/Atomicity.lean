import ScopeMachine.Proofs.Confinement

/-! # Faults are atomic

An instruction looks at all that it needs before it changes anything, so one that fails has changed
nothing. Where it changes frames and scopes in turn, the scope rules see to it that the second
change cannot fail once the first is made. What a host finds after a call that has failed is
therefore what the last completed instruction left.

* `Tracks.eq_of_execute_error` says so of one instruction, and `Tracks.sameData_of_step_error` of a
  step, in which a caller may have moved on to a call that is not possible any more;
* `Machine.invoke_eq_failed` says where a call has failed;
* `Machine.Refuses.confined` says that a call which is refused has changed no variable;
* `faults_are_atomic` puts these together. -/

namespace ScopeMachine

open Machine

/-! ### Steps -/

/-- A procedure that cannot be entered leaves the machine as it is. -/
theorem Machine.eq_of_enter_error {program : Program} {proc : ProcId} {machine after : Machine}
    {error : Error} (failed : enter program proc machine = .error error after) :
    after = machine := by
  by_cases full : program.maxCallDepth ≤ machine.calls.depth
  · rw [enter_of_full proc full] at failed
    cases failed
    rfl
  · cases found : program.procs[proc.index.toNat]? with
    | none =>
        rw [enter_of_missing full found] at failed
        cases failed
        rfl
    | some code =>
        obtain ⟨entered, done, -⟩ := exists_enter full found
        rw [done] at failed
        cases failed

section
variable {module : Module} {program : Program} {start : RegisterFile} {level : Level}
  {rest : List Level} {machine after : Machine} {error : Error}

/-- **An instruction that fails has changed nothing.** -/
theorem Tracks.eq_of_execute_error (tracks : Tracks module program start (level :: rest) machine)
    (compiles : Compiles module program) (verified : verifyModule module = .ok ())
    (grounds : Grounds module program start) {instruction : Instruction} {pc : Nat}
    (isCurrent : current program machine = .ok (instruction, pc))
    (failed : execute program instruction pc machine = .error error after) : after = machine := by
  obtain ⟨other, allowed, found, admitted, isOther⟩ := tracks.exists_current compiles verified
  rw [isCurrent] at isOther
  obtain ⟨rfl, rfl⟩ := Prod.mk.inj (Except.ok.inj isOther)
  -- calls and returns are left to the step, and do not fail by themselves
  by_cases isRet : instruction = .ret
  · subst isRet
    cases failed
  by_cases isCall : ∃ proc, instruction = .call proc
  · obtain ⟨proc, rfl⟩ := isCall
    cases failed
  rcases tracks.execute_within compiles verified grounds found admitted
      (fun proc same => isCall ⟨proc, same⟩) isRet with
    ⟨outcome, middle, executed, -⟩ | ⟨reason, unchanged, -⟩
  · rw [failed] at executed
    cases executed
  · rw [failed] at unchanged
    cases unchanged
    rfl

/-- A step that fails has changed no data. -/
theorem Tracks.sameData_of_step_error
    (tracks : Tracks module program start (level :: rest) machine)
    (compiles : Compiles module program) (verified : verifyModule module = .ok ())
    (grounds : Grounds module program start)
    (failed : Machine.step program machine = .error error after) : SameData machine after := by
  obtain ⟨instruction, allowed, found, admitted, isCurrent⟩ :=
    tracks.exists_current compiles verified
  rcases tracks.step compiles verified grounds isCurrent found admitted with
    ⟨_, _, succeeded, -⟩ | ⟨reason, other, failedOther, same, -⟩
  · rw [failed] at succeeded
    cases succeeded
  · rw [failed] at failedOther
    cases failedOther
    exact same

end

/-! ### Calls -/

namespace Machine

section
variable {program : Program} {proc : ProcId} {io : VarId} {store : Store} {error : Error}
  {final : Machine}

/-- **Where a call has failed**: at a step after others, or before the first one. -/
theorem invoke_eq_failed {steps : Nat}
    (ends : invoke program proc io steps store = (final, .failed error)) :
    (∃ taken machine, taken < steps ∧
      invoke program proc io taken store = (machine, .running) ∧
      step program machine = .error error final) ∨
    Refuses program proc io store error final := by
  rcases invoke_cases program proc io store with
    ⟨entry, start, entered, -, runs⟩ | ⟨other, last, refuses, fails⟩
  · rw [runs] at ends
    obtain ⟨taken, machine, before, ran, failed⟩ := continueFor_eq_failed ends
    exact .inl ⟨taken, machine, before, (runs taken).trans ran, failed⟩
  · rw [fails] at ends
    cases ends
    exact .inr refuses

/-- Preparing a call makes variables at most, and is no execution that could have a fault. -/
theorem keeps_prepare_fresh (program : Program) (entry : ProcCode) (io : VarId) (store : Store) :
    Keeps (Holds (Store.Confined (store.next ≤ ·) store) fun _ _ _ => True) (fun _ => False)
      (idle program store) (prepare program entry io) :=
  (allots_confined (fun _ _ => trivial) fun _ _ => trivial).keeps_prepare
    (holds_idle program store.confined_fresh) fun _ _ => trivial

/-- A call that is refused has made variables at most. -/
theorem Refuses.confined (refuses : Refuses program proc io store error final) :
    Store.Confined (store.next ≤ ·) store final.store := by
  cases refuses with
  | forbids refused => exact store.confined_fresh
  | lacks allowed refused =>
      exact ((keeps_prepare_fresh program _ io store).of_error refused).1.store
  | excludes allowed prepared refused =>
      rw [eq_of_enter_error refused]
      exact ((keeps_prepare_fresh program _ io store).of_ok prepared).store

/-- The only fault for which a call is refused is that there are too many calls. -/
theorem Refuses.exists_limit (refuses : Refuses program proc io store error final)
    (kind : error.kind = .execution) : ∃ limit, error = .execution (.callDepthExceeded limit) := by
  obtain ⟨fault, rfl⟩ : ∃ fault, error = .execution fault := by
    cases error with
    | execution fault => exact ⟨fault, rfl⟩
    | _ => cases kind
  cases refuses with
  | forbids refused => exact absurd refused (checkCall_ne_fault program proc io store fault)
  | lacks allowed refused =>
      exact (((keeps_prepare_fresh program _ io store).of_error refused).2 fault rfl).elim
  | excludes allowed prepared refused =>
      have enters : Keeps _ (fun fault => ∃ limit, fault = .callDepthExceeded limit) _
          (enter program proc) :=
        keeps_enter ((keeps_prepare_fresh program _ io store).of_ok prepared) program proc
          fun limit => ⟨limit, rfl⟩
      obtain ⟨limit, rfl⟩ := (enters.of_error refused).2 fault rfl
      exact ⟨limit, rfl⟩

end

end Machine

/-- **Faults are atomic.** Whenever an instruction of a verified module fails during a call, nothing
has changed: not the registers, not the activations, and no variable. So a host whose call has
failed finds its variables as the last completed step left them; or, if there was none since the
call was refused, as they were. Unless there are too many calls, a refusal is no fault of an
execution. -/
theorem faults_are_atomic {module : Module} {program : Program} {maxCallDepth : Nat}
    {before compiled : Store} (verified : verifyModule module = .ok ())
    (compile : Program.compile module maxCallDepth before = .ok program compiled)
    (proc : ProcId) (io : VarId) :
    (∀ store steps machine instruction pc error after,
      invoke program proc io steps store = (machine, .running) →
      current program machine = .ok (instruction, pc) →
      execute program instruction pc machine = .error error after → after = machine) ∧
    ∀ host party subject steps error, Host.subject? host party = some subject →
      (host.stage subject.registry subject.module).program? = some program →
      host.outcome (Host.ask party (.call proc io steps)) = .error error →
      (∃ taken machine final, taken < steps ∧
        invoke program proc io taken host.store = (machine, .running) ∧
        step program machine = .error error final ∧ SameData machine final ∧
        (host.after (Host.ask party (.call proc io steps))).store =
          machine.store.reclaim host.roots) ∨
      (∃ final, Refuses program proc io host.store error final ∧
        (error.kind = .execution → ∃ limit, error = .execution (.callDepthExceeded limit)) ∧
        ∀ id var, host.store.get? id = some var → host.store.Reaches host.roots id →
          (host.after (Host.ask party (.call proc io steps))).store.get? id = some var) ∨
      error.kind ≠ .execution ∧
        (host.after (Host.ask party (.call proc io steps))).store = host.store := by
  have compiles := (compiles_of_compile compile).1
  refine ⟨?_, ?_⟩
  · intro store steps machine instruction pc error after running isCurrent failed
    obtain ⟨start, level, rest, grounds, tracks⟩ :=
      exists_tracks_of_invoke compiles verified running
    exact tracks.eq_of_execute_error compiles verified grounds isCurrent failed
  · intro host party subject steps error speaks isProgram fails
    rcases Host.ask_call_cases speaks proc io steps with
      ⟨⟨reason, kind, ends⟩, same⟩ | ⟨other, isOther, ends, leads⟩
    · obtain rfl : reason = error := Except.error.inj (ends.symm.trans fails)
      exact .inr (.inr ⟨kind, same⟩)
    · obtain rfl : other = program := Option.some.inj (isOther.symm.trans isProgram)
      rw [leads]
      cases invoked : invoke other proc io steps host.store with
      | mk final completion =>
          rw [invoked] at ends
          rw [fails] at ends
          cases completion with
          | returned | running => cases ends
          | failed reason =>
              cases ends
              rcases invoke_eq_failed invoked with
                ⟨taken, machine, sooner, running, stepped⟩ | refuses
              · obtain ⟨start, level, rest, grounds, tracks⟩ :=
                  exists_tracks_of_invoke compiles verified running
                have same := tracks.sameData_of_step_error compiles verified grounds stepped
                refine .inl ⟨taken, machine, final, sooner, running, stepped, same, ?_⟩
                rw [same.store]
              · refine .inr (.inl ⟨final, refuses, refuses.exists_limit, ?_⟩)
                intro id var found reaches
                -- preparing has made variables at most, and this one was there before
                have known := Nat.not_le_of_lt (Slots.lt_next_of_get? found)
                rw [refuses.confined.get?_reclaim host.store.confined_fresh reaches known, found]

/-- A delivery fails since there is no seventh word, and the five that it had stored is there. -/
theorem delivery_atomic : ∃ turns host program taken machine final,
    advance (Samples.packing ++ [Samples.sending]) [] Host.empty = some (turns, host) ∧
    invoke program Samples.delivery 3 taken host.store = (machine, .running) ∧
    step program machine = .error (.execution (.indexOutOfRange Samples.carried 7 1)) final ∧
    (host.after (Host.ask (.handle 0) (.call Samples.delivery 3 20))).store =
      machine.store.reclaim host.roots ∧
    machine.store.get? 5 ≠ host.store.get? 5 := by
  have checks : (advance (Samples.packing ++ [Samples.sending]) [] Host.empty).any fun result =>
      let after := result.2.after (Host.ask (.handle 0) (.call Samples.delivery 3 20))
      decide (result.2.subject? (.handle 0) = some ⟨0, Samples.courier⟩) &&
      decide (result.2.fault? (Host.ask (.handle 0) (.call Samples.delivery 3 20)) =
        some (.indexOutOfRange Samples.carried 7 1)) &&
      decide (5 ∈ result.2.roots) && (result.2.store.get? 5).isSome &&
      decide (after.store.get? 5 ≠ result.2.store.get? 5) &&
      ((Program.compile Samples.courierModule 10).run' Slots.empty).any fun program =>
        decide ((result.2.stage 0 Samples.courier).program? = some program) := by decide +kernel
  obtain ⟨⟨turns, host⟩, advanced, checks⟩ := (Option.any_eq_true _ _).mp checks
  simp only [Bool.and_eq_true, decide_eq_true_eq] at checks
  obtain ⟨⟨⟨⟨⟨speaks, faults⟩, member⟩, known⟩, changed⟩, isProgram⟩ := checks
  obtain ⟨word, isWord⟩ := Option.isSome_iff_exists.mp known
  obtain ⟨program, ran, isProgram⟩ := (Option.any_eq_true _ _).mp isProgram
  obtain ⟨compiled, compile⟩ := exists_of_run' ran
  have verified : verifyModule Samples.courierModule = .ok () :=
    toOption_eq_some.mp (by decide +kernel)
  rcases (faults_are_atomic verified compile Samples.delivery 3).2 host _ _ 20 _ speaks
      (of_decide_eq_true isProgram) (Host.fault?_eq_some.mp faults) with
    ⟨taken, machine, final, -, running, failed, -, leads⟩ | ⟨_, -, -, same⟩ | ⟨kind, -⟩
  · refine ⟨turns, host, program, taken, machine, final, advanced, running, failed, leads, ?_⟩
    intro unchanged
    refine changed ?_
    rw [leads, ← unchanged]
    exact (Store.prunes_reclaim machine.store host.roots).kept member
  · exact absurd ((same 5 word isWord (.root member)).trans isWord.symm) changed
  · exact absurd rfl kind

end ScopeMachine
