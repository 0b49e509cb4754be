import ScopeMachine.Proofs.Atomicity

/-! # Null frames are confined

A null frame gets into a register when a scope is opened without a variable, or when the register is
bound to what an empty slot refers to. Both ask for a register that is declared for it, and no scope
of a static register is ever opened. A null frame that is copied stays in its register, and so it
does when a procedure is called. So a null frame is found in some registers only, and only these can
be at fault when there is no variable to work on.

* `Module.MayBeNull` tells these registers;
* `Machine.Prepared.none_notMem` says that there is no null frame at the start,
  `Tracks.nulls_of_step` where a step puts one, and `Tracks.nulls_of_continueFor` where a run does;
* `nulls_of_invoke` says which registers have null frames during a call;
* `null_frames_are_confined` says so of the calls of a history, and of the faults in which they
  end. -/

namespace ScopeMachine

open Machine

/-! ### Registers that may be null -/

namespace Module

/-- A register may be bound to referents. -/
def isRebindable (module : Module) (reg : RegId) : Bool :=
  (module.reg? reg).any fun spec => spec.flags.contains RegFlags.nonFixedRef

/-- A register may be null: it may be bound to referents, and it is neither the error register nor
persistent or thread-local. -/
def MayBeNull (module : Module) (reg : RegId) : Prop :=
  module.isRebindable reg = true ∧ module.isStatic reg = false

variable {module : Module} {reg : RegId}

/-- A register that passes the check may be bound to referents. -/
theorem isRebindable_of_check {declared : DeclaredReg}
    (found : module.declaredReg reg = .ok declared) (checked : declared.checkRebindable = .ok ()) :
    module.isRebindable reg = true := by
  unfold isRebindable
  rw [(declaredReg_eq_ok found).1]
  unfold DeclaredReg.checkRebindable at checked
  split at checked
  next flagged => exact flagged
  next => cases checked

/-- **Null frames are put into registers that may be bound to referents.** -/
theorem isRebindable_of_nulls {instruction : Instruction}
    (checked : module.checkOperands instruction = .ok ()) (puts : instruction.nulls? = some reg) :
    module.isRebindable reg = true := by
  cases instruction with
  | alsr _ | pushr _ =>
      cases puts
      obtain ⟨declared, found, checked⟩ := bind_eq_ok.mp checked
      exact isRebindable_of_check found checked
  | ldr _ _ _ =>
      cases puts
      obtain ⟨declared, found, checked⟩ := bind_eq_ok.mp checked
      obtain ⟨_, checked, -⟩ := bind_eq_ok.mp checked
      exact isRebindable_of_check found checked
  | _ => cases puts

end Module

/-! ### Runs -/

/-- There is no null frame at the start. -/
theorem Machine.Prepared.none_notMem {program : Program} {entry : ProcCode} {io : VarId}
    {store : Store} {start : Machine} (prepared : Prepared program entry io store start)
    (reg : RegId) : none ∉ start.registers.framesOf reg := by
  intro null
  cases found : program.regs[reg.index]? with
  | none =>
      -- a register that is not there has no frames
      have outside := Array.getElem?_eq_none_iff.mp found
      rw [RegisterFile.framesOf, Array.getElem?_eq_none (by rw [prepared.size]; exact outside)]
        at null
      cases null
  | some slot =>
      obtain ⟨base, boots, frames⟩ := prepared.frames found
      rw [frames, List.mem_append] at null
      rcases null with isIo | inBase
      · split at isIo
        · cases List.mem_singleton.mp isIo
        · cases isIo
      · unfold RegSlot.Boots at boots
        split at boots
        · obtain ⟨fresh, rfl, -⟩ := boots
          cases List.mem_singleton.mp inBase
        · split at boots
          next isStored =>
            rw [boots] at inBase
            rw [← List.mem_singleton.mp inBase] at isStored
            cases isStored
          next =>
            rw [boots] at inBase
            cases inBase

section
variable {module : Module} {program : Program} {start : RegisterFile} {level : Level}
  {rest levels : List Level} {machine after : Machine}

/-- **Where a step puts null frames.** -/
theorem Tracks.nulls_of_step (tracks : Tracks module program start (level :: rest) machine)
    (compiles : Compiles module program) (wellFormed : module.WellFormed)
    (verified : verifyModule module = .ok ()) (grounds : Grounds module program start) {done : Bool}
    (stepped : Machine.step program machine = .ok done after) :
    ∃ levels, Tracks module program start levels after ∧ done = levels.isEmpty ∧
      ∀ reg, none ∈ after.registers.framesOf reg →
        none ∈ machine.registers.framesOf reg ∨ module.isRebindable reg = true := by
  obtain ⟨instruction, allowed, found, admitted, isCurrent⟩ :=
    tracks.exists_current compiles verified
  rcases tracks.step compiles verified grounds isCurrent found admitted with
    ⟨levels, moved, succeeded, -, tracksAfter, -, -, nulls⟩ | ⟨error, moved, failed, -⟩
  · rw [stepped] at succeeded
    injection succeeded with sameDone same
    subst same
    refine ⟨levels, tracksAfter, sameDone, ?_⟩
    intro reg null
    have checked := compiles.checkOperands wellFormed
      (tracks.placed level List.mem_cons_self).found found
    exact (nulls reg null).imp_right (Module.isRebindable_of_nulls checked)
  · rw [stepped] at failed
    cases failed

/-- **Where a run puts null frames.** -/
theorem Tracks.nulls_of_continueFor (tracks : Tracks module program start levels machine)
    (compiles : Compiles module program) (wellFormed : module.WellFormed)
    (verified : verifyModule module = .ok ()) (grounds : Grounds module program start)
    (entered : levels ≠ []) (bare : ∀ reg, none ∉ machine.registers.framesOf reg) {steps : Nat}
    (ran : Machine.continueFor program steps machine = (after, .running)) :
    ∃ levels, levels ≠ [] ∧ Tracks module program start levels after ∧
      ∀ reg, none ∈ after.registers.framesOf reg → module.isRebindable reg = true := by
  -- steps are added at the end: the machine before the last one is tracked already
  induction steps generalizing after with
  | zero =>
      cases ran
      exact ⟨levels, entered, tracks, fun reg null => absurd null (bare reg)⟩
  | succ steps ih =>
      obtain ⟨middle, ranBefore, stepped⟩ := continueFor_succ_eq_running.mp ran
      obtain ⟨before, nonempty, tracked, nulls⟩ := ih ranBefore
      obtain ⟨level, rest, rfl⟩ := List.exists_cons_of_ne_nil nonempty
      obtain ⟨next, tracksNext, running, nullsNext⟩ :=
        tracked.nulls_of_step compiles wellFormed verified grounds stepped
      have stays : next ≠ [] := by
        rintro rfl
        cases running
      refine ⟨next, stays, tracksNext, ?_⟩
      intro reg null
      rcases nullsNext reg null with old | flagged
      · exact nulls reg old
      · exact flagged

end

/-! ### Calls -/

section
variable {module : Module} {program : Program} {proc : ProcId} {io : VarId} {store : Store}
  {steps : Nat} {machine : Machine} {reg : RegId}

/-- **Which registers have null frames** during a call. -/
theorem nulls_of_invoke (compiles : Compiles module program) (wellFormed : module.WellFormed)
    (verified : verifyModule module = .ok ())
    (running : invoke program proc io steps store = (machine, .running))
    (null : none ∈ machine.registers.framesOf reg) : module.MayBeNull reg := by
  obtain ⟨entry, start, entered, allowed, prepare, enter, ran⟩ := exists_prepare_of_invoke running
  have prepared := prepared_of_prepare prepare
  obtain ⟨tracksEntry, sameData⟩ :=
    tracks_of_enter module prepared (found_of_checkCall allowed) enter
  have bare : ∀ reg, none ∉ entered.registers.framesOf reg := by
    rw [sameData.registers]
    exact prepared.none_notMem
  obtain ⟨levels, -, tracks, nulls⟩ := tracksEntry.nulls_of_continueFor compiles wellFormed verified
    (prepared.grounds compiles) (List.cons_ne_nil _ _) bare ran
  refine ⟨nulls reg null, ?_⟩
  -- a static register has the frames of the start
  cases isStatic : module.isStatic reg with
  | false => rfl
  | true =>
      rw [tracks.framesOf_static isStatic] at null
      exact absurd null (prepared.none_notMem reg)

/-- A null reference is the fault of a null frame in a register that the instruction looks at. -/
theorem exists_null_of_step_error (compiles : Compiles module program)
    (wellFormed : module.WellFormed) (verified : verifyModule module = .ok ())
    (supplies : store.Supplies program io)
    (running : invoke program proc io steps store = (machine, .running)) {after : Machine}
    (failed : step program machine = .error (.execution (.nullReference reg)) after) :
    ∃ instruction pc frames, current program machine = .ok (instruction, pc) ∧
      reg ∈ instruction.accesses ∧ machine.registers.framesOf reg = none :: frames := by
  obtain ⟨start, level, rest, grounds, tracks⟩ := exists_tracks_of_invoke compiles verified running
  obtain ⟨instruction, allowed, found, admitted, isCurrent⟩ :=
    tracks.exists_current compiles verified
  rcases tracks.step compiles verified grounds isCurrent found admitted with
    ⟨_, _, succeeded, -⟩ | ⟨error, other, failedOther, -, excuses⟩
  · rw [failed] at succeeded
    cases succeeded
  · rw [failed] at failedOther
    cases failedOther
    obtain ⟨fault, same, null⟩ := tracks.faults_of_excuses compiles wellFormed grounds found excuses
    cases same
    obtain ⟨accessed, isNull⟩ := null reg rfl
    have resolved := (ready_of_invoke compiles wellFormed verified running).2 supplies
    obtain ⟨frames, top⟩ :=
      isNull.exists_cons resolved (tracks.framesOf_accesses grounds admitted reg accessed)
    exact ⟨instruction, level.activation.pc, frames, isCurrent, accessed, top⟩

/-- A null reference is the fault of a register that may be null. -/
theorem mayBeNull_of_step_error (compiles : Compiles module program)
    (wellFormed : module.WellFormed) (verified : verifyModule module = .ok ())
    (supplies : store.Supplies program io)
    (running : invoke program proc io steps store = (machine, .running)) {after : Machine}
    (failed : step program machine = .error (.execution (.nullReference reg)) after) :
    module.MayBeNull reg := by
  obtain ⟨_, _, frames, -, -, top⟩ :=
    exists_null_of_step_error compiles wellFormed verified supplies running failed
  exact nulls_of_invoke compiles wellFormed verified running (top ▸ List.mem_cons_self)

end

/-- The registers that an instruction looks at are its operands, besides the error register. -/
theorem Instruction.mem_registers_of_accesses {instruction : Instruction} {reg : RegId}
    (accessed : reg ∈ instruction.accesses) : reg ∈ instruction.registers ∨ reg = RegId.error := by
  cases instruction with
  | als _ | alsr _ | push _ | pushr _ => cases accessed
  | throw => exact .inr (List.mem_singleton.mp accessed)
  | _ => exact .inl accessed

/-- **Null frames are confined.** In every state of a call, after whatever history, a register has a
null frame only if it is declared for referents and is not static. Whenever there is no variable to
work on, such a register is at fault, and never if no operand of the instruction is declared for
referents. -/
theorem null_frames_are_confined {turns : List Turn} {host : Host} (history : History turns host)
    {subject : ModuleRef} {module : Module} {program : Program}
    (isStage : host.stage subject.registry subject.module = .compiled module program)
    {io : VarId} (known : (host.store.get? io).isSome = true) (proc : ProcId) (steps : Nat) :
    (∀ machine, invoke program proc io steps host.store = (machine, .running) →
      (∀ reg, none ∈ machine.registers.framesOf reg → module.MayBeNull reg) ∧
      (∀ reg after, step program machine = .error (.execution (.nullReference reg)) after →
        module.MayBeNull reg) ∧
      ∀ instruction pc, current program machine = .ok (instruction, pc) →
        (∀ reg ∈ instruction.registers, module.isRebindable reg = false) →
        ∀ reg after, step program machine ≠ .error (.execution (.nullReference reg)) after) ∧
    ∀ party reg, host.subject? party = some subject →
      host.outcome (Host.ask party (.call proc io steps)) =
        .error (.execution (.nullReference reg)) → module.MayBeNull reg := by
  have kept := history.kept
  have supplies : host.store.Supplies program io :=
    ⟨known, kept.isSome_persistent isStage, kept.sound.resolves⟩
  obtain ⟨builder, reachable, verified, rfl⟩ :=
    history.exists_builder (history.registered_of_stage (by rw [isStage]; rfl))
  have wellFormed := reachable.wellFormed.module
  have compiles : Compiles builder.module program := (kept.compiles isStage).ofId
  have mayBeNull : ∀ {steps machine reg after},
      invoke program proc io steps host.store = (machine, .running) →
      step program machine = .error (.execution (.nullReference reg)) after →
      builder.module.MayBeNull reg :=
    fun running => mayBeNull_of_step_error compiles wellFormed verified supplies running
  refine ⟨?_, ?_⟩
  · intro machine running
    refine ⟨?_, fun _ _ failed => mayBeNull running failed, ?_⟩
    · intro reg null
      have isNull : builder.module.MayBeNull reg :=
        nulls_of_invoke compiles wellFormed verified running null
      exact isNull
    · intro instruction pc isCurrent fixed reg after failed
      obtain ⟨other, _, _, isOther, accessed, -⟩ :=
        exists_null_of_step_error compiles wellFormed verified supplies running failed
      obtain ⟨rfl, -⟩ := Prod.mk.inj (Except.ok.inj (isCurrent.symm.trans isOther))
      obtain ⟨flagged, notStatic⟩ := mayBeNull running failed
      rcases Instruction.mem_registers_of_accesses accessed with member | rfl
      · cases flagged.symm.trans (fixed reg member)
      · cases notStatic
  · intro party reg speaks failed
    have ends := history.invoke_of_failed speaks isStage failed
    rcases invoke_eq_failed (Prod.ext rfl ends) with
      ⟨taken, machine, -, running, stepped⟩ | refuses
    · exact mayBeNull running stepped
    · obtain ⟨limit, isLimit⟩ := refuses.exists_limit rfl
      cases isLimit

/-- An empty crate is at fault for the register that its packet is bound to, which may be null. -/
theorem hiring_null : ∃ turns host, advance Samples.hiring [] Host.empty = some (turns, host) ∧
    host.outcome (Host.ask (.handle 0) (.call Samples.entry 3 20)) =
      .error (.execution (.nullReference (Samples.reg 2))) ∧
    Samples.courierModule.MayBeNull (Samples.reg 2) := by
  have checks : (advance Samples.hiring [] Host.empty).any fun result =>
      decide (result.2.subject? (.handle 0) = some ⟨0, Samples.courier⟩) &&
      decide ((result.2.stage 0 Samples.courier).module? = some Samples.courierModule) &&
      (result.2.stage 0 Samples.courier).program?.isSome && (result.2.store.get? 3).isSome &&
      decide (result.2.fault? (Host.ask (.handle 0) (.call Samples.entry 3 20)) =
        some (.nullReference (Samples.reg 2))) := by decide +kernel
  obtain ⟨⟨turns, host⟩, advanced, checks⟩ := (Option.any_eq_true _ _).mp checks
  simp only [Bool.and_eq_true, decide_eq_true_eq] at checks
  obtain ⟨⟨⟨⟨speaks, described⟩, compiled⟩, known⟩, faults⟩ := checks
  refine ⟨turns, host, advanced, Host.fault?_eq_some.mp faults, ?_⟩
  cases isStage : host.stage 0 Samples.courier with
  | structural _ | destroyed =>
      rw [isStage] at compiled
      cases compiled
  | compiled module program =>
      rw [isStage] at described
      cases described
      exact (null_frames_are_confined (history_of_advance .start advanced) isStage known
        Samples.entry 20).2 _ _ speaks (Host.fault?_eq_some.mp faults)

end ScopeMachine
