import ScopeMachine.Proofs.Sums

/-! # Variables that do not go together

The operands of an instruction are checked against the declared types of registers. What a register
names can have another layout than it declares, if it has been found in the slot of a variable from
elsewhere. If it is too narrow or has other numbers of slots, the instruction ends in a fault, or
makes a frame null. What the slots are for is not looked at.

* `Machine.Matches` says that the variables which an instruction finds go together in their widths
  and numbers of slots, which the check of operands asks of the types of registers;
* `Machine.matches_of_execute` says what an instruction that succeeds has found;
* `slips_are_overflows` puts this together with the sizes of variables and with what slips there
  are, for the modules that builders give out;
* `stretching_slips` is a call that slips, and one that copies slots over slots of another kind. -/

namespace ScopeMachine

namespace Machine

/-! ### What instructions ask for -/

/-- Elements of what a register names have at least so many bytes. -/
def AtLeast (machine : Machine) (reg : RegId) (bytes : Nat) : Prop :=
  machine.Names reg fun var => bytes ≤ var.layout.elementBytes

/-- Elements of two layouts are equally large, with as many slots of each kind. -/
structure Alike (left right : Layout) : Prop where
  /-- The payloads are equally large. -/
  bytes : left.elementBytes = right.elementBytes
  /-- There are as many owned slots. -/
  owned : left.ownedWidth = right.ownedWidth
  /-- There are as many native slots. -/
  natives : left.nativeWidth = right.nativeWidth

/-- The variables that an instruction finds go together with it and with each other. -/
def Matches (machine : Machine) : Instruction → Prop
  | .inc reg | .dec reg | .jz reg _ | .jnz reg _ | .jgz reg _ | .jngz reg _ =>
      machine.AtLeast reg wordBytes
  | .add dst left right | .sub dst left right | .mul dst left right =>
      machine.AtLeast dst wordBytes ∧ machine.AtLeast left wordBytes ∧
        machine.AtLeast right wordBytes
  | .jg left right _ | .jng left right _ | .je left right _ =>
      machine.AtLeast left wordBytes ∧ machine.AtLeast right wordBytes
  | .cpi1 dst _ => machine.AtLeast dst 1
  | .cpi2 dst _ => machine.AtLeast dst 2
  | .cpi4 dst _ => machine.AtLeast dst 4
  | .cpi8 dst _ => machine.AtLeast dst 8
  | .lde dst src position | .ste dst position src =>
      machine.AtLeast position wordBytes ∧
        machine.Names dst fun target => machine.Names src fun source =>
          Alike target.layout source.layout
  | .ldb dst src offset =>
      machine.Names dst fun target =>
        machine.AtLeast src (offset.toNat + target.layout.elementBytes)
  | .stb dst offset src =>
      machine.Names src fun source =>
        machine.AtLeast dst (offset.toNat + source.layout.elementBytes)
  | .ldr _ src slot => machine.Names src fun source => slot.toNat < source.layout.ownedWidth
  | .str dst slot _ => machine.Names dst fun target => slot.toNat < target.layout.ownedWidth
  | .throw => machine.AtLeast RegId.error wordBytes
  | .cpb _ _ | .jmp _ | .als _ | .push _ | .alsr _ | .pushr _ | .pushh _ | .frs _ | .pop _
  | .frsl _ | .popl _ | .call _ | .ret => True

section
variable {α β : Type} {machine after : Machine} {reg dst src : RegId}

/-- What a register names is one variable. -/
theorem names_of_named {id : VarId} {var : Variable} {holds : Variable → Prop}
    (isNamed : machine.named reg = .ok (id, var)) (right : holds var) :
    machine.Names reg holds := by
  intro other otherVar isOther
  cases isNamed.symm.trans isOther
  exact right

/-- A look that something follows has found a value. -/
theorem exists_of_look {look : Machine → Except Error α} {next : α → Exec β} {result : β}
    (done : (inspect look >>= next) machine = .ok result after) :
    ∃ value, look machine = .ok value ∧ next value machine = .ok result after := by
  obtain ⟨value, middle, looked, done⟩ := bind_apply_eq_ok.mp done
  rw [inspect_apply] at looked
  split at looked
  next found =>
    cases looked
    exact ⟨value, found, done⟩
  next => cases looked

/-- A word that is there has its bytes. -/
theorem wide_of_hasWord {var : Variable} {index : Nat} (holds : var.hasWord index = true) :
    wordBytes ≤ var.layout.elementBytes := by
  unfold Variable.hasWord at holds
  exact of_decide_eq_true (Bool.and_eq_true_iff.mp holds).2

/-- A word has been read. -/
theorem atLeast_of_readWord {next : Int64 → Exec β} {result : β}
    (done : (readWord reg >>= next) machine = .ok result after) :
    machine.AtLeast reg wordBytes ∧ ∃ word, next word machine = .ok result after := by
  obtain ⟨word, found, done⟩ := exists_of_look done
  obtain ⟨⟨id, var⟩, isNamed, found⟩ := bind_eq_ok.mp found
  refine ⟨names_of_named isNamed ?_, word, done⟩
  replace found := orError_eq_ok.mp found
  unfold Variable.word? at found
  split at found
  next holds => exact wide_of_hasWord holds
  next => cases found

/-- A word has been written. -/
theorem atLeast_of_writeWord {word : Int64} {result : Unit}
    (done : writeWord reg word machine = .ok result after) : machine.AtLeast reg wordBytes := by
  obtain ⟨id, found, -⟩ := exists_of_look done
  obtain ⟨⟨target, var⟩, isNamed, found⟩ := bind_eq_ok.mp found
  refine names_of_named isNamed ?_
  dsimp only at found
  split at found
  next holds => exact wide_of_hasWord holds
  next => cases found

/-- A literal has been stored. -/
theorem atLeast_of_storeLiteral {literal : Array UInt8} {result : Unit}
    (done : storeLiteral reg literal machine = .ok result after) :
    machine.AtLeast reg literal.size := by
  obtain ⟨id, found, -⟩ := exists_of_look done
  obtain ⟨⟨target, var⟩, isNamed, found⟩ := bind_eq_ok.mp found
  obtain ⟨-, found⟩ := guarded_eq_ok.mp found
  obtain ⟨wide, -⟩ := guarded_eq_ok.mp found
  exact names_of_named isNamed (Nat.le_of_not_lt wide)

/-- An element that has been copied is one of a variable. -/
theorem exists_of_elementAt {index : Int} {value : Element}
    (copied : elementAt reg index machine = .ok value) :
    ∃ id var position, machine.named reg = .ok (id, var) ∧
      var.element? position = some value := by
  obtain ⟨⟨id, var⟩, isNamed, copied⟩ := bind_eq_ok.mp copied
  obtain ⟨position, -, isElement⟩ := Option.bind_eq_some_iff.mp (orError_eq_ok.mp copied)
  exact ⟨id, var, position, isNamed, isElement⟩

/-- An element has been copied from one variable to another. -/
theorem alike_of_storeElementAt (sized : machine.store.Sized) {start stop : Int} {value : Element}
    (copied : elementAt src start machine = .ok value) {result : Unit}
    (done : storeElementAt dst stop value machine = .ok result after) :
    machine.Names dst fun target => machine.Names src fun source =>
      Alike target.layout source.layout := by
  obtain ⟨_, source, position, isSource, isElement⟩ := exists_of_elementAt copied
  obtain ⟨id, found, -⟩ := exists_of_look done
  obtain ⟨⟨_, target⟩, isTarget, found⟩ := bind_eq_ok.mp found
  refine names_of_named isTarget (names_of_named isSource ?_)
  dsimp only at found
  split at found
  next fits =>
    -- the copy is a row of each array of the source, as wide as the layout of the source says
    have sizedSource := sized (named_eq_ok isSource).1
    have present : position < source.count := by
      apply Nat.lt_of_not_le
      intro missing
      rw [Variable.element?_eq_none missing] at isElement
      cases isElement
    rw [Variable.element?_eq present] at isElement
    cases isElement
    have fits := fits.2
    unfold Variable.fits at fits
    rw [size_row sizedSource.payload present, size_row sizedSource.owned present,
      size_row sizedSource.natives present] at fits
    simp only [Bool.and_eq_true, beq_iff_eq] at fits
    exact ⟨fits.1.1.2.symm, fits.1.2.symm, fits.2.symm⟩
  next => cases found

/-- Bytes have been loaded. -/
theorem atLeast_of_loadBytes (sized : machine.store.Sized) {offset : Nat} {result : Unit}
    (done : loadBytes dst src offset machine = .ok result after) :
    machine.Names dst fun target => machine.AtLeast src (offset + target.layout.elementBytes) := by
  obtain ⟨copy, found, -⟩ := exists_of_look done
  obtain ⟨⟨_, target⟩, isTarget, found⟩ := bind_eq_ok.mp found
  obtain ⟨⟨_, source⟩, isSource, found⟩ := bind_eq_ok.mp found
  obtain ⟨bytes, isBytes, found⟩ := bind_eq_ok.mp found
  obtain ⟨wide, -⟩ := guarded_eq_ok.mp found
  refine names_of_named isTarget (names_of_named isSource ?_)
  have sizedSource := sized (named_eq_ok isSource).1
  rw [sizedSource.size_bytes? (orError_eq_ok.mp isBytes),
    Variable.beyond_partEnd_iff (Layout.elementBytes_lt _) (Layout.elementBytes_lt _)] at wide
  exact Nat.le_of_not_lt wide

/-- Bytes have been stored. -/
theorem atLeast_of_storeBytes (sized : machine.store.Sized) {offset : Nat} {result : Unit}
    (done : storeBytes dst offset src machine = .ok result after) :
    machine.Names src fun source => machine.AtLeast dst (offset + source.layout.elementBytes) := by
  obtain ⟨copy, found, -⟩ := exists_of_look done
  obtain ⟨⟨_, source⟩, isSource, found⟩ := bind_eq_ok.mp found
  obtain ⟨bytes, isBytes, found⟩ := bind_eq_ok.mp found
  obtain ⟨⟨_, target⟩, isTarget, found⟩ := bind_eq_ok.mp found
  obtain ⟨-, found⟩ := guarded_eq_ok.mp found
  obtain ⟨wide, -⟩ := guarded_eq_ok.mp found
  refine names_of_named isSource (names_of_named isTarget ?_)
  have sizedSource := sized (named_eq_ok isSource).1
  rw [sizedSource.size_bytes? (orError_eq_ok.mp isBytes),
    Variable.beyond_partEnd_iff (Layout.elementBytes_lt _) (Layout.elementBytes_lt _)] at wide
  exact Nat.le_of_not_lt wide

/-- A reference has been stored. -/
theorem slot_of_storeRef {slot : Nat} {result : Unit}
    (done : storeRef dst slot src machine = .ok result after) :
    machine.Names dst fun target => slot < target.layout.ownedWidth := by
  obtain ⟨copy, found, -⟩ := exists_of_look done
  obtain ⟨referent, -, found⟩ := bind_eq_ok.mp found
  obtain ⟨⟨_, target⟩, isTarget, found⟩ := bind_eq_ok.mp found
  obtain ⟨present, -⟩ := guarded_eq_ok.mp found
  refine names_of_named isTarget ?_
  unfold Variable.ownedIndex? at present
  split at present
  next inside => exact inside.2
  next => exact absurd rfl present

/-- A frame that has been bound is the top one. -/
theorem framesOf_of_rebind {frame : Frame} {result : Unit}
    (done : discard (onRegisters (Registers.rebind reg frame)) machine = .ok result after) :
    ∃ frames, after.registers.framesOf reg = frame :: frames := by
  obtain ⟨old, done⟩ := discard_apply_eq_ok.mp done
  cases top : machine.registers.framesOf reg with
  | nil =>
      obtain ⟨error, failed, -⟩ : ∃ error, Registers.rebind reg frame machine.registers =
          .error error machine.registers ∧ ∀ fault, error ≠ .execution fault :=
        exists_error_of_no_frame top rfl
      cases (onRegisters_eq_error failed _ _ _).symm.trans done
  | cons below frames =>
      have has := RegisterFile.has_of_framesOf_eq_cons top
      cases (onRegisters_eq_ok (Registers.rebind_apply top frame) _ _ _).symm.trans done
      refine ⟨frames, ?_⟩
      dsimp only
      rw [RegisterFile.framesOf_modifyFrames has, if_pos rfl, top, List.tail_cons]

/-- **A reference has been loaded**, or the frame is null since there is no such slot. -/
theorem slot_of_loadRef {slot : Nat} {result : Unit}
    (done : loadRef dst src slot machine = .ok result after) :
    (machine.Names src fun source => slot < source.layout.ownedWidth) ∨
      ∃ frames, after.registers.framesOf dst = none :: frames := by
  obtain ⟨referent, found, done⟩ := exists_of_look done
  obtain ⟨⟨_, source⟩, isSource, found⟩ := bind_eq_ok.mp found
  obtain ⟨-, found⟩ := guarded_eq_ok.mp found
  by_cases inside : slot < source.layout.ownedWidth
  · exact .inl (names_of_named isSource inside)
  · have isNull : source.ownedRef? 0 slot = none := by
      rw [Variable.ownedRef?, Variable.ownedIndex?, if_neg fun both => inside both.2]
      rfl
    obtain rfl : source.ownedRef? 0 slot = referent := Except.ok.inj found
    rw [isNull] at done
    exact .inr (framesOf_of_rebind done)

/-! ### Instructions -/

/-- **What an instruction that succeeds has found** goes together. If it loads a reference from a
slot that is not there, it has made the frame null instead. -/
theorem matches_of_execute (sized : machine.store.Sized) {program : Program}
    {instruction : Instruction} {pc : Nat} {outcome : Outcome}
    (done : execute program instruction pc machine = .ok outcome after) :
    machine.Matches instruction ∨ ∃ dst src slot frames, instruction = .ldr dst src slot ∧
      outcome = .next ∧ after.registers.framesOf dst = none :: frames := by
  -- what an instruction returns does not matter to what it has found
  have finds : ∀ {action : Exec Unit} {found : Prop},
      (action >>= fun _ => pure Outcome.next) machine = .ok outcome after →
      (∀ result middle, action machine = .ok result middle → found) → found := by
    intro action found done holds
    obtain ⟨result, middle, ran, -⟩ := bind_apply_eq_ok.mp done
    exact holds result middle ran
  cases instruction with
  | inc reg | dec reg | jz reg offset | jnz reg offset | jgz reg offset | jngz reg offset =>
      exact .inl (atLeast_of_readWord done).1
  | throw => exact .inl (atLeast_of_readWord done).1
  | add dst left right | sub dst left right | mul dst left right =>
      refine .inl (finds done fun result middle ran => ?_)
      obtain ⟨first, _, ran⟩ := atLeast_of_readWord ran
      obtain ⟨second, _, ran⟩ := atLeast_of_readWord ran
      exact ⟨atLeast_of_writeWord ran, first, second⟩
  | jg left right offset | jng left right offset | je left right offset =>
      obtain ⟨taken, middle, ran, -⟩ := bind_apply_eq_ok.mp done
      obtain ⟨first, _, ran⟩ := atLeast_of_readWord ran
      exact .inl ⟨first, (atLeast_of_readWord ran).1⟩
  | cpi1 dst literal | cpi2 dst literal | cpi4 dst literal | cpi8 dst literal =>
      exact .inl (finds done fun _ _ ran => atLeast_of_storeLiteral ran)
  | lde dst src position | ste dst position src =>
      obtain ⟨wide, index, done⟩ := atLeast_of_readWord done
      obtain ⟨value, copied, done⟩ := exists_of_look done
      exact .inl ⟨wide, finds done fun _ _ ran => alike_of_storeElementAt sized copied ran⟩
  | ldb dst src offset => exact .inl (finds done fun _ _ ran => atLeast_of_loadBytes sized ran)
  | stb dst offset src => exact .inl (finds done fun _ _ ran => atLeast_of_storeBytes sized ran)
  | str dst slot src => exact .inl (finds done fun _ _ ran => slot_of_storeRef ran)
  | ldr dst src slot =>
      obtain ⟨result, middle, ran, returns⟩ := bind_apply_eq_ok.mp done
      cases returns
      rcases slot_of_loadRef ran with inside | ⟨frames, isNull⟩
      · exact .inl inside
      · exact .inr ⟨dst, src, slot, frames, rfl, rfl, isNull⟩
  | _ => exact .inl trivial

/-- Falling through to the next instruction leaves the data as it is. -/
theorem sameData_of_moveOn_next {program : Program} {pc : Nat} {ended : Bool}
    (done : moveOn program pc .next machine = .ok ended after) :
    SameData machine after ∧ ended = false := by
  obtain ⟨_, middle, moved, returns⟩ := bind_apply_eq_ok.mp done
  cases returns
  unfold updateTop at moved
  rw [get_bind_apply] at moved
  cases empty : machine.calls.isEmpty with
  | true =>
      rw [empty] at moved
      cases moved
  | false =>
      rw [empty] at moved
      cases moved
      refine ⟨⟨rfl, rfl⟩, ?_⟩
      rw [← empty]
      show (machine.calls.activations.modifyHead _).isEmpty = machine.calls.activations.isEmpty
      cases machine.calls.activations <;> rfl

end

/-! ### Calls -/

section
variable {module : Module} {program : Program} {proc : ProcId} {io : VarId} {store : Store}
  {steps : Nat} {machine : Machine}

/-- A step of a verified module succeeds or ends in a fault of the execution. -/
theorem step_cases_of_invoke (compiles : Compiles module program) (wellFormed : module.WellFormed)
    (verified : verifyModule module = .ok ())
    (running : invoke program proc io steps store = (machine, .running)) :
    (∃ ended after, step program machine = .ok ended after) ∨
      ∃ fault after, step program machine = .error (.execution fault) after := by
  obtain ⟨start, level, rest, grounds, tracks⟩ := exists_tracks_of_invoke compiles verified running
  obtain ⟨instruction, allowed, found, admitted, isCurrent⟩ :=
    tracks.exists_current compiles verified
  rcases tracks.step compiles verified grounds isCurrent found admitted with
    ⟨_, after, succeeded, -⟩ | ⟨error, after, failed, -, excuses⟩
  · exact .inl ⟨_, after, succeeded⟩
  · obtain ⟨fault, rfl, -⟩ := tracks.faults_of_excuses compiles wellFormed grounds found excuses
    exact .inr ⟨fault, after, failed⟩

/-- **A mismatch surfaces** as a fault of the execution, or as a null frame. -/
theorem surfaces_of_mismatch (compiles : Compiles module program) (wellFormed : module.WellFormed)
    (verified : verifyModule module = .ok ()) (sized : store.Sized)
    (running : invoke program proc io steps store = (machine, .running))
    {instruction : Instruction} {pc : Nat}
    (isCurrent : current program machine = .ok (instruction, pc))
    (mismatch : ¬ machine.Matches instruction) :
    (∃ fault after, step program machine = .error (.execution fault) after) ∨
      ∃ dst src slot frames after, instruction = .ldr dst src slot ∧
        step program machine = .ok false after ∧
        after.registers.framesOf dst = none :: frames := by
  have sizedMachine := sized_of_invoke sized program proc io steps
  rw [running] at sizedMachine
  rcases step_cases_of_invoke compiles wellFormed verified running with
    ⟨ended, after, stepped⟩ | faults
  · rw [step_eq isCurrent] at stepped ⊢
    obtain ⟨outcome, middle, executed, moved⟩ := bind_apply_eq_ok.mp stepped
    -- an instruction that succeeds without variables that go together has made a frame null
    rcases matches_of_execute sizedMachine executed with
      found | ⟨dst, src, slot, frames, rfl, rfl, isNull⟩
    · exact absurd found mismatch
    · obtain ⟨same, rfl⟩ := sameData_of_moveOn_next moved
      rw [← same.registers] at isNull
      exact .inr ⟨dst, src, slot, frames, after, rfl, stepped, isNull⟩
  · exact .inl faults

end

end Machine

open Machine

/-- **Data access slips in sums only.** After every history, variables are as large as their layouts
say. Over whatever store of such variables a module that a builder has given out is called, with an
argument that is allowed: the call with direct access does what the call without does if the sums of
offsets and widths are words, and slips in the first that is none; all of them are words unless some
variable has elements larger than those of types. Variables are as large as their layouts say after
every step, and the call ends in no other error than a fault of its execution. Where an instruction
finds variables that are too narrow for it or have other numbers of slots, it ends in such a fault,
or makes a frame null. -/
theorem slips_are_overflows {builder rest : Builder} {id : ModuleId} {module : Module}
    (reached : builder.Reachable) (finished : Builder.finish id builder = .ok module rest)
    {maxCallDepth : Nat} {before compiled : Store} {program : Program}
    (compile : Program.compile module maxCallDepth before = .ok program compiled) :
    (∀ turns host, History turns host → host.store.Sized) ∧
    ∀ store proc io entry, Store.Sized store → checkCall program proc io store = .ok entry →
      ∀ steps,
        (AddsUpAlong program (fun taken => invoke program proc io taken store) steps →
          Abrupt.invoke program proc io steps store =
            .ok (invoke program proc io steps store)) ∧
        (¬ AddsUpAlong program (fun taken => invoke program proc io taken store) steps →
          ∃ left right, UInt64.size ≤ left + right ∧
            Abrupt.invoke program proc io steps store = .error (.overflow left right)) ∧
        (store.Narrow →
          AddsUpAlong program (fun taken => invoke program proc io taken store) steps) ∧
        (invoke program proc io steps store).1.store.Sized ∧
        (invoke program proc io steps store).2.Orderly ∧
        ∀ machine instruction pc, invoke program proc io steps store = (machine, .running) →
          current program machine = .ok (instruction, pc) → ¬ machine.Matches instruction →
          (∃ fault after, step program machine = .error (.execution fault) after) ∨
          ∃ dst src slot frames after, instruction = .ldr dst src slot ∧
            step program machine = .ok false after ∧
            after.registers.framesOf dst = none :: frames := by
  obtain ⟨verified, rfl, -⟩ := Builder.finish_eq_ok.mp finished
  have wellFormed := reached.wellFormed.module
  have compiles : Compiles builder.module program := (compiles_of_compile compile).1.ofId
  refine ⟨fun _ _ history => history.sized, ?_⟩
  intro store proc io entry sized allowed steps
  obtain ⟨same, slips⟩ := Abrupt.invoke_spec sized program proc io steps
  refine ⟨same, slips, fun narrow => addsUpAlong_of_narrow compiles narrow proc io steps,
    sized_of_invoke sized program proc io steps,
    orderly_of_checkCall compiles wellFormed verified allowed steps, ?_⟩
  intro machine instruction pc running isCurrent mismatch
  exact surfaces_of_mismatch compiles wellFormed verified sized running isCurrent mismatch

namespace Samples

/-- The calls that build a module which opens a box: it is called with a box for eight bytes, and
loads the bytes in the box into a register. -/
def openingCalls : List Builder.Call :=
  [.varType 1 8, .varType 1 0, .ownedSlot ⟨2⟩ ⟨1⟩, .reg ⟨2⟩ 0 Flags.empty,
    .reg ⟨1⟩ 0 RegFlags.nonFixedRef, .reg ⟨1⟩ 0 Flags.empty, .procType entryFlags (reg 1),
    .proc Flags.empty ⟨0⟩, .instruction entry (.alsr (reg 2)),
    .instruction entry (.ldr (reg 2) (reg 1) 0), .instruction entry (.als (reg 3)),
    .instruction entry (.ldb (reg 3) (reg 2) 0), .instruction entry (.frsl 2),
    .instruction entry .ret]

/-- A builder after these calls. -/
def openingBuilder : Builder := openingCalls.foldl Builder.Call.perform Builder.initial

/-- A box from elsewhere, where its slot is for one byte, and the byte in it. -/
def foreignBox : Store :=
  (Slots.empty.insert (Variable.zeroed ⟨⟨1⟩, ⟨some 1, 1, #[], #[]⟩⟩ 1)).insert
    ((Variable.zeroed ⟨⟨2⟩, ⟨some 1, 0, #[⟨1⟩], #[]⟩⟩ 1).putOwnedRef 0 0 (some 0))

end Samples

/-- A box from elsewhere is allowed, and there is no slip in looking for eight bytes where there is
one, but a fault. -/
theorem foreignBox_faults : ∃ program compiled,
    Program.compile Samples.openingBuilder.module 10 Slots.empty = .ok program compiled ∧
    Abrupt.invoke program Samples.entry 1 10 Samples.foreignBox =
      .ok (invoke program Samples.entry 1 10 Samples.foreignBox) ∧
    (invoke program Samples.entry 1 10 Samples.foreignBox).1.store.Sized ∧
    (invoke program Samples.entry 1 10 Samples.foreignBox).2 =
      .failed (.execution (.byteRange (Samples.reg 2) 0 8 1)) := by
  have verified : verifyModule Samples.openingBuilder.module = .ok () :=
    toOption_eq_some.mp (by decide +kernel)
  have finished : Builder.finish ModuleId.nil Samples.openingBuilder =
      .ok Samples.openingBuilder.module Builder.initial :=
    Builder.finish_eq_ok.mpr ⟨verified, by decide +kernel, rfl⟩
  have faults : ((Program.compile Samples.openingBuilder.module 10).run' Slots.empty).any
      fun program => (checkCall program Samples.entry 1 Samples.foreignBox).toOption.isSome &&
        decide ((invoke program Samples.entry 1 10 Samples.foreignBox).2 =
          .failed (.execution (.byteRange (Samples.reg 2) 0 8 1))) := by decide +kernel
  obtain ⟨program, ran, faults⟩ := (Option.any_eq_true _ _).mp faults
  obtain ⟨compiled, compile⟩ := exists_of_run' ran
  obtain ⟨allowed, failed⟩ := Bool.and_eq_true_iff.mp faults
  obtain ⟨entry, allowed⟩ := Option.isSome_iff_exists.mp allowed
  have sized : Store.Sized Samples.foreignBox := by
    refine Store.Sized.insert (Store.Sized.insert ?_ (Variable.sized_zeroed _ _))
      ((Variable.sized_zeroed _ _).putOwnedRef 0 0 (some 0))
    intro id var found
    rw [Slots.get?_empty] at found
    cases found
  have narrow : Store.Narrow Samples.foreignBox := by
    refine Store.Narrow.insert (Store.Narrow.insert ?_ (by decide)) (by decide)
    intro id var found
    rw [Slots.get?_empty] at found
    cases found
  obtain ⟨same, -, adds, kept, -⟩ := (slips_are_overflows (Builder.Reachable.initial.calls _)
    finished compile).2 _ _ _ _ sized (toOption_eq_some.mp allowed) 10
  exact ⟨program, compiled, compile, same (adds narrow), kept, of_decide_eq_true failed⟩

/-! ### Variables that pass for others -/

namespace Samples

/-- The identity of the module that opens cupboards. -/
def opener : ModuleId := ⟨6⟩

/-- Drawers: eight bytes, and a slot for a word. -/
def drawer : VarTypeId := ⟨1⟩

/-- Cupboards with a slot for a drawer. -/
def cupboard : VarTypeId := ⟨2⟩

/-- The second entry point of the opener. -/
def copying : ProcId := ⟨1⟩

/-- The calls that build the opener. It is called with a cupboard, and opens the drawer in it. Its
first entry point loads the second half of sixteen bytes into the drawer, the second one puts a copy
of the drawer in its place. -/
def openerCalls : List Builder.Call :=
  [.varType 1 8, .ownedSlot drawer VarTypeId.word, .varType 1 0, .ownedSlot cupboard drawer,
    .varType 1 16, .reg cupboard 0 Flags.empty, .reg drawer 0 RegFlags.nonFixedRef,
    .reg ⟨3⟩ 0 Flags.empty, .reg drawer 0 Flags.empty, .reg VarTypeId.word 0 Flags.empty,
    .procType entryFlags (reg 1), .proc Flags.empty ⟨0⟩, .proc Flags.empty ⟨0⟩] ++
  [.alsr (reg 2), .ldr (reg 2) (reg 1) 0, .als (reg 3), .ldb (reg 2) (reg 3) 8, .frsl 2,
    .ret].map (.instruction entry) ++
  [.alsr (reg 2), .ldr (reg 2) (reg 1) 0, .als (reg 4), .als (reg 5), .lde (reg 4) (reg 2) (reg 5),
    .str (reg 1) 0 (reg 4), .frsl 3, .ret].map (.instruction copying)

/-- The opener is built, registered and compiled, and a cupboard is made for it. Into its slot goes
a variable that passes for a drawer. -/
def furnishing (shape : Shape) (count : Nat) : List Host.Request :=
  [.newRegistry (.interpreter 10), .newBuilder 0] ++ openerCalls.map (.build 0) ++
    [.create 0 opener, .newHandle 0 opener, .ask (.handle 0) .unpack, .newVariable 0 cupboard 1,
      .newVar ⟨drawer, shape⟩ count, .setOwnedRef 0 0 0 (some 1)]

/-- A drawer without elements, which would be as large as a word can say. -/
def endless : Shape := ⟨none, UInt64.ofNat (UInt64.size - 1), #[], #[]⟩

/-- A drawer with a slot for something else than a word. -/
def refitted : Shape := ⟨some 1, 8, #[⟨3⟩], #[]⟩

end Samples

/-- Both entry points of one module are called with a cupboard in which there is a variable from
elsewhere. The first call slips, since the width of a variable without elements takes the offset
beyond all words. The second call copies slots over slots of another kind, without a fault. -/
theorem stretching_slips :
    (∃ turns host module program entry,
      advance (Samples.furnishing Samples.endless 0) [] Host.empty = some (turns, host) ∧
      host.stage 0 Samples.opener = .compiled module program ∧
      checkCall program Samples.entry 0 host.store = .ok entry ∧
      Abrupt.invoke program Samples.entry 0 4 host.store = .error (.overflow 8 (UInt64.size - 1))) ∧
    ∃ turns host module program machine target source after,
      advance (Samples.furnishing Samples.refitted 1) [] Host.empty = some (turns, host) ∧
      host.stage 0 Samples.opener = .compiled module program ∧
      invoke program Samples.copying 0 4 host.store = (machine, .running) ∧
      current program machine =
        .ok (.lde (Samples.reg 4) (Samples.reg 2) (Samples.reg 5), 4) ∧
      machine.named (Samples.reg 4) = .ok target ∧ machine.named (Samples.reg 2) = .ok source ∧
      target.2.layout.sameShape source.2.layout = false ∧
      step program machine = .ok false after ∧
      (invoke program Samples.copying 0 8 host.store).2 = .returned := by
  have slips : (advance (Samples.furnishing Samples.endless 0) [] Host.empty).any fun result =>
      (result.2.stage 0 Samples.opener).program?.any fun program =>
        (checkCall program Samples.entry 0 result.2.store).toOption.isSome &&
        decide (Abrupt.invoke program Samples.entry 0 4 result.2.store =
          .error (.overflow 8 (UInt64.size - 1))) := by decide +kernel
  have copies : (advance (Samples.furnishing Samples.refitted 1) [] Host.empty).any fun result =>
      (result.2.stage 0 Samples.opener).program?.any fun program =>
        let state := invoke program Samples.copying 0 4 result.2.store
        state.2 = .running &&
        decide ((current program state.1).toOption =
          some (.lde (Samples.reg 4) (Samples.reg 2) (Samples.reg 5), 4)) &&
        ((state.1.named (Samples.reg 4)).toOption.any fun target =>
          (state.1.named (Samples.reg 2)).toOption.any fun source =>
            !target.2.layout.sameShape source.2.layout) &&
        decide ((step program).run' state.1 = some false) &&
        decide ((invoke program Samples.copying 0 8 result.2.store).2 = .returned) := by
    decide +kernel
  constructor
  · obtain ⟨⟨turns, host⟩, advanced, slips⟩ := (Option.any_eq_true _ _).mp slips
    obtain ⟨program, isProgram, slips⟩ := (Option.any_eq_true _ _).mp slips
    obtain ⟨module, isStage⟩ := Stage.program?_eq_some.mp isProgram
    obtain ⟨allowed, slips⟩ := Bool.and_eq_true_iff.mp slips
    obtain ⟨entry, allowed⟩ := Option.isSome_iff_exists.mp allowed
    exact ⟨turns, host, module, program, entry, advanced, isStage, toOption_eq_some.mp allowed,
      of_decide_eq_true slips⟩
  · obtain ⟨⟨turns, host⟩, advanced, copies⟩ := (Option.any_eq_true _ _).mp copies
    obtain ⟨program, isProgram, copies⟩ := (Option.any_eq_true _ _).mp copies
    obtain ⟨module, isStage⟩ := Stage.program?_eq_some.mp isProgram
    simp only [Bool.and_eq_true, decide_eq_true_eq] at copies
    obtain ⟨⟨⟨⟨running, isCurrent⟩, differ⟩, stepped⟩, returned⟩ := copies
    obtain ⟨target, isTarget, differ⟩ := (Option.any_eq_true _ _).mp differ
    obtain ⟨source, isSource, differ⟩ := (Option.any_eq_true _ _).mp differ
    obtain ⟨after, stepped⟩ := exists_of_run' stepped
    exact ⟨turns, host, module, program, _, target, source, after, advanced, isStage,
      Prod.ext rfl running, toOption_eq_some.mp isCurrent, toOption_eq_some.mp isTarget,
      toOption_eq_some.mp isSource, Bool.not_eq_true' _ ▸ differ, stepped, returned⟩

end ScopeMachine
