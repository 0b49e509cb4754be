import ScopeMachine.Proofs.Execution

/-! # What instructions do to frames and scopes

Instructions that open, close or rebind frames change the register file and the scopes of the
innermost activation together.

* `Effect` says how both change, by the conduct of the instruction; `Effect.above` says that frames
  below those of the activation stay as they are;
* `Continues` describes one instruction that stays within its procedure;
* `execute_within` puts all such instructions together. -/

namespace ScopeMachine

/-! ### Effects -/

/-- How frames and open scopes change together. -/
inductive Effect : Conduct → RegisterFile → Scopes → RegisterFile → Scopes → Prop
  /-- Working on variables changes neither. -/
  | works {file : RegisterFile} {scopes : Scopes} : Effect .works file scopes file scopes
  /-- A frame and a scope are added. -/
  | opens {file : RegisterFile} {scopes : Scopes} {reg : RegId} (frame : Frame)
      (has : file.Has reg) :
      Effect (.opens reg) file scopes (file.modifyFrames reg (frame :: ·)) (reg :: scopes)
  /-- A frame and a scope are taken away. -/
  | closes {file : RegisterFile} {scopes : Scopes} {reg : RegId} :
      Effect (.closes reg) file scopes (file.modifyFrames reg List.tail) (scopes.erase reg)
  /-- The last scopes are taken away, with a frame for each. -/
  | closesLast {file : RegisterFile} {scopes : Scopes} {count : Nat} :
      Effect (.closesLast count) file scopes (file.popAll (scopes.take count)) (scopes.drop count)
  /-- A frame is bound to another variable. -/
  | rebinds {file : RegisterFile} {scopes : Scopes} {reg : RegId} (frame : Frame) :
      Effect (.rebinds reg) file scopes
        (file.modifyFrames reg fun frames => frame :: frames.tail) scopes

section
variable {conduct : Conduct} {entry file changed : RegisterFile} {scopes after : Scopes}

/-- What the machine does to the scopes is what the scope rules say. -/
theorem Effect.eq_of_allows {context : ScopeContext} {allowed : Scopes}
    (effect : Effect conduct file scopes changed after)
    (allows : conduct.Allows context scopes allowed) : after = allowed := by
  cases effect with
  | works => exact allows.symm
  | opens | closes | closesLast | rebinds => exact allows.2.symm

/-- **An activation changes its own frames only.** -/
theorem Effect.above {context : ScopeContext} (effect : Effect conduct file scopes changed after)
    (allows : conduct.Allows context scopes after) (above : Above entry file scopes) :
    Above entry changed after := by
  cases effect with
  | works => exact above
  | opens frame has => exact above.push has frame
  | closes => exact above.pop allows.1
  | closesLast => exact above.popAll allows.1
  | rebinds frame => exact above.rebind allows.1 frame

end

/-! ### Actions on the innermost activation -/

/-- Changing the innermost activation. -/
@[simp] theorem CallStack.activations_modifyTop (stack : CallStack)
    (change : Activation → Activation) :
    (stack.modifyTop change).activations = stack.activations.modifyHead change := rfl

namespace Machine

section
variable {machine : Machine} {activation : Activation} {rest : List Activation}

/-- The innermost activation of a machine that has one. -/
theorem top?_eq (top : machine.calls.activations = activation :: rest) :
    machine.calls.top? = some activation := by
  unfold CallStack.top?
  rw [top]
  rfl

/-- Changing the innermost activation, if there is one. -/
theorem updateTop_apply {calls : CallStack} (top : calls.activations = activation :: rest)
    (change : Activation → Activation) (store : Store) (file : RegisterFile)
    (events : List Event) :
    updateTop change ⟨store, file, calls, events⟩ =
      .ok () ⟨store, file, calls.modifyTop change, events⟩ := by
  have some : calls.isEmpty = false := by
    unfold CallStack.isEmpty
    rw [top]
    rfl
  unfold updateTop
  rw [get_bind_apply, some]
  rfl

/-- A successful action on the register file. -/
theorem onRegisters_eq_ok {α : Type} {action : Registers α} {value : α}
    {file changed : RegisterFile} (done : action file = .ok value changed) (store : Store)
    (calls : CallStack) (events : List Event) :
    onRegisters action ⟨store, file, calls, events⟩ =
      .ok value ⟨store, changed, calls, events⟩ := by
  simp only [onRegisters, done]

/-- A failed action on the register file. -/
theorem onRegisters_eq_error {α : Type} {action : Registers α} {error : Error}
    {file changed : RegisterFile} (failed : action file = .error error changed) (store : Store)
    (calls : CallStack) (events : List Event) :
    onRegisters action ⟨store, file, calls, events⟩ =
      .error error ⟨store, changed, calls, events⟩ := by
  simp only [onRegisters, failed]

/-- Opening a scope of a register that the file has. -/
theorem openScope_apply (top : machine.calls.activations = activation :: rest) {reg : RegId}
    (has : machine.registers.Has reg) (frame : Frame) :
    openScope reg frame machine = .ok ()
      { machine with
        registers := machine.registers.modifyFrames reg (frame :: ·)
        calls := machine.calls.modifyTop (·.openScope reg) } := by
  unfold openScope
  rw [bind_apply, onRegisters_eq_ok (Registers.push_apply has frame)]
  exact updateTop_apply top _ _ _ _

/-- A register that the file does not have gets no scope. -/
theorem openScope_apply_of_not_has {reg : RegId} (lacks : ¬ machine.registers.Has reg)
    (frame : Frame) : openScope reg frame machine = .error (.missing (.register reg)) machine := by
  unfold openScope
  rw [bind_apply, onRegisters_eq_error (Registers.push_apply_of_not_has lacks frame)]

/-- Closing a scope that the innermost activation has open. -/
theorem closeScope_apply (top : machine.calls.activations = activation :: rest) {reg : RegId}
    (opened : reg ∈ activation.scopes) (framed : machine.registers.framesOf reg ≠ []) :
    closeScope reg machine = .ok ()
      { machine with
        registers := machine.registers.modifyFrames reg List.tail
        calls := machine.calls.modifyTop (·.closeScope reg) } := by
  obtain ⟨frame, frames, topFrame⟩ := List.exists_cons_of_ne_nil framed
  unfold closeScope
  rw [get_bind_apply, top?_eq top]
  dsimp only
  rw [List.contains_iff_mem.mpr opened, if_neg (by decide), bind_apply, updateTop_apply top]
  dsimp only
  rw [discard_apply, onRegisters_eq_ok (Registers.pop_apply topFrame)]

/-- Closing the last scopes of the innermost activation. -/
theorem closeScopes_apply (top : machine.calls.activations = activation :: rest)
    {entry : RegisterFile} (above : Above entry machine.registers activation.scopes) {count : Nat}
    (enough : count ≤ activation.scopes.length) :
    ∃ after, closeScopes count machine = .ok () after ∧ after.store = machine.store ∧
      after.registers = machine.registers.popAll (activation.scopes.take count) ∧
      after.calls.activations =
        { activation with scopes := activation.scopes.drop count } :: rest ∧
      after.events = machine.events := by
  -- the loop closes the innermost scope first; `Above` says that a frame stands for each scope, so
  -- no round of it finds a register without one
  induction count generalizing machine activation with
  | zero => exact ⟨machine, rfl, rfl, rfl, top, rfl⟩
  | succ count ih =>
      obtain ⟨proc, pc, scopes⟩ := activation
      cases scopes with
      | nil => cases enough
      | cons reg scopes =>
          obtain ⟨frame, own, frames, -⟩ := above.exists_cons List.mem_cons_self
          have closed := above.pop List.mem_cons_self
          rw [List.erase_cons_head] at closed
          let middle : Machine :=
            { machine with
              registers := machine.registers.modifyFrames reg List.tail
              calls := machine.calls.modifyTop fun top => { top with scopes := top.scopes.tail } }
          have topMiddle : middle.calls.activations = ⟨proc, pc, scopes⟩ :: rest := by
            show machine.calls.activations.modifyHead _ = _
            rw [top]
            rfl
          obtain ⟨after, ran, store, registers, activations, events⟩ :=
            ih topMiddle closed (Nat.le_of_succ_le_succ enough)
          refine ⟨after, ?_, store, registers, activations, events⟩
          unfold closeScopes
          rw [get_bind_apply, top?_eq top]
          dsimp only
          rw [bind_apply, updateTop_apply top]
          dsimp only
          rw [bind_apply, discard_apply, onRegisters_eq_ok (Registers.pop_apply frames)]
          exact ran

end

/-! ### References after a change of frames -/

/-- Closing frames leaves only frames that were there. -/
theorem mem_framesOf_popAll {file : RegisterFile} {regs : List RegId} {reg : RegId} {frame : Frame}
    (member : frame ∈ (file.popAll regs).framesOf reg) : frame ∈ file.framesOf reg := by
  induction regs generalizing file with
  | nil => exact member
  | cons head regs ih =>
      have inHead : frame ∈ (file.modifyFrames head List.tail).framesOf reg := ih member
      rw [RegisterFile.framesOf_pop] at inHead
      by_cases same : reg = head
      · rw [if_pos same] at inHead
        rw [same]
        exact List.mem_of_mem_tail inHead
      · rwa [if_neg same] at inHead

/-- Frames that were there, and frames that lead to variables. -/
theorem Resolved.of_frames {before after : Machine} (resolved : before.Resolved)
    (owned : after.store.Resolves) (shapes : before.store.KeepsShapes after.store)
    (frames : ∀ {reg : RegId} {id : VarId}, some id ∈ after.registers.framesOf reg →
      some id ∈ before.registers.framesOf reg ∨ (after.store.get? id).isSome = true) :
    after.Resolved := by
  refine ⟨?_, owned⟩
  intro reg id member
  rcases frames member with old | new
  · exact shapes.isSome (resolved.frames old)
  · exact new

/-! ### Instructions within a procedure -/

/-- One instruction that stays within its procedure. -/
structure Continues (instruction : Instruction) (activation : Activation) (rest : List Activation)
    (before : Machine) (outcome : Outcome) (after : Machine) : Prop where
  /-- Control goes where the instruction leads. -/
  follows : outcome.Follows instruction activation.pc
  /-- Frames and scopes of the innermost activation change together. -/
  effect : ∃ scopes,
    Effect instruction.conduct before.registers activation.scopes after.registers scopes ∧
      after.calls.activations = { activation with scopes } :: rest
  /-- Nothing is reported. -/
  events : after.events = before.events
  /-- Variables keep their shapes. -/
  shapes : before.store.KeepsShapes after.store
  /-- References keep leading to variables. -/
  resolved : before.Resolved → after.Resolved
  /-- Null frames were there, or the instruction has put them there. -/
  nulls : ∀ {reg : RegId}, none ∈ after.registers.framesOf reg →
    none ∈ before.registers.framesOf reg ∨ instruction.nulls? = some reg

section
variable {machine : Machine} {activation : Activation} {rest : List Activation}
  {instruction : Instruction}

/-- Control goes on after an action that succeeds. -/
theorem bind_next {action : Exec Unit} {after : Machine} (done : action machine = .ok () after) :
    (action >>= fun _ => pure Outcome.next : Exec Outcome) machine = .ok .next after := by
  rw [bind_apply, done]
  rfl

/-- Working on variables looks at all register operands. -/
theorem accesses_of_works (works : instruction.conduct = .works) :
    instruction.accesses = instruction.registers := by
  cases instruction <;> first | rfl | cases works

/-- Opening a scope with a frame that leads to a variable. -/
theorem continues_open {reg : RegId} (frame : Frame)
    (top : machine.calls.activations = activation :: rest) (has : machine.registers.Has reg)
    (opens : instruction.conduct = .opens reg) (falls : instruction.isTerminator = false)
    {store : Store} (shapes : machine.store.KeepsShapes store)
    (owned : machine.store.Resolves → store.Resolves)
    (known : machine.Resolved → ∀ id, frame = some id → (store.get? id).isSome = true)
    (null : frame = none →
      none ∈ machine.registers.framesOf reg ∨ instruction.nulls? = some reg) :
    Continues instruction activation rest machine .next
      { machine with
        store
        registers := machine.registers.modifyFrames reg (frame :: ·)
        calls := machine.calls.modifyTop (·.openScope reg) } where
  follows := falls
  effect := by
    refine ⟨reg :: activation.scopes, ?_, ?_⟩
    · rw [opens]
      exact .opens frame has
    · rw [CallStack.activations_modifyTop, top]
      rfl
  events := rfl
  shapes := shapes
  resolved := by
    intro resolved
    refine resolved.of_frames (owned resolved.owned) shapes ?_
    intro other id member
    rw [RegisterFile.framesOf_modifyFrames has] at member
    by_cases same : other = reg
    · rw [if_pos same] at member
      rcases List.mem_cons.mp member with isNew | isOld
      · exact .inr (known resolved id isNew.symm)
      · exact .inl (same ▸ isOld)
    · rw [if_neg same] at member
      exact .inl member
  nulls := by
    intro other member
    rw [RegisterFile.framesOf_modifyFrames has] at member
    by_cases same : other = reg
    · subst same
      rw [if_pos rfl] at member
      rcases List.mem_cons.mp member with isNew | isOld
      · exact null isNew.symm
      · exact .inl isOld
    · rw [if_neg same] at member
      exact .inl member

/-- Opening a scope of a register that the file has. -/
theorem execute_opens (program : Program) {reg : RegId}
    (top : machine.calls.activations = activation :: rest)
    (sized : machine.registers.byReg.size = program.regs.size)
    (opens : instruction.conduct = .opens reg)
    (framed : ∀ reg ∈ instruction.accesses, machine.registers.framesOf reg ≠ [])
    (has : machine.registers.Has reg) :
    ∃ after, execute program instruction activation.pc machine = .ok .next after ∧
      Continues instruction activation rest machine .next after := by
  cases instruction with
  | als other | push other =>
      -- the frame leads to a variable that is allocated for it
      cases opens
      have inside : reg.index < program.regs.size := sized ▸ has
      let fresh := (program.regs[reg.index]).fresh
      have declared : program.reg reg = .ok (program.regs[reg.index]) := by
        unfold Program.reg
        rw [Array.getElem?_eq_getElem inside]
        rfl
      have opened : openFresh program reg machine = .ok ()
          { machine with
            store := machine.store.insert fresh
            registers := machine.registers.modifyFrames reg (some machine.store.next :: ·)
            calls := machine.calls.modifyTop (·.openScope reg) } := by
        unfold openFresh
        rw [bind_apply, inspect_apply, declared]
        let allocated : Machine := { machine with store := machine.store.insert fresh }
        have topAllocated : allocated.calls.activations = activation :: rest := top
        exact openScope_apply topAllocated has _
      refine ⟨_, ?_, continues_open (some machine.store.next) top has rfl rfl
        (Store.keepsShapes_insert machine.store fresh)
        (fun resolves => Store.resolves_insert resolves (RegSlot.bare_fresh _)) ?_ ?_⟩
      · exact bind_next opened
      · rintro - id ⟨⟩
        exact Store.isSome_get?_insert machine.store fresh
      · rintro ⟨⟩
  | alsr other | pushr other =>
      -- the frame is null
      cases opens
      refine ⟨_, ?_, continues_open none top has rfl rfl (Store.KeepsShapes.refl _) id ?_ ?_⟩
      · exact bind_next (openScope_apply top has none)
      · rintro - id ⟨⟩
      · exact fun _ => .inr rfl
  | pushh other =>
      -- the frame is a second one for the variable on top
      cases opens
      obtain ⟨frame, frames, topFrame⟩ :=
        List.exists_cons_of_ne_nil (framed reg List.mem_cons_self)
      have isTop : machine.registers.top reg = .ok frame := by
        unfold RegisterFile.top
        rw [RegisterFile.frames_eq_ok has, topFrame]
        rfl
      have opened : openAlias reg machine = openScope reg frame machine := by
        unfold openAlias
        rw [bind_apply, inspect_apply, isTop]
      refine ⟨_, ?_, continues_open frame top has rfl rfl (Store.KeepsShapes.refl _) id ?_ ?_⟩
      · exact bind_next (opened.trans (openScope_apply top has frame))
      · rintro resolved id rfl
        exact resolved.frames (topFrame ▸ List.mem_cons_self)
      · rintro rfl
        exact .inl (topFrame ▸ List.mem_cons_self)
  | _ => cases opens

/-- A register that the file does not have cannot be opened, and nothing happens. -/
theorem execute_opens_of_not_has (program : Program) {reg : RegId} (pc : Nat)
    (sized : machine.registers.byReg.size = program.regs.size)
    (opens : instruction.conduct = .opens reg)
    (framed : ∀ reg ∈ instruction.accesses, machine.registers.framesOf reg ≠ [])
    (lacks : ¬ machine.registers.Has reg) :
    execute program instruction pc machine = .error (.missing (.register reg)) machine := by
  cases instruction with
  | als other | push other =>
      cases opens
      have undeclared : program.reg reg = .error (.missing (.register reg)) := by
        unfold Program.reg
        rw [Array.getElem?_eq_none (sized ▸ Nat.le_of_not_lt lacks)]
        rfl
      have failed : openFresh program reg machine = .error (.missing (.register reg)) machine := by
        unfold openFresh
        rw [bind_apply, inspect_apply, undeclared]
      show (openFresh program reg >>= fun _ => pure Outcome.next : Exec Outcome) machine = _
      rw [bind_apply, failed]
  | alsr other | pushr other =>
      cases opens
      show (openScope reg none >>= fun _ => pure Outcome.next : Exec Outcome) machine = _
      rw [bind_apply, openScope_apply_of_not_has lacks]
  | pushh other =>
      -- it looks at the top frame, so the file has the register
      cases opens
      exact absurd (RegisterFile.has_of_framesOf_ne_nil (framed reg List.mem_cons_self)) lacks
  | _ => cases opens

/-- Frames after closing frames lead where they led. -/
theorem resolved_of_closing {after : Machine} (store : after.store = machine.store)
    (frames : ∀ {reg : RegId} {frame : Frame}, frame ∈ after.registers.framesOf reg →
      frame ∈ machine.registers.framesOf reg) (resolved : machine.Resolved) : after.Resolved := by
  refine resolved.of_frames ?_ ?_ fun member => .inl (frames member)
  · rw [store]
    exact resolved.owned
  · rw [store]
    exact Store.KeepsShapes.refl _

/-- Closing a scope that is open. -/
theorem execute_closes (program : Program) {reg : RegId} {entry : RegisterFile}
    (top : machine.calls.activations = activation :: rest)
    (above : Above entry machine.registers activation.scopes)
    (closes : instruction.conduct = .closes reg) (opened : reg ∈ activation.scopes) :
    ∃ after, execute program instruction activation.pc machine = .ok .next after ∧
      Continues instruction activation rest machine .next after := by
  have closed := closeScope_apply top opened (above.framesOf_ne_nil_of_mem opened)
  have falls : instruction.isTerminator = false := by
    cases instruction <;> first | rfl | cases closes
  let after : Machine :=
    { machine with
      registers := machine.registers.modifyFrames reg List.tail
      calls := machine.calls.modifyTop (·.closeScope reg) }
  -- closing one scope is closing a row of one
  have stays : ∀ {other : RegId} {frame : Frame}, frame ∈ after.registers.framesOf other →
      frame ∈ machine.registers.framesOf other := by
    intro other frame member
    have single : after.registers = machine.registers.popAll [reg] := rfl
    rw [single] at member
    exact mem_framesOf_popAll member
  refine ⟨after, ?_, falls, ⟨activation.scopes.erase reg, ?_, ?_⟩, rfl,
    Store.KeepsShapes.refl _, resolved_of_closing rfl stays, fun member => .inl (stays member)⟩
  · cases instruction with
    | frs other | pop other =>
        cases closes
        exact bind_next closed
    | _ => cases closes
  · rw [closes]
    exact .closes
  · show machine.calls.activations.modifyHead _ = _
    rw [top]
    rfl

/-- Closing the last scopes. -/
theorem execute_closesLast (program : Program) {count : Nat} {entry : RegisterFile}
    (top : machine.calls.activations = activation :: rest)
    (above : Above entry machine.registers activation.scopes)
    (closes : instruction.conduct = .closesLast count)
    (enough : count ≤ activation.scopes.length) :
    ∃ after, execute program instruction activation.pc machine = .ok .next after ∧
      Continues instruction activation rest machine .next after := by
  obtain ⟨after, closed, store, registers, activations, events⟩ :=
    closeScopes_apply top above enough
  have falls : instruction.isTerminator = false := by
    cases instruction <;> first | rfl | cases closes
  have stays : ∀ {reg : RegId} {frame : Frame}, frame ∈ after.registers.framesOf reg →
      frame ∈ machine.registers.framesOf reg := by
    intro reg frame member
    rw [registers] at member
    exact mem_framesOf_popAll member
  refine ⟨after, ?_, falls, ⟨activation.scopes.drop count, ?_, activations⟩, events, ?_,
    resolved_of_closing store stays, fun member => .inl (stays member)⟩
  · cases instruction with
    | frsl other | popl other =>
        cases closes
        exact bind_next closed
    | _ => cases closes
  · rw [closes, registers]
    exact .closesLast
  · rw [store]
    exact Store.KeepsShapes.refl _

/-- Binding the frame of an open scope to the referent in a slot. -/
theorem execute_rebinds (program : Program) {dst src : RegId} {slot : UInt32}
    {entry : RegisterFile} (top : machine.calls.activations = activation :: rest)
    (above : Above entry machine.registers activation.scopes) (opened : dst ∈ activation.scopes)
    (framed : machine.registers.framesOf src ≠ []) :
    (∃ after, execute program (.ldr dst src slot) activation.pc machine = .ok .next after ∧
      Continues (.ldr dst src slot) activation rest machine .next after) ∨
    ∃ error, execute program (.ldr dst src slot) activation.pc machine = .error error machine ∧
      machine.Faults [dst, src] error := by
  -- the slot is read before the frame is bound, so a slot that is not there changes nothing
  have look : (∃ frame, loadRef dst src slot.toNat machine =
        discard (onRegisters (Registers.rebind dst frame)) machine ∧
        (machine.Resolved → ∀ id, frame = some id → (machine.store.get? id).isSome = true)) ∨
      ∃ error, loadRef dst src slot.toNat machine = .error error machine ∧
        machine.Faults [dst, src] error := by
    unfold loadRef
    refine ReadsAt.cases (readsAt_inspect ((finds_named framed (by simp)).bind ?_))
    rintro ⟨id, source⟩ ⟨found, -⟩
    dsimp only
    split
    · exact finds_missingElement
    · refine finds_ok ?_
      intro resolved referent held
      obtain ⟨index, -, held⟩ := Option.bind_eq_some_iff.mp held
      exact resolved.owned found (Array.mem_of_getElem? (Option.join_eq_some_iff.mp held))
  obtain ⟨old, own, frames, -⟩ := above.exists_cons opened
  rcases look with ⟨frame, looked, known⟩ | ⟨error, failed, faults⟩
  · rw [discard_apply, onRegisters_eq_ok (Registers.rebind_apply frames frame)] at looked
    have has := RegisterFile.has_of_framesOf_eq_cons frames
    refine .inl ⟨_, bind_next looked, rfl, ⟨activation.scopes, .rebinds frame, top⟩, rfl,
      Store.KeepsShapes.refl _, ?_, ?_⟩
    · intro resolved
      refine resolved.of_frames resolved.owned (Store.KeepsShapes.refl _) ?_
      intro other id member
      rw [RegisterFile.framesOf_modifyFrames has] at member
      by_cases same : other = dst
      · rw [if_pos same] at member
        rcases List.mem_cons.mp member with isNew | isOld
        · exact .inr (known resolved id isNew.symm)
        · exact .inl (same ▸ List.mem_of_mem_tail isOld)
      · rw [if_neg same] at member
        exact .inl member
    · intro other member
      rw [RegisterFile.framesOf_modifyFrames has] at member
      by_cases same : other = dst
      · exact .inr (congrArg some same.symm)
      · rw [if_neg same] at member
        exact .inl member
  · refine .inr ⟨error, ?_, faults⟩
    show (loadRef dst src slot.toNat >>= fun _ => pure Outcome.next : Exec Outcome) machine = _
    rw [bind_apply, failed]

/-- Raising a fault raises some fault, and nothing else happens. -/
theorem execute_throw (program : Program) (pc : Nat)
    (framed : machine.registers.framesOf RegId.error ≠ []) :
    ∃ error, execute program .throw pc machine = .error error machine ∧
      machine.Faults [RegId.error] error := by
  rcases readsAt_readWord framed List.mem_cons_self with
    ⟨word, read, -⟩ | ⟨error, failed, faults⟩
  · refine ⟨.execution (.thrown word), ?_, faults_of_not_null fun reg isNull => by cases isNull⟩
    show (readWord RegId.error >>= fun word => throw (.execution (.thrown word)) : Exec Outcome)
      machine = _
    rw [bind_apply, read]
    rfl
  · refine ⟨error, ?_, faults⟩
    show (readWord RegId.error >>= fun word => throw (.execution (.thrown word)) : Exec Outcome)
      machine = _
    rw [bind_apply, failed]

/-- **Instructions within a procedure.** An instruction that the scope rules admit, on registers
that have frames, changes frames and scopes as its conduct says; or it fails with a fault and
changes nothing; or it wants to open a register that is not there. -/
theorem execute_within (program : Program) {context : ScopeContext} {allowed : Scopes}
    {entry : RegisterFile} (top : machine.calls.activations = activation :: rest)
    (above : Above entry machine.registers activation.scopes)
    (sized : machine.registers.byReg.size = program.regs.size)
    (stepped : activation.scopes.step context instruction = .ok allowed)
    (framed : ∀ reg ∈ instruction.accesses, machine.registers.framesOf reg ≠ [])
    (lands : instruction.isJump = true →
      ∃ target, instruction.jumpTarget? activation.pc = some target)
    (notCall : ∀ proc, instruction ≠ .call proc) (notRet : instruction ≠ .ret) :
    (∃ outcome after, execute program instruction activation.pc machine = .ok outcome after ∧
      Continues instruction activation rest machine outcome after) ∨
    ∃ error, execute program instruction activation.pc machine = .error error machine ∧
      (machine.Faults instruction.accesses error ∨
        ∃ reg, instruction.conduct = .opens reg ∧ ¬ machine.registers.Has reg) := by
  have allows := (Scopes.allows_of_step stepped).2
  cases conduct : instruction.conduct with
  | works =>
      rw [accesses_of_works conduct] at framed ⊢
      rcases worksAt_execute program conduct framed lands with
        ⟨outcome, after, done, works, follows⟩ | ⟨error, failed, faults⟩
      · refine .inl ⟨outcome, after, done, follows, ⟨activation.scopes, ?_, ?_⟩, works.events,
          works.shapes, works.resolved, ?_⟩
        · rw [conduct, works.registers]
          exact .works
        · rw [works.calls]
          exact top
        · intro reg member
          rw [works.registers] at member
          exact .inl member
      · exact .inr ⟨error, failed, .inl faults⟩
  | opens reg =>
      by_cases has : machine.registers.Has reg
      · obtain ⟨after, done, continues⟩ := execute_opens program top sized conduct framed has
        exact .inl ⟨.next, after, done, continues⟩
      · exact .inr ⟨_, execute_opens_of_not_has program _ sized conduct framed has,
          .inr ⟨reg, rfl, has⟩⟩
  | closes reg =>
      rw [conduct] at allows
      obtain ⟨after, done, continues⟩ := execute_closes program top above conduct allows.1
      exact .inl ⟨.next, after, done, continues⟩
  | closesLast count =>
      rw [conduct] at allows
      obtain ⟨after, done, continues⟩ := execute_closesLast program top above conduct allows.1
      exact .inl ⟨.next, after, done, continues⟩
  | rebinds reg =>
      rw [conduct] at allows
      -- `ldr` is the only instruction of this conduct; the next three cases are alike
      cases instruction with
      | ldr dst src slot =>
          cases conduct
          have framedSrc := framed src (List.mem_cons_of_mem _ List.mem_cons_self)
          rcases execute_rebinds program top above allows.1 framedSrc with
            ⟨after, done, continues⟩ | ⟨error, failed, faults⟩
          · exact .inl ⟨.next, after, done, continues⟩
          · exact .inr ⟨error, failed, .inl faults⟩
      | _ => cases conduct
  | throws =>
      cases instruction with
      | throw =>
          obtain ⟨error, failed, faults⟩ :=
            execute_throw program activation.pc (framed RegId.error List.mem_cons_self)
          exact .inr ⟨error, failed, .inl faults⟩
      | _ => cases conduct
  | calls proc =>
      cases instruction with
      | call other => exact absurd rfl (notCall other)
      | _ => cases conduct
  | returns =>
      cases instruction with
      | ret => exact absurd rfl notRet
      | _ => cases conduct

end

end Machine

end ScopeMachine
