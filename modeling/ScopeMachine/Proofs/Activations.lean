import ScopeMachine.Proofs.Partition

/-! # Activations of quicksort

An activation of `quicksort` opens a scope for each of its words and for the array, and before it
calls itself also one for a fresh argument. It closes them all before it returns.

* `Called` says that a machine has just entered `quicksort`, and `Called.open` takes it to where all
  scopes are open;
* `Setting.At.openArgument` says that a fresh argument takes the place of the activation's own;
* `exists_close` and `exists_closeArgument` close the scopes again;
* `step_call` and `step_return` say what a call and a return do to the activations. -/

namespace ScopeMachine

open Machine

/-- Changing the frames of a register twice. -/
theorem RegisterFile.modifyFrames_modifyFrames (file : RegisterFile) (reg : RegId)
    (first second : List Frame → List Frame) :
    (file.modifyFrames reg first).modifyFrames reg second =
      file.modifyFrames reg fun frames => second (first frames) := by
  unfold modifyFrames
  congr 1
  apply Array.ext_getElem?
  intro index
  simp only [Array.getElem?_modify]
  by_cases same : reg.index = index <;> simp [same, Function.comp_def]

namespace Samples

/-! ### Opening the scopes -/

/-- The local words, in the order in which their scopes are opened. -/
def Local.all : List Local := [.lo, .hi, .i, .j, .piv, .x, .y]

/-- The scopes of the first local words, the most recent first. -/
def opened (count : Nat) : Scopes := ((Local.all.take count).map Local.reg).reverse

/-- The index of a local word is its place in the order. -/
theorem index_of_getElem?_all {count : Nat} {name : Local} (found : Local.all[count]? = some name) :
    name.index = count := by
  obtain ⟨inside, rfl⟩ := List.getElem?_eq_some_iff.mp found
  have small : count < 7 := inside
  match count, small with
  | 0, _ | 1, _ | 2, _ | 3, _ | 4, _ | 5, _ | 6, _ => rfl

/-- The code opens the scopes in this order. -/
theorem fetch_open {count : Nat} {name : Local} (found : Local.all[count]? = some name) :
    sortCode[count]? = some (.als name.reg) := by
  rw [← index_of_getElem?_all found]
  cases name <;> rfl

/-- One more scope. -/
theorem opened_succ {count : Nat} {name : Local} (found : Local.all[count]? = some name) :
    opened (count + 1) = name.reg :: opened count := by
  unfold opened
  rw [List.take_add_one, found]
  simp

/-- Local words have registers of their own. -/
theorem reg_inj {left right : Local} (same : left.reg = right.reg) : left = right :=
  Local.index_inj (Nat.add_right_cancel (congrArg RegId.index same))

/-- The scopes of some local words are open. -/
structure Opening (start : Machine) (rest : List Activation) (count : Nat) (machine : Machine) :
    Prop where
  /-- The activation has opened them. -/
  calls : machine.calls.activations = ⟨entry, count, opened count⟩ :: rest
  /-- Nothing else has happened to the registers. -/
  above : Above start.registers machine.registers (opened count)
  /-- The registers name fresh variables. -/
  frames : ∀ name : Local, name.index < count →
    (machine.registers.framesOf name.reg).head? = some (some (start.store.next + name.index))
  /-- The fresh variables are zero. -/
  vars : ∀ name : Local, name.index < count →
    machine.store.get? (start.store.next + name.index) = some (wordVar 0)
  /-- All other variables are as they were. -/
  kept : ∀ {id : Nat}, id < start.store.next → machine.store.get? id = start.store.get? id
  /-- No other identities have been given out. -/
  next : machine.store.next = start.store.next + count

section
variable {id : ModuleId} {depth : Nat} {start machine : Machine} {rest : List Activation}

/-- One more scope is opened. -/
theorem Opening.step {count : Nat} {name : Local} (opening : Opening start rest count machine)
    (size : start.registers.byReg.size = 10) (found : Local.all[count]? = some name) :
    ∃ after, Machine.step (sortProgram id depth) machine = .ok false after ∧
      Opening start rest (count + 1) after := by
  have isCount := index_of_getElem?_all found
  have declared : (sortProgram id depth).reg name.reg = .ok wordSlot := by cases name <;> rfl
  have has : machine.registers.Has name.reg :=
    has_of_above opening.above size (Nat.add_lt_add_right name.index_lt 3)
  have executed := bind_next (openFresh_apply opening.calls declared has)
  have callsOpen : (machine.calls.modifyTop (·.openScope name.reg)).activations =
      ⟨entry, count, name.reg :: opened count⟩ :: rest := by
    rw [CallStack.activations_modifyTop, opening.calls]
    rfl
  obtain ⟨after, stepped, same, calls⟩ :=
    exists_step id depth opening.calls (fetch_open found) executed callsOpen rfl
  refine ⟨after, stepped, ?_, ?_, ?_, ?_, ?_, ?_⟩
  · rw [opened_succ found]
    exact calls
  · rw [opened_succ found, same.registers]
    exact opening.above.push has _
  · intro other before
    rw [same.registers]
    dsimp only
    rw [RegisterFile.framesOf_modifyFrames has]
    by_cases isName : other = name
    · subst isName
      rw [if_pos rfl, opening.next, isCount]
      rfl
    · rw [if_neg fun equal => isName (reg_inj equal)]
      refine opening.frames other ?_
      have : other.index ≠ name.index := fun equal => isName (Local.index_inj equal)
      omega
  · intro other before
    rw [same.store]
    dsimp only
    rw [Slots.get?_insert, opening.next, fresh_wordSlot]
    by_cases isName : other.index = count
    · rw [if_pos (by rw [isName])]
    · rw [if_neg (by omega)]
      exact opening.vars other (by omega)
  · intro old before
    rw [same.store]
    dsimp only
    rw [Slots.get?_insert, opening.next, if_neg (by omega)]
    exact opening.kept before
  · rw [same.store]
    dsimp only
    rw [Slots.next_insert, opening.next]
    rfl

/-- The scopes of the local words are opened one after the other. -/
theorem exists_opening (id : ModuleId) (depth : Nat)
    (calls : start.calls.activations = Activation.start entry :: rest)
    (size : start.registers.byReg.size = 10) {count : Nat} (atMost : count ≤ 7) :
    ∃ machine, Runs (sortProgram id depth) start machine ∧ Opening start rest count machine := by
  induction count with
  | zero =>
      refine ⟨start, .refl, calls, Above.refl _, ?_, ?_, fun _ => rfl, rfl⟩
      · intro name before
        cases before
      · intro name before
        cases before
  | succ count ih =>
      obtain ⟨middle, ran, opening⟩ := ih (Nat.le_of_succ_le atMost)
      have inside : count < Local.all.length := atMost
      obtain ⟨after, stepped, further⟩ := opening.step size (List.getElem?_eq_getElem inside)
      exact ⟨after, ran.tail stepped, further⟩

/-- The scopes of the local words and of the array, the most recent first. -/
def ownScopes : Scopes := arrayReg :: opened 7

/-- A machine has just entered `quicksort`. -/
structure Called (array argument : Nat) (words bounds : List Int64) (rest : List Activation)
    (machine : Machine) : Prop where
  /-- The activation is at its first instruction. -/
  calls : machine.calls.activations = Activation.start entry :: rest
  /-- The register file is that of the program. -/
  size : machine.registers.byReg.size = 10
  /-- The register for the argument names it. -/
  frame : (machine.registers.framesOf argsReg).head? = some (some argument)
  /-- The argument refers to the array. -/
  argument : machine.store.get? argument = some (argsVar bounds (some array))
  /-- The array holds the words. -/
  array : machine.store.get? array = some (arrayVar words)
  /-- The argument holds two positions. -/
  two : bounds.length = 2

/-- The locals of an activation that has just opened its scopes. -/
def Locals.initial (words bounds : List Int64) : Locals := ⟨fun _ => 0, words, bounds⟩

section
variable {array argument : Nat} {words bounds : List Int64}

/-- The array is bound to its register. -/
theorem Called.bindArray (called : Called array argument words bounds rest start)
    (opening : Opening start rest 7 machine) :
    ∃ after, Runs (sortProgram id depth) machine after ∧
      after.store = machine.store ∧
      after.registers = machine.registers.modifyFrames arrayReg (some array :: ·) ∧
      after.calls.activations = ⟨entry, 9, ownScopes⟩ :: rest := by
  have has : machine.registers.Has arrayReg := has_of_above opening.above called.size (by decide)
  have callsOpen : (machine.calls.modifyTop (·.openScope arrayReg)).activations =
      ⟨entry, 7, ownScopes⟩ :: rest := by
    rw [CallStack.activations_modifyTop, opening.calls]
    rfl
  obtain ⟨middle, opens, same, calls⟩ := exists_step id depth opening.calls rfl
    (bind_next (openScope_apply opening.calls has none)) callsOpen rfl
  have frames : ∀ reg, middle.registers.framesOf reg =
      if reg = arrayReg then none :: machine.registers.framesOf arrayReg
      else machine.registers.framesOf reg := by
    intro reg
    rw [same.registers]
    exact RegisterFile.framesOf_modifyFrames has _ reg
  -- no scope of the argument has been opened, so its register is as it was on entry
  have argumentFrame : (middle.registers.framesOf argsReg).head? = some (some argument) := by
    rw [frames, if_neg (by decide), opening.above.framesOf_of_not_mem (by decide)]
    exact called.frame
  have argumentVar : middle.store.get? argument = some (argsVar bounds (some array)) := by
    rw [same.store, ← called.argument]
    exact opening.kept (Slots.lt_next_of_get? called.argument)
  obtain ⟨others, top⟩ := List.head?_eq_some_iff.mp argumentFrame
  have named : middle.named argsReg = .ok (argument, argsVar bounds (some array)) := by
    rw [named_eq top, argumentVar]
  obtain ⟨after, loads, sameAfter, callsAfter⟩ := exists_step id depth calls rfl
    (bind_next (loadRef_apply named rfl ((frames arrayReg).trans (if_pos rfl)))) calls rfl
  refine ⟨after, .tail (.single opens) loads, ?_, ?_, callsAfter⟩
  · rw [sameAfter.store, same.store]
  · rw [sameAfter.registers, same.registers]
    exact RegisterFile.modifyFrames_modifyFrames _ _ _ _

/-- **Opening**: the scopes are open, the array is bound, and the positions are still to be
loaded. -/
theorem Called.open (called : Called array argument words bounds rest start) :
    ∃ machine, Runs (sortProgram id depth) start machine ∧
      Setting.At ⟨start, rest, array⟩ argument ownScopes 9 (Locals.initial words bounds)
        machine := by
  obtain ⟨middle, ran, opening⟩ := exists_opening id depth called.calls called.size (Nat.le_refl 7)
  obtain ⟨machine, further, store, registers, calls⟩ := called.bindArray opening
  have old : argument < start.store.next := Slots.lt_next_of_get? called.argument
  have older : array < start.store.next := Slots.lt_next_of_get? called.array
  have has : middle.registers.Has arrayReg := has_of_above opening.above called.size (by decide)
  refine ⟨machine, ran.trans further, calls, ?_, ?_, ?_, called.two, older, .inl old, ?_, ?_⟩
  · rw [registers]
    exact opening.above.push has _
  · intro place
    rw [registers, RegisterFile.framesOf_modifyFrames has]
    cases place with
    | argument =>
        rw [if_neg (show Place.argument.reg ≠ arrayReg by decide)]
        exact (congrArg List.head? (opening.above.framesOf_of_not_mem
          (show argsReg ∉ opened 7 by decide))).trans called.frame
    | array => rfl
    | word name =>
        rw [if_neg (show (Place.word name).reg ≠ arrayReg by cases name <;> decide)]
        exact opening.frames name name.index_lt
  · intro place
    rw [store]
    cases place with
    | argument => exact (opening.kept old).trans called.argument
    | array => exact (opening.kept older).trans called.array
    | word name => exact opening.vars name name.index_lt
  · intro id before _ _
    rw [store]
    exact opening.kept before
  · exact Nat.le_of_eq (by rw [store, opening.next])

end

/-! ### Closing the scopes -/

/-- Closing the scopes leaves the registers as they were on entry. -/
theorem exists_close (calls : machine.calls.activations = ⟨entry, 40, ownScopes⟩ :: rest)
    (above : Above start.registers machine.registers ownScopes)
    (size : start.registers.byReg.size = 10) :
    ∃ after, Machine.step (sortProgram id depth) machine = .ok false after ∧
      after.calls.activations = ⟨entry, 41, []⟩ :: rest ∧
      after.registers = start.registers ∧ after.store = machine.store := by
  obtain ⟨closed, done, store, registers, callsClosed, -⟩ :=
    closeScopes_apply calls above (show 8 ≤ ownScopes.length by decide)
  obtain ⟨after, stepped, same, callsAfter⟩ :=
    exists_step id depth calls rfl (bind_next done) callsClosed rfl
  have bare : Above start.registers closed.registers [] := by
    rw [registers]
    exact above.popAll (show 8 ≤ ownScopes.length by decide)
  refine ⟨after, stepped, callsAfter, ?_, same.store.trans store⟩
  rw [same.registers]
  refine bare.eq_of_nil ?_
  rw [bare.size, size]
  decide

/-- Closing the scope of the argument. -/
theorem exists_closeArgument
    (calls : machine.calls.activations = ⟨entry, 39, argsReg :: ownScopes⟩ :: rest)
    (above : Above start.registers machine.registers (argsReg :: ownScopes)) :
    ∃ after, Machine.step (sortProgram id depth) machine = .ok false after ∧
      after.calls.activations = ⟨entry, 40, ownScopes⟩ :: rest ∧
      Above start.registers after.registers ownScopes ∧ after.store = machine.store := by
  have framed := above.framesOf_ne_nil_of_mem (List.mem_cons_self : argsReg ∈ argsReg :: ownScopes)
  have callsClosed : (machine.calls.modifyTop (·.closeScope argsReg)).activations =
      ⟨entry, 39, ownScopes⟩ :: rest := by
    rw [CallStack.activations_modifyTop, calls]
    rfl
  obtain ⟨after, stepped, same, callsAfter⟩ := exists_step id depth calls rfl
    (bind_next (closeScope_apply calls List.mem_cons_self framed)) callsClosed rfl
  refine ⟨after, stepped, callsAfter, ?_, same.store⟩
  rw [same.registers]
  have popped := above.pop (List.mem_cons_self : argsReg ∈ argsReg :: ownScopes)
  rwa [List.erase_cons_head] at popped

/-! ### The argument for the calls -/

/-- A fresh argument holds zeros, and refers to nothing. -/
theorem fresh_argsSlot :
    (⟨argsLayout, 1, Flags.empty, none⟩ : RegSlot).fresh = argsVar [0, 0] none := rfl

/-- Allocating a fresh argument and storing the array in its slot. -/
theorem Setting.At.allotArgument {setting : Setting} {argument : Nat} {locals : Locals}
    (here : setting.At argument ownScopes 27 locals machine)
    (size : setting.start.registers.byReg.size = 10) :
    ∃ after, Runs (sortProgram id depth) machine after ∧
      after.calls.activations = ⟨entry, 29, argsReg :: ownScopes⟩ :: setting.rest ∧
      after.registers = machine.registers.modifyFrames argsReg (some machine.store.next :: ·) ∧
      after.store = (machine.store.insert (argsVar [0, 0] none)).modify machine.store.next
        (·.putOwnedRef 0 0 (some setting.array)) := by
  have has : machine.registers.Has argsReg := has_of_above here.above size (by decide)
  have declared : (sortProgram id depth).reg argsReg = .ok ⟨argsLayout, 1, Flags.empty, none⟩ := rfl
  have callsOpen : (machine.calls.modifyTop (·.openScope argsReg)).activations =
      ⟨entry, 27, argsReg :: ownScopes⟩ :: setting.rest := by
    rw [CallStack.activations_modifyTop, here.calls]
    rfl
  obtain ⟨middle, opens, same, calls⟩ := exists_step id depth here.calls rfl
    (bind_next (openFresh_apply here.calls declared has)) callsOpen rfl
  have frames : ∀ reg, middle.registers.framesOf reg =
      if reg = argsReg then some machine.store.next :: machine.registers.framesOf argsReg
      else machine.registers.framesOf reg := by
    intro reg
    rw [same.registers]
    exact RegisterFile.framesOf_modifyFrames has _ reg
  have named : middle.named argsReg = .ok (machine.store.next, argsVar [0, 0] none) := by
    rw [named_eq ((frames argsReg).trans (if_pos rfl)), same.store]
    dsimp only
    rw [Slots.get?_insert, if_pos rfl, fresh_argsSlot]
  obtain ⟨others, top⟩ := List.head?_eq_some_iff.mp (here.frames .array)
  have arrayTop : middle.registers.framesOf arrayReg = some setting.array :: others := by
    rw [frames, if_neg (by decide)]
    exact top
  obtain ⟨after, stores, sameAfter, callsAfter⟩ := exists_step id depth calls rfl
    (bind_next (storeRef_apply named rfl arrayTop)) calls rfl
  refine ⟨after, .tail (.single opens) stores, callsAfter, ?_, ?_⟩
  · rw [sameAfter.registers]
    exact same.registers
  · rw [sameAfter.store]
    unfold withVar
    rw [same.store]
    rfl

/-- **A fresh argument** takes the place of the one that the activation was called with. -/
theorem Setting.At.openArgument {setting : Setting} {argument : Nat} {locals : Locals}
    (here : setting.At argument ownScopes 27 locals machine)
    (size : setting.start.registers.byReg.size = 10)
    (same : setting.start.store.get? argument = some (argsVar locals.bounds (some setting.array))) :
    ∃ after, Runs (sortProgram id depth) machine after ∧
      setting.At machine.store.next (argsReg :: ownScopes) 29 { locals with bounds := [0, 0] }
        after := by
  obtain ⟨after, ran, calls, registers, store⟩ := here.allotArgument size
  have has : machine.registers.Has argsReg := has_of_above here.above size (by decide)
  have next := here.next
  -- what was there before is there still
  have before : ∀ {id : Nat}, id ≠ machine.store.next →
      after.store.get? id = machine.store.get? id := by
    intro id differs
    rw [store, Slots.get?_modify, if_neg differs, Slots.get?_insert, if_neg differs]
  have known : ∀ {id : Nat} {var : Variable}, machine.store.get? id = some var →
      after.store.get? id = some var := by
    intro id var found
    rw [before (Nat.ne_of_lt (Slots.lt_next_of_get? found)), found]
  refine ⟨after, ran, calls, ?_, ?_, ?_, rfl, here.older, .inr next, ?_, ?_⟩
  · rw [registers]
    exact here.above.push has _
  · intro place
    rw [registers, RegisterFile.framesOf_modifyFrames has]
    cases place with
    | argument => rfl
    | array => exact here.frames .array
    | word name =>
        rw [if_neg (show (Place.word name).reg ≠ argsReg by cases name <;> decide)]
        exact here.frames (.word name)
  · intro place
    cases place with
    | argument =>
        show after.store.get? machine.store.next = _
        rw [store, Slots.get?_modify, if_pos rfl, Slots.get?_insert, if_pos rfl]
        rfl
    | array => exact known (here.vars .array)
    | word name => exact known (here.vars (.word name))
  · intro id old notArray _
    rw [before (by omega)]
    by_cases isArgument : id = argument
    · rw [isArgument, same]
      exact here.vars .argument
    · exact here.kept old notArray isArgument
  · rw [store, Slots.next_modify, Slots.next_insert]
    omega

/-! ### Calls and returns -/

/-- The procedure of `quicksort`. -/
theorem proc_sort (id : ModuleId) (depth : Nat) :
    (sortProgram id depth).procs[entry.index.toNat]? =
      some ⟨Flags.empty, true, argsReg, sortCode.toArray⟩ := rfl

/-- A call enters the procedure again, unless there are too many activations. -/
theorem step_call {pc : Nat} {scopes : Scopes}
    (calls : machine.calls.activations = ⟨entry, pc, scopes⟩ :: rest)
    (fetched : sortCode[pc]? = some (.call entry)) :
    (depth ≤ rest.length + 1 ∧ ∃ after, Machine.step (sortProgram id depth) machine =
      .error (.execution (.callDepthExceeded depth)) after) ∨
    ∃ after, Machine.step (sortProgram id depth) machine = .ok false after ∧
      SameData machine after ∧
      after.calls.activations = Activation.start entry :: ⟨entry, pc + 1, scopes⟩ :: rest := by
  let moved : Machine :=
    { machine with calls := machine.calls.modifyTop fun top => { top with pc := pc + 1 } }
  have callsMoved : moved.calls.activations = ⟨entry, pc + 1, scopes⟩ :: rest := by
    show machine.calls.activations.modifyHead _ = _
    rw [calls]
    rfl
  have depthMoved : moved.calls.depth = rest.length + 1 := by
    rw [moved.calls.depth_eq, callsMoved]
    rfl
  have enters : Machine.step (sortProgram id depth) machine =
      (enter (sortProgram id depth) entry >>= fun _ => get >>= fun machine =>
        pure machine.calls.isEmpty : Exec Bool) moved := by
    rw [step_eq (current_eq calls fetched)]
    show (updateTop (fun top => { top with pc := pc + 1 }) >>= fun _ =>
      enter (sortProgram id depth) entry >>= fun _ => get >>= fun machine =>
        pure machine.calls.isEmpty : Exec Bool) machine = _
    rw [bind_apply, updateTop_apply calls]
  by_cases full : depth ≤ moved.calls.depth
  · refine .inl ⟨depthMoved ▸ full, moved, ?_⟩
    rw [enters, bind_apply, enter_of_full entry full]
    rfl
  · obtain ⟨after, done, same, pushed⟩ := exists_enter full (proc_sort id depth)
    have callsAfter : after.calls.activations =
        Activation.start entry :: ⟨entry, pc + 1, scopes⟩ :: rest := by
      rw [pushed, ← callsMoved]
      rfl
    refine .inr ⟨after, ?_, ⟨same.store, same.registers⟩, callsAfter⟩
    rw [enters, bind_apply, done]
    show EStateM.Result.ok after.calls.isEmpty after = _
    unfold CallStack.isEmpty
    rw [callsAfter]
    rfl

/-- A return leaves the innermost activation of `quicksort`. -/
theorem step_return (calls : machine.calls.activations = ⟨entry, 41, []⟩ :: rest) :
    ∃ after, Machine.step (sortProgram id depth) machine = .ok rest.isEmpty after ∧
      SameData machine after ∧ after.calls.activations = rest :=
  exists_return (current_eq calls rfl) (proc_sort id depth) calls

end

end Samples

end ScopeMachine
