import ScopeMachine.Proofs.Recursion

/-! # Calls of quicksort from outside

The module that `quicksort` builds, its executable form, and what a call of its entry point comes
to.

* `finish_quicksort_eq_ok` says what is finished after `quicksort`, and `compile_sortModule` what it
  is compiled to;
* `exists_called` says that a call from outside enters the procedure;
* `invoke_cases` says that it sorts the array that its argument refers to, or fails since it takes
  too many activations. -/

namespace ScopeMachine

open Machine

namespace Samples

/-! ### The module -/

/-- The description of the procedure. -/
def sortProc : ProcDef :=
  ⟨Flags.empty, ⟨0⟩, (Instruction.encodeAll sortCode).toArray, 42⟩

/-- The module that `quicksort` builds. -/
def sortModule (id : ModuleId) : Module where
  id := id
  vtypes := #[VarType.word, VarType.plain 0 8, argsVarType]
  ptypes := #[⟨entryFlags, argsReg⟩]
  regs := #[RegSpec.error, ⟨argsType, 1, Flags.empty, none⟩,
    ⟨arrayType, 0, RegFlags.nonFixedRef, none⟩, RegSpec.error, RegSpec.error, RegSpec.error,
    RegSpec.error, RegSpec.error, RegSpec.error, RegSpec.error]
  procs := #[sortProc]

/-- What `quicksort` builds. -/
theorem built?_quicksort : built? quicksort = some (sortModule ModuleId.nil) := by decide +kernel

/-- The module is verified. -/
theorem verify_sortModule : verifyModule (sortModule ModuleId.nil) = .ok () := by
  have verified : (verifyModule (sortModule ModuleId.nil)).isOk = true := by decide +kernel
  cases verifies : verifyModule (sortModule ModuleId.nil) with
  | error error =>
      rw [verifies] at verified
      cases verified
  | ok _ => rfl

/-- **What is finished after `quicksort`** is its module. -/
theorem finish_quicksort_eq_ok {id : ModuleId} {module : Module} {rest : Builder} :
    (quicksort >>= fun _ => Builder.finish id) Builder.initial = .ok module rest ↔
      module = sortModule id ∧ rest = Builder.initial :=
  finish_built_eq_ok built?_quicksort verify_sortModule

/-- Compiling the procedure. -/
theorem compileProc_sortProc (id : ModuleId) :
    Program.compileProc (sortModule id) sortProc =
      .ok ⟨Flags.empty, true, argsReg, sortCode.toArray⟩ := by
  have isType : (sortModule id).ptype? sortProc.ptype = some ⟨entryFlags, argsReg⟩ := rfl
  exact compileProc_encodeAll isType rfl

/-- **Compiling the module** allocates nothing. -/
theorem compile_sortModule (id : ModuleId) (depth : Nat) (store : Store) :
    Program.compile (sortModule id) depth store = .ok (sortProgram id depth) store := by
  refine compile_eq_ok.mpr
    ⟨(sortProgram id depth).regs.toList, (sortProgram id depth).procs.toList, rfl, ?_, rfl⟩
  show [sortProc].mapM _ = _
  rw [List.mapM_cons]
  exact bind_eq_ok.mpr ⟨_, compileProc_sortProc id, rfl⟩

/-! ### Calls -/

/-- The machine that is about to enter `quicksort`. -/
def poised (store : Store) (argument : VarId) : Machine :=
  ⟨store.insert wordSlot.fresh,
    ⟨#[[some store.next], [some argument], [], [], [], [], [], [], [], []]⟩, CallStack.empty, []⟩

section
variable {id : ModuleId} {depth array argument : Nat} {words : List Int64} {store : Store}

/-- A call with an argument of the right type is allowed, and enters the procedure. -/
theorem invoke_eq_run {bounds : List Int64} {referent : Option VarId}
    (found : store.get? argument = some (argsVar bounds referent)) (steps : Nat) :
    invoke (sortProgram id depth) entry argument steps store =
      run (sortProgram id depth) entry steps (poised store argument) := by
  have allowed : checkCall (sortProgram id depth) entry argument store =
      .ok ⟨Flags.empty, true, argsReg, sortCode.toArray⟩ := by
    unfold checkCall
    rw [found]
    rfl
  have prepared : prepare (sortProgram id depth) ⟨Flags.empty, true, argsReg, sortCode.toArray⟩
      argument (idle (sortProgram id depth) store) = .ok () (poised store argument) := rfl
  exact invoke_eq_of_prepared allowed prepared steps

/-- **A call from outside** enters the procedure if an activation is allowed at all. -/
theorem exists_called (room : ¬ depth ≤ 0)
    (isArgument : store.get? argument = some (argsVar (positions [] words) (some array)))
    (isArray : store.get? array = some (arrayVar words)) :
    ∃ entered, (∀ steps, invoke (sortProgram id depth) entry argument steps store =
        continueFor (sortProgram id depth) steps entered) ∧
      Called array argument ([] ++ words ++ []) (positions [] words) [] entered := by
  have roomPoised : ¬ (sortProgram id depth).maxCallDepth ≤ (poised store argument).calls.depth :=
    room
  obtain ⟨entered, enters, same, pushed⟩ := exists_enter roomPoised (proc_sort id depth)
  -- the storage of the error register is new, so the argument and the array are as they were
  have known : ∀ {id : Nat} {var : Variable}, store.get? id = some var →
      entered.store.get? id = some var := by
    intro id var found
    rw [same.store]
    show (store.insert wordSlot.fresh).get? id = _
    rw [Slots.get?_insert, if_neg (Nat.ne_of_lt (Slots.lt_next_of_get? found)), found]
  refine ⟨entered, fun steps => ?_, ?_, ?_, ?_, known isArgument, ?_, rfl⟩
  · rw [invoke_eq_run isArgument, run, enters]
  · rw [pushed]
    rfl
  · rw [same.registers]
    rfl
  · rw [same.registers]
    rfl
  · rw [List.nil_append, List.append_nil]
    exact known isArray

/-- **A call from outside sorts the array**, unless that takes too many activations. -/
theorem invoke_cases (id : ModuleId) (depth : Nat)
    (isArgument : store.get? argument = some (argsVar (positions [] words) (some array)))
    (isArray : store.get? array = some (arrayVar words)) (fits : words.length ≤ 2 ^ 32) :
    (∃ sorted machine, Ends (sortProgram id depth) argument store machine .returned ∧
      machine.store.get? array = some (arrayVar sorted) ∧ sorted.Perm words ∧
      sorted.Pairwise (· ≤ ·)) ∨
    (depth < max 1 words.length ∧ ∃ machine, Ends (sortProgram id depth) argument store machine
      (.failed (.execution (.callDepthExceeded depth)))) := by
  by_cases full : depth ≤ 0
  · -- not even the first activation is allowed
    refine .inr ⟨by omega, poised store argument, 0, fun steps _ => ?_⟩
    rw [invoke_eq_run isArgument, run, enter_of_full entry full]
    rfl
  obtain ⟨entered, enters, called⟩ := exists_called full isArgument isArray
  rcases sorts id depth words called (by simpa using fits) with
    ⟨sorted, last, ran, finished, perm, ordered⟩ | ⟨deep, last, failed, ran, fails⟩
  · obtain ⟨after, returns, same, -⟩ : ∃ after, Machine.step (sortProgram id depth) last =
        .ok true after ∧ SameData last after ∧ after.calls.activations = [] :=
      step_return finished.calls
    refine .inl ⟨sorted, after, ends_of_runs enters ran fun steps => ?_, ?_, perm, ordered⟩
    · rw [continueFor, returns]
    · rw [same.store, finished.array, List.nil_append, List.append_nil]
  · refine .inr ⟨?_, failed, ends_of_runs enters ran fun steps => ?_⟩
    · rwa [List.length_nil, Nat.zero_add] at deep
    · rw [continueFor, fails]
      rfl

end

end Samples

end ScopeMachine
