import ScopeMachine.Proofs.Factors
import ScopeMachine.Proofs.Loading

/-! # Factorials

What `runFactorial` comes to in a host that offers the module of `factorial`: the factorial of the
number, as far as it fits into a word. Words wrap around, so negative numbers count as large ones.

* `finish_factorial_eq_ok` says what is finished after `factorial`, and `compile_productModule` what
  it is compiled to;
* `exists_outcome_runFactorial` takes the script to the call of the entry point;
* `runFactorial_multiplies` puts the parts together. -/

namespace ScopeMachine

open Machine

namespace Samples

/-! ### The module -/

/-- The description of the procedure. -/
def productProc : ProcDef :=
  ⟨Flags.empty, ⟨0⟩, (Instruction.encodeAll productCode).toArray, 9⟩

/-- The module that `factorial` builds. -/
def productModule (id : ModuleId) : Module where
  id := id
  vtypes := #[VarType.word]
  ptypes := #[⟨entryFlags, Factor.number.reg⟩]
  regs := #[RegSpec.error, RegSpec.error, RegSpec.error]
  procs := #[productProc]

/-- What `factorial` builds. -/
theorem built?_factorial : built? factorial = some (productModule ModuleId.nil) := by
  decide +kernel

/-- The module is verified. -/
theorem verify_productModule : verifyModule (productModule ModuleId.nil) = .ok () := rfl

/-- **What is finished after `factorial`** is its module. -/
theorem finish_factorial_eq_ok {id : ModuleId} {module : Module} {rest : Builder} :
    (factorial >>= fun _ => Builder.finish id) Builder.initial = .ok module rest ↔
      module = productModule id ∧ rest = Builder.initial :=
  finish_built_eq_ok built?_factorial verify_productModule

/-- **Compiling the module** allocates nothing. -/
theorem compile_productModule (id : ModuleId) (depth : Nat) (store : Store) :
    Program.compile (productModule id) depth store = .ok (productProgram id depth) store := by
  have isType : (productModule id).ptype? productProc.ptype =
      some ⟨entryFlags, Factor.number.reg⟩ := rfl
  refine compile_eq_ok.mpr
    ⟨(productProgram id depth).regs.toList, (productProgram id depth).procs.toList, rfl, ?_, rfl⟩
  show [productProc].mapM _ = _
  rw [List.mapM_cons]
  exact bind_eq_ok.mpr ⟨_, compileProc_encodeAll isType rfl, rfl⟩

/-! ### The script -/

section
variable {host : Host} {key depth : Nat} {handle : Handle} {number : Int64}

/-- The last part of the script: call the entry point, and load the word. -/
def callAndLoadWord (key : Nat) (io : VarId) (steps : Nat) : HostM (Option Int64) := do
  match ← Host.call key entry io steps with
  | .unfinished => return none
  | .returned => return some ((← loadWords io).headD 0)

/-- The script ends as its last part does, where a variable holds the number. -/
theorem exists_outcome_runFactorial
    (offers : Offers host handle (productModule handle.module) depth)
    (names : host.handles.get? key = some handle) (number : Int64) :
    ∃ (last : Host) (io : Nat),
      last.Loaded key handle (productModule handle.module) (productProgram handle.module depth) ∧
      io ∈ last.held ∧ last.store.get? io = some (wordVar number) ∧
      ∀ steps, host.outcome (runFactorial key number steps) =
        last.outcome (callAndLoadWord key io steps) := by
  obtain ⟨unpacked, unpacks, loaded⟩ :=
    offers.exists_loaded names fun store => compile_productModule handle.module depth store
  let io := unpacked.store.next
  let made : Host :=
    { unpacked with
      store := unpacked.store.insert (Variable.zeroed wordLayout 1)
      held := io :: unpacked.held }
  have makes : Host.newVariable key VarTypeId.word 1 unpacked = .ok io made :=
    loaded.newVariable rfl (rfl : wordLayout.resolveCount 1 = .ok 1) (by decide)
  have isFresh : made.store.get? io = some (wordVar 0) := by
    show (unpacked.store.insert _).get? io = _
    rw [Slots.get?_insert, if_pos rfl]
    exact congrArg some fresh_wordSlot
  obtain ⟨store, sets, isNumber⟩ := exists_setWord holdsWords_word isFresh Nat.one_pos number
  refine ⟨{ made with store }, io, loaded.of_same rfl rfl, List.mem_cons_self, isNumber,
    fun steps => ?_⟩
  unfold runFactorial
  rw [Host.outcome_bind_ok unpacks, Host.outcome_bind_ok makes, Host.outcome_holding,
    Host.outcome_bind_ok sets]
  rfl

/-- The wrapping product of the numbers from one on. -/
theorem foldl_mul_eq (count : Nat) :
    (List.range' 1 count).foldl (fun product factor => product * Int64.ofNat factor) 1 =
      Int64.ofNat count.factorial := by
  induction count with
  | zero => rfl
  | succ count ih =>
      rw [List.range'_1_concat, List.foldl_append, ih, Nat.factorial_succ, Nat.mul_comm,
        Int64.ofNat_mul, Nat.add_comm count]
      rfl

/-- **Factorials.** If a handle names a module that `factorial` has built, in a registry that allows
at least one call, then the script never fails, whatever the number is. Given enough steps it ends
with the factorial of the number modulo 2^64, where a negative number counts as what its bits are
without a sign; for other numbers this is the wrapping product of all numbers up to it. With
fewer steps, it has no result yet. -/
theorem runFactorial_multiplies {module : Module} {builder : Builder}
    (built : (factorial >>= fun _ => Builder.finish handle.module) Builder.initial =
      .ok module builder)
    (names : host.handles.get? key = some handle) (offers : Offers host handle module depth)
    (allowed : 1 ≤ depth) (number : Int64) :
    ∃ result : Int64, result.toUInt64.toNat = number.toUInt64.toNat.factorial % 2 ^ 64 ∧
      (0 ≤ number → result = (List.range' 1 number.toInt.toNat).foldl
        (fun product factor => product * Int64.ofNat factor) 1) ∧
      ∃ enough, ∀ steps, host.outcome (runFactorial key number steps) =
        .ok (if enough ≤ steps then some result else none) := by
  rw [(finish_factorial_eq_ok.mp built).1] at offers
  obtain ⟨last, io, loaded, held, isNumber, ends⟩ :=
    exists_outcome_runFactorial offers names number
  obtain ⟨machine, enough, running, returned, isResult⟩ :=
    exists_multiplied handle.module allowed isNumber
  refine ⟨Factors.wrapped number, rfl, fun positive => ?_, enough, fun steps => ?_⟩
  · rw [foldl_mul_eq, Int64.toNat_toInt, ← Int64.toNat_toUInt64_of_le positive]
    rfl
  rw [ends, callAndLoadWord]
  by_cases atLeast : enough ≤ steps
  · obtain ⟨after, called, same⟩ := loaded.call_returned rfl held (returned steps atLeast)
    rw [if_pos atLeast, Host.outcome_bind_ok called]
    dsimp only
    rw [Host.outcome_bind_ok (loadWords_ofWords holdsWords_word (same.trans isResult))]
    rfl
  · obtain ⟨after, called⟩ := loaded.call_unfinished rfl (running steps (Nat.lt_of_not_le atLeast))
    rw [if_neg atLeast, Host.outcome_bind_ok called]
    rfl

end

/-- Register `factorial` where one call is allowed, without nested ones, and make a handle to it. -/
def stockFactorial : HostM Nat := do
  let registry ← Host.newRegistry (.interpreter 1)
  register registry factorial ⟨7⟩
  Host.newHandle registry ⟨7⟩

/-- The factorial of 21 does not fit into a word, and wraps around to a negative number. -/
theorem runFactorial_21 : ∃ key host, stockFactorial Host.empty = .ok key host ∧
    ∃ enough, ∀ steps, host.outcome (runFactorial key 21 steps) =
      .ok (if enough ≤ steps then some (-4249290049419214848) else none) := by
  have stocked : (match stockFactorial Host.empty with
      | .ok key host => decide (host.handles.get? key = some ⟨0, ⟨7⟩, false⟩ ∧
          (host.registry 0).backend = .interpreter 1 ∧ (host.registry 0).isDestroyed ⟨7⟩ = false ∧
          host.stage 0 ⟨7⟩ = .structural (productModule ⟨7⟩))
      | .error _ _ => false) = true := by decide +kernel
  cases ran : stockFactorial Host.empty with
  | error error host =>
      rw [ran] at stocked
      cases stocked
  | ok key host =>
      rw [ran] at stocked
      obtain ⟨names, backend, living, isStage⟩ := of_decide_eq_true stocked
      obtain ⟨result, -, product, enough, ends⟩ :=
        runFactorial_multiplies (finish_factorial_eq_ok.mpr ⟨rfl, rfl⟩) names
          ⟨backend, living, .inl isStage⟩ (Nat.le_refl 1) 21
      have isProduct : result = -4249290049419214848 := (product (by decide)).trans (by decide)
      exact ⟨key, host, rfl, enough, isProduct ▸ ends⟩

end Samples

end ScopeMachine
