import Mathlib.Logic.Relation
import ScopeMachine.Proofs.Actions
import ScopeMachine.Proofs.Building
import ScopeMachine.Proofs.Codec
import ScopeMachine.Samples

/-! # Routines

What the samples have in common: modules with one procedure, which works with words in registers.

* `wordVar` is a variable that holds one word;
* `exists_step_within` and `exists_return` say how a step moves an activation on, and ends it;
* `Runs` is any number of steps, which `exists_runs` finds for a machine that follows something
  else, and `ends_of_runs` and `exists_enough` say how a call ends that comes to such a run;
* `finish_built_eq_ok` and `compileProc_encodeAll` say what is finished and compiled. -/

namespace ScopeMachine

open Machine

namespace Samples

/-! ### Words -/

/-- The layout of the local words. -/
def wordLayout : Layout := ⟨VarTypeId.word, VarType.word⟩

/-- The elements of a local word are words. -/
theorem holdsWords_word : wordLayout.HoldsWords := ⟨rfl, rfl, rfl⟩

/-- The register slot of a local word. -/
def wordSlot : RegSlot := ⟨wordLayout, 1, Flags.empty, none⟩

/-- A variable that holds one word. -/
def wordVar (word : Int64) : Variable := Variable.ofWords wordLayout [word]

/-- The bytes of a local word. -/
theorem bytes?_wordVar (word : Int64) : (wordVar word).bytes? 0 = some (wordToBytes word) :=
  Variable.bytes?_ofWords holdsWords_word rfl

/-- A copy of a local word. -/
theorem element?_wordVar (word : Int64) : (wordVar word).element? 0 = some (Element.ofWord word) :=
  Variable.element?_ofWords holdsWords_word rfl

/-- A fresh local word is zero. -/
theorem fresh_wordSlot : wordSlot.fresh = wordVar 0 :=
  Variable.zeroed_eq_ofWords holdsWords_word 1

/-! ### Steps -/

/-- A register file that has grown from that of the program has all its registers. -/
theorem has_of_above {entry file : RegisterFile} {scopes : Scopes} {reg : RegId} {size : Nat}
    (above : Above entry file scopes) (isSize : entry.byReg.size = size)
    (inside : reg.index < size) : file.Has reg := by
  show reg.index < file.byReg.size
  rwa [above.size, isSize]

/-- Where control goes from `pc` if it stays within the procedure. -/
def target? (pc : Nat) : Outcome → Option Nat
  | .next => some (pc + 1)
  | .jump target => some target
  | .call _ | .ret => none

section
variable {program : Program} {proc : ProcId} {code : ProcCode} {machine after : Machine} {pc : Nat}
  {scopes : Scopes} {rest : List Activation} {instruction : Instruction}

/-- The current instruction of a procedure. -/
theorem current_eq_fetched (isCode : program.proc proc = .ok code)
    (calls : machine.calls.activations = ⟨proc, pc, scopes⟩ :: rest)
    (fetched : code.code[pc]? = some instruction) :
    current program machine = .ok (instruction, pc) := by
  unfold current
  rw [top?_eq calls]
  exact bind_eq_ok.mpr ⟨_, isCode, bind_eq_ok.mpr ⟨instruction, orError_eq_ok.mpr fetched, rfl⟩⟩

/-- A step that stays within its procedure. -/
theorem exists_step_within {outcome : Outcome} {target : Nat}
    (isCurrent : current program machine = .ok (instruction, pc))
    (executed : execute program instruction pc machine = .ok outcome after)
    (callsAfter : after.calls.activations = ⟨proc, pc, scopes⟩ :: rest)
    (goes : target? pc outcome = some target) :
    ∃ moved, step program machine = .ok false moved ∧ SameData after moved ∧
      moved.calls.activations = ⟨proc, target, scopes⟩ :: rest := by
  let moved : Machine :=
    { after with calls := after.calls.modifyTop fun top => { top with pc := target } }
  have callsMoved : moved.calls.activations = ⟨proc, target, scopes⟩ :: rest := by
    show after.calls.activations.modifyHead _ = _
    rw [callsAfter]
    rfl
  have running : moved.calls.isEmpty = false := by
    unfold CallStack.isEmpty
    rw [callsMoved]
    rfl
  have moves : moveOn program pc outcome after = .ok moved.calls.isEmpty moved := by
    cases outcome with
    | next =>
        cases goes
        show (updateTop _ >>= _ : Exec Bool) after = _
        rw [bind_apply, updateTop_apply callsAfter]
        rfl
    | jump position =>
        cases goes
        show (updateTop _ >>= _ : Exec Bool) after = _
        rw [bind_apply, updateTop_apply callsAfter]
        rfl
    | call proc => cases goes
    | ret => cases goes
  refine ⟨moved, ?_, ⟨rfl, rfl⟩, callsMoved⟩
  rw [step_eq isCurrent, bind_apply, executed, ← running]
  exact moves

/-- A return leaves the innermost activation. -/
theorem exists_return (isCurrent : current program machine = .ok (.ret, pc))
    (found : program.procs[proc.index.toNat]? = some code)
    (calls : machine.calls.activations = ⟨proc, pc, []⟩ :: rest) :
    ∃ after, Machine.step program machine = .ok rest.isEmpty after ∧
      SameData machine after ∧ after.calls.activations = rest := by
  obtain ⟨after, done, same, popped⟩ := exists_leave calls rfl found
  have callsAfter : after.calls.activations = rest := by
    rw [popped]
    show machine.calls.activations.tail = _
    rw [calls]
    rfl
  refine ⟨after, ?_, same, callsAfter⟩
  rw [step_eq isCurrent]
  show (leave program >>= fun _ => get >>= fun machine =>
    pure machine.calls.isEmpty : Exec Bool) machine = _
  rw [bind_apply, done]
  show EStateM.Result.ok after.calls.isEmpty after = _
  unfold CallStack.isEmpty
  rw [callsAfter]

end

/-! ### Runs -/

/-- Any number of steps of a machine that does not come to an end. -/
abbrev Runs (program : Program) : Machine → Machine → Prop :=
  Relation.ReflTransGen fun before after => Machine.step program before = .ok false after

/-- **A machine that follows each step of something else** follows any number of its steps. -/
theorem exists_runs {State : Type} {goes : State → State → Prop} {program : Program}
    (holds : State → Machine → Prop)
    (follows : ∀ {before after : State} {machine : Machine}, holds before machine →
      goes before after →
        ∃ next, Machine.step program machine = .ok false next ∧ holds after next)
    {before after : State} {machine : Machine} (here : holds before machine)
    (walks : Relation.ReflTransGen goes before after) :
    ∃ last, Runs program machine last ∧ holds after last := by
  induction walks with
  | refl => exact ⟨machine, .refl, here⟩
  | tail _ goes ih =>
      obtain ⟨middle, ran, there⟩ := ih
      obtain ⟨last, stepped, further⟩ := follows there goes
      exact ⟨last, ran.tail stepped, further⟩

/-- A call of the entry point ends in a given way, if it is given enough steps. -/
def Ends (program : Program) (argument : VarId) (store : Store) (machine : Machine)
    (completion : Completion) : Prop :=
  ∃ enough, ∀ steps, enough ≤ steps →
    invoke program entry argument steps store = (machine, completion)

section
variable {program : Program} {machine entered last : Machine}

/-- A run takes some steps, and leaves the others. With fewer steps, it is still under way. -/
theorem Runs.exists_continueFor (ran : Runs program machine last) :
    ∃ taken, (∀ steps, continueFor program (taken + steps) machine =
        continueFor program steps last) ∧
      ∀ steps ≤ taken, (continueFor program steps machine).2 = .running := by
  -- `continueFor` takes the first step first, so the induction must take it off there
  induction ran using Relation.ReflTransGen.head_induction_on with
  | refl =>
      refine ⟨0, fun steps => by rw [Nat.zero_add], fun steps atMost => ?_⟩
      obtain rfl := Nat.le_zero.mp atMost
      rfl
  | head stepped _ ih =>
      obtain ⟨taken, same, running⟩ := ih
      refine ⟨taken + 1, fun steps => ?_, fun steps atMost => ?_⟩
      · rw [Nat.add_right_comm, continueFor, stepped]
        exact same steps
      · cases steps with
        | zero => rfl
        | succ steps =>
            rw [continueFor, stepped]
            exact running steps (Nat.le_of_succ_le_succ atMost)

section
variable {argument : VarId} {store : Store} {completion : Completion}
  (enters : ∀ steps, invoke program entry argument steps store =
    continueFor program steps entered)
  (ran : Runs program entered last)
  (ends : ∀ steps, continueFor program (steps + 1) last = (machine, completion))
include enters ran ends

/-- A call is under way until it has taken the steps of its run, and ends as that does with one more
step. -/
theorem exists_enough :
    ∃ enough, (∀ steps < enough, (invoke program entry argument steps store).2 = .running) ∧
      ∀ steps, enough ≤ steps →
        invoke program entry argument steps store = (machine, completion) := by
  obtain ⟨taken, continues, running⟩ := ran.exists_continueFor
  refine ⟨taken + 1, fun steps fewer => ?_, fun steps atLeast => ?_⟩
  · rw [enters]
    exact running steps (Nat.le_of_lt_succ fewer)
  · obtain ⟨more, rfl⟩ := Nat.exists_eq_add_of_le atLeast
    rw [enters, Nat.add_assoc, continues, Nat.add_comm 1]
    exact ends more

/-- A call ends as its run does. -/
theorem ends_of_runs : Ends program argument store machine completion := by
  obtain ⟨enough, -, ended⟩ := exists_enough enters ran ends
  exact ⟨enough, ended⟩

end

end

/-- An allowed call runs the machine that has been prepared for it. -/
theorem invoke_eq_of_prepared {program : Program} {argument : VarId} {store : Store}
    {code : ProcCode} {start : Machine}
    (allowed : checkCall program entry argument store = .ok code)
    (prepared : prepare program code argument (idle program store) = .ok () start) (steps : Nat) :
    invoke program entry argument steps store = run program entry steps start := by
  rw [invoke_eq, allowed]
  dsimp only
  rw [prepared]

/-! ### Modules -/

/-- The module that an action builds, if it succeeds. -/
def built? (action : Build Unit) : Option Module :=
  match action Builder.initial with
  | .ok _ builder => some builder.module
  | .error _ _ => none

/-- **What is finished after an action** is the module that it builds, if that is verified. -/
theorem finish_built_eq_ok {action : Build Unit} {form : Module}
    (builds : built? action = some form) (verified : verifyModule form = .ok ()) {id : ModuleId}
    {module : Module} {rest : Builder} :
    (action >>= fun _ => Builder.finish id) Builder.initial = .ok module rest ↔
      module = { form with id } ∧ rest = Builder.initial := by
  unfold built? at builds
  rw [bind_apply]
  cases ran : action Builder.initial with
  | error error builder =>
      rw [ran] at builds
      cases builds
  | ok _ builder =>
      rw [ran] at builds
      dsimp only at builds ⊢
      rw [Builder.finish_eq_ok, Option.some.inj builds]
      exact and_iff_right verified

/-- Compiling a procedure with given instructions. -/
theorem compileProc_encodeAll {module : Module} {proc : ProcDef} {type : ProcType}
    {code : List Instruction} (isType : module.ptype? proc.ptype = some type)
    (written : proc.code = (Instruction.encodeAll code).toArray) :
    Program.compileProc module proc =
      .ok ⟨proc.flags, type.flags.contains ProcTypeFlags.external, type.io, code.toArray⟩ := by
  have decoded : liftCodec proc.instructions = .ok code.toArray := by
    unfold ProcDef.instructions
    rw [liftCodec_eq_ok, written]
    exact Instruction.decodeAll_encodeAll code
  exact bind_eq_ok.mpr ⟨type, orError_eq_ok.mpr isType, bind_eq_ok.mpr ⟨_, decoded, rfl⟩⟩

end Samples

end ScopeMachine
