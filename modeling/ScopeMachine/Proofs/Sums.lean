import ScopeMachine.Proofs.DataAccess

/-! # Sums of offsets and widths

Where bytes are loaded or stored, an offset of the code is added to a width that a variable says its
elements have. An embedding program can make up layouts, and elements of any width that is a word:
the sum need not be one. Then there is a slip, and this is the only one that there can be over
variables that are as large as their layouts say.

* `Abrupt.Overflows` says that an action slips in such a sum;
* `Machine.AddsUpAlong` says that all sums along a run are words, and `Abrupt.invoke_spec` that a
  call does what it does without direct access if they are, and slips if they are not;
* `Machine.addsUpAlong_of_narrow` says that they are, unless a variable has elements that are larger
  than those of types can be. -/

namespace ScopeMachine

open Machine

namespace Abrupt

/-! ### Instructions -/

section
variable {α β : Type} {machine : Machine}

/-- At a machine, an action slips in a sum that is no word, before it has changed anything. -/
def Overflows (machine : Machine) (abrupt : Abrupt α) : Prop :=
  ∃ left right, UInt64.size ≤ left + right ∧
    abrupt machine = .error (.slip (.overflow left right)) machine

/-- Nothing follows a slip. -/
theorem Overflows.bind {abrupt : Abrupt α} (overflows : Overflows machine abrupt)
    (more : α → Abrupt β) : Overflows machine (abrupt >>= more) := by
  obtain ⟨left, right, exceeds, slips⟩ := overflows
  refine ⟨left, right, exceeds, ?_⟩
  rw [bind_apply, slips]

/-- A sum that is no word. -/
theorem overflows_sum {left right : Nat} (exceeds : UInt64.size ≤ left + right) :
    Overflows machine (risk (sum left right)) := by
  refine ⟨left, right, exceeds, ?_⟩
  rw [sum_eq_error exceeds]
  rfl

/-- A slip behind a look that finds something. -/
theorem overflows_look {look : Machine → Except Error α} {found : α} {more : α → Abrupt β}
    (looked : look machine = .ok found) (overflows : Overflows machine (more found)) :
    Overflows machine (ofExec (inspect look) >>= more) := by
  obtain ⟨left, right, exceeds, slips⟩ := overflows
  refine ⟨left, right, exceeds, ?_⟩
  rw [bind_apply]
  unfold ofExec
  rw [inspect_apply, looked]
  exact slips

/-- A register that does not name what has some property names what has not. -/
theorem exists_of_not_names {reg : RegId} {holds : Variable → Prop}
    (lacks : ¬ machine.Names reg holds) :
    ∃ id var, machine.named reg = .ok (id, var) ∧ ¬ holds var := by
  unfold Machine.Names at lacks
  push Not at lacks
  exact lacks

/-- **An instruction whose sum is no word slips.** -/
theorem overflows_execute (sized : machine.store.Sized) (program : Program)
    {instruction : Instruction} (lacks : ¬ machine.AddsUp instruction) (pc : Nat) :
    Overflows machine (execute program instruction pc) := by
  cases instruction with
  | ldb dst src offset =>
      obtain ⟨id, target, isNamed, exceeds⟩ := exists_of_not_names lacks
      refine Overflows.bind (overflows_look isNamed ?_) _
      exact (overflows_sum (Nat.le_of_not_lt exceeds)).bind _
  | stb dst offset src =>
      obtain ⟨id, source, isNamed, exceeds⟩ := exists_of_not_names lacks
      obtain ⟨present, exceeds⟩ := Classical.not_imp.mp exceeds
      refine Overflows.bind (overflows_look isNamed ?_) _
      obtain ⟨bytes, isBytes, -, width, -⟩ :=
        exists_window (sized (named_eq_ok isNamed).1) present
      dsimp only
      rw [isBytes, demand_some_bind]
      refine Overflows.bind (overflows_sum ?_) _
      rw [Window.size_read, width]
      exact Nat.le_of_not_lt exceeds
  | _ => exact absurd trivial lacks

end

/-! ### Steps, runs and calls -/

/-- Carry out the current instruction and move on; whether the machine has come to an end. -/
def step (program : Program) : Abrupt Bool := do
  let (instruction, pc) ← ofExec (inspect (current program))
  let outcome ← execute program instruction pc
  ofExec (moveOn program pc outcome)

/-- Take at most `steps` steps, unless one slips. -/
def continueFor (program : Program) : (steps : Nat) → Machine → Except Slip (Machine × Completion)
  | 0, machine => .ok (machine, .running)
  | steps + 1, machine =>
      match step program machine with
      | .ok true machine => .ok (machine, .returned)
      | .ok false machine => continueFor program steps machine
      | .error (.fault error) machine => .ok (machine, .failed error)
      | .error (.slip slip) _ => .error slip

/-- Run an entry point with a variable as its argument and result, for at most `steps` steps, unless
one slips. -/
def invoke (program : Program) (proc : ProcId) (io : VarId) (steps : Nat) (store : Store) :
    Except Slip (Machine × Completion) :=
  match checkCall program proc io store with
  | .error error => .ok (idle program store, .failed error)
  | .ok entry =>
      match prepare program entry io (idle program store) with
      | .error error machine => .ok (machine, .failed error)
      | .ok _ machine =>
          match enter program proc machine with
          | .error error machine => .ok (machine, .failed error)
          | .ok _ machine => continueFor program steps machine

end Abrupt

namespace Machine

/-! ### Sums along a run -/

/-- What the current instruction adds up, if there is one, is a word. -/
def NextAddsUp (program : Program) (machine : Machine) : Prop :=
  ∀ instruction pc, current program machine = .ok (instruction, pc) → machine.AddsUp instruction

/-- In each of the states from which a run takes its first so many steps, what the current
instruction adds up is a word. The states are given by the number of steps that have been taken. -/
def AddsUpAlong (program : Program) (states : Nat → Machine × Completion) (steps : Nat) : Prop :=
  ∀ taken machine, taken < steps → states taken = (machine, .running) →
    machine.NextAddsUp program

/-- A run that is one step longer starts with one step more. -/
theorem addsUpAlong_succ {program : Program} {machine : Machine} {steps : Nat} :
    AddsUpAlong program (fun taken => continueFor program taken machine) (steps + 1) ↔
      machine.NextAddsUp program ∧ ∀ after, step program machine = .ok false after →
        AddsUpAlong program (fun taken => continueFor program taken after) steps := by
  constructor
  · intro adds
    refine ⟨adds 0 machine (Nat.succ_pos steps) rfl, ?_⟩
    intro after stepped taken later few running
    refine adds (taken + 1) later (Nat.succ_lt_succ few) ?_
    dsimp only
    rw [continueFor, stepped]
    exact running
  · rintro ⟨first, rest⟩ taken later few running
    cases taken with
    | zero =>
        cases running
        exact first
    | succ taken =>
        dsimp only at running
        rw [continueFor] at running
        cases stepped : step program machine with
        | error error after =>
            rw [stepped] at running
            cases running
        | ok ended after =>
            rw [stepped] at running
            cases ended with
            | true => cases running
            | false => exact rest after stepped taken later (Nat.lt_of_succ_lt_succ few) running

end Machine

/-! ### Variables of types -/

namespace Store

variable {store : Store}

/-- No variable has elements larger than those of types can be. -/
def Narrow (store : Store) : Prop :=
  ∀ ⦃id : VarId⦄ ⦃var : Variable⦄, store.get? id = some var →
    var.layout.elementBytes < UInt32.size

/-- A variable that is narrow enough enters. -/
theorem Narrow.insert (narrow : store.Narrow) {var : Variable}
    (isNarrow : var.layout.elementBytes < UInt32.size) : Narrow (Slots.insert store var) :=
  forall_insert narrow isNarrow

end Store

namespace Machine

/-- The registers of a compiled module have types, so their variables are narrow enough. -/
theorem lasts_narrow {module : Module} {program : Program} (compiles : Compiles module program) :
    Lasts Store.Narrow program := by
  refine lasts_forall (fun slot member => ?_) fun revises narrow => revises.layout ▸ narrow
  obtain ⟨index, found⟩ := Array.getElem?_of_mem member
  obtain ⟨spec, -, resolves⟩ := compiles.reg found
  obtain ⟨type, -, layout⟩ := resolves.layout
  show slot.layout.elementBytes < UInt32.size
  rw [layout]
  exact type.elementBytes.toNat_lt

/-- **The sums of narrow variables are words**: neither the offset nor the width has more than 32
bits. -/
theorem addsUp_of_narrow {machine : Machine} (narrow : machine.store.Narrow)
    (instruction : Instruction) : machine.AddsUp instruction := by
  have fits : ∀ (offset : UInt32) {id : VarId} {var : Variable},
      machine.store.get? id = some var →
        offset.toNat + var.layout.elementBytes < UInt64.size := by
    intro offset id var found
    exact Nat.lt_trans (Nat.add_lt_add offset.toNat_lt (narrow found)) (by decide)
  cases instruction with
  | ldb dst src offset => exact fun id target isNamed => fits offset (named_eq_ok isNamed).1
  | stb dst offset src => exact fun id source isNamed _ => fits offset (named_eq_ok isNamed).1
  | _ => exact trivial

/-- What a call adds up are words as long as all variables are narrow. -/
theorem addsUpAlong_of_narrow {module : Module} {program : Program}
    (compiles : Compiles module program) {store : Store} (narrow : store.Narrow) (proc : ProcId)
    (io : VarId) (steps : Nat) :
    AddsUpAlong program (fun taken => invoke program proc io taken store) steps := by
  intro taken machine _ running instruction pc _
  have kept := (lasts_narrow compiles).stored_of_invoke narrow proc io taken
  dsimp only at running
  rw [running] at kept
  exact addsUp_of_narrow kept instruction

end Machine

/-! ### Slips -/

namespace Abrupt

/-- What is computed with direct access comes to a result under a condition, and slips in a sum that
is no word without. -/
structure SlipsUnless {α : Type} (adds : Prop) (outcome : Except Slip α) (result : α) : Prop where
  /-- The result under the condition. -/
  same : adds → outcome = .ok result
  /-- The slip without it. -/
  slips : ¬ adds → ∃ left right, UInt64.size ≤ left + right ∧
    outcome = .error (.overflow left right)

section
variable {machine : Machine}

/-- **Steps are taken without slips**, if what they add up is a word. -/
theorem mirrors_step (sized : machine.store.Sized) {program : Program}
    (adds : machine.NextAddsUp program) :
    Mirrors machine (step program) (Machine.step program) := by
  refine Mirrors.look_bind rfl ?_
  rintro ⟨instruction, pc⟩ isCurrent
  exact (mirrors_execute sized program (adds instruction pc isCurrent) pc).bind fun _ _ _ => rfl

/-- **A step whose sum is no word slips.** -/
theorem overflows_step (sized : machine.store.Sized) {program : Program}
    (lacks : ¬ machine.NextAddsUp program) : Overflows machine (step program) := by
  unfold NextAddsUp at lacks
  push Not at lacks
  obtain ⟨instruction, pc, isCurrent, lacks⟩ := lacks
  refine overflows_look isCurrent ?_
  exact (overflows_execute sized program lacks pc).bind _

/-- **Runs slip in sums that are no words**, and nowhere else. -/
theorem continueFor_spec (sized : machine.Sized) (program : Program) (steps : Nat) :
    SlipsUnless (AddsUpAlong program (fun taken => Machine.continueFor program taken machine) steps)
      (continueFor program steps machine) (Machine.continueFor program steps machine) := by
  induction steps generalizing machine with
  | zero => exact ⟨fun _ => rfl, fun lacks => absurd (fun taken after few => by omega) lacks⟩
  | succ steps ih =>
      rw [addsUpAlong_succ]
      by_cases adds : machine.NextAddsUp program
      · have mirrors : step program machine = ofExec (Machine.step program) machine :=
          mirrors_step sized.store adds
        have keeps := (lasts_sized program).keeps_step sized
        rw [continueFor, Machine.continueFor, mirrors, ofExec]
        cases stepped : Machine.step program machine with
        | error error after => exact ⟨fun _ => rfl, fun lacks => absurd ⟨adds, by simp⟩ lacks⟩
        | ok ended after =>
            cases ended with
            | true => exact ⟨fun _ => rfl, fun lacks => absurd ⟨adds, by simp⟩ lacks⟩
            -- the step has kept the sizes, so the rest of the run is as it should be, too
            | false =>
                obtain ⟨same, slips⟩ := ih (keeps.of_ok stepped)
                refine ⟨fun all => same (all.2 after rfl), fun lacks => slips fun rest => ?_⟩
                refine lacks ⟨adds, ?_⟩
                rintro other isOther
                cases isOther
                exact rest
      · obtain ⟨left, right, exceeds, slips⟩ := overflows_step sized.store adds
        refine ⟨fun all => absurd all.1 adds, fun _ => ⟨left, right, exceeds, ?_⟩⟩
        rw [continueFor, slips]

end

section
variable {program : Program} {proc : ProcId} {io : VarId} {store : Store}

/-- A call that starts goes on with direct access. -/
theorem invoke_of_starts {entry : ProcCode} {start entered : Machine}
    (starts : Starts program proc io store entry start entered) (steps : Nat) :
    invoke program proc io steps store = continueFor program steps entered := by
  rw [invoke, starts.allowed]
  dsimp only
  rw [starts.prepared]
  dsimp only
  rw [starts.entered]

/-- A call that is refused has no direct access to anything. -/
theorem invoke_of_refuses {error : Error} {final : Machine}
    (refuses : Refuses program proc io store error final) (steps : Nat) :
    invoke program proc io steps store = .ok (final, .failed error) := by
  unfold invoke
  cases refuses with
  | forbids refused => rw [refused]
  | lacks allowed refused =>
      rw [allowed]
      dsimp only
      rw [refused]
  | excludes allowed prepared refused =>
      rw [allowed]
      dsimp only
      rw [prepared]
      dsimp only
      rw [refused]

/-- **Calls slip in sums that are no words**, and nowhere else, whatever program they are calls
of. -/
theorem invoke_spec (sized : store.Sized) (program : Program) (proc : ProcId) (io : VarId)
    (steps : Nat) :
    SlipsUnless
      (AddsUpAlong program (fun taken => Machine.invoke program proc io taken store) steps)
      (invoke program proc io steps store) (Machine.invoke program proc io steps store) := by
  -- a call without steps is a machine that has been prepared
  have atStart := sized_of_invoke sized program proc io 0
  rcases invoke_cases program proc io store with
    ⟨entry, start, entered, starts, runs⟩ | ⟨error, final, refuses, fails⟩
  · rw [runs] at atStart
    simp only [runs, invoke_of_starts starts]
    exact continueFor_spec ⟨atStart, fun _ => trivial⟩ program steps
  · simp only [fails, invoke_of_refuses refuses]
    refine ⟨fun _ => rfl, fun lacks => absurd ?_ lacks⟩
    rintro taken machine - ⟨⟩

end

end Abrupt

end ScopeMachine
