import Mathlib.Data.Nat.Factorial.Basic
import ScopeMachine.Proofs.Routines

/-! # The computation of factorials

The code of `factorial` works with two words, a number and a product. It counts the number down and
multiplies the product by it until it comes to zero, and leaves the product in both words.

* `Factors` are the words, and `Factors.Step` says what each instruction does to them;
* `Factors.loop` is the loop, by induction on the number, and `Factors.computes` the whole
  computation;
* `Factors.At` says that a machine holds the words, and `Factors.At.run` that it follows them;
* `exists_multiplied` says what a call of the procedure comes to. -/

namespace ScopeMachine

open Machine

namespace Samples

/-! ### Registers and code -/

/-- The words that `factorial` works with. -/
inductive Factor where
  /-- The number, which is counted down. -/
  | number
  /-- The product of the numbers so far. -/
  | product
deriving DecidableEq

/-- The position of the register for a word. -/
def Factor.index : Factor → Nat
  | number => 1
  | product => 2

/-- There are registers for both words. -/
theorem Factor.index_le (name : Factor) : name.index ≤ RegId.maxIndex := by
  cases name <;> decide

/-- The register for a word. -/
def Factor.reg (name : Factor) : RegId := ⟨name.index, name.index_le⟩

/-- The code of `factorial`, over its registers. -/
def productCode : List Instruction := factorialCode Factor.number.reg Factor.product.reg

/-- The executable form of the procedure. -/
def productRoutine : ProcCode := ⟨Flags.empty, true, Factor.number.reg, productCode.toArray⟩

/-- The executable form of `factorial`. -/
def productProgram (id : ModuleId) (depth : Nat) : Program :=
  ⟨id, depth, #[wordSlot, wordSlot, wordSlot], #[productRoutine]⟩

/-- The procedure of `factorial`. -/
theorem proc_product (id : ModuleId) (depth : Nat) :
    (productProgram id depth).procs[entry.index.toNat]? = some productRoutine := rfl

/-! ### Words -/

/-- The words of an activation of `factorial`. -/
structure Factors where
  /-- The number. -/
  number : Int64
  /-- The product. -/
  product : Int64

namespace Factors

/-- The word with a given name. -/
def word (factors : Factors) : Factor → Int64
  | .number => factors.number
  | .product => factors.product

/-- Set a word. -/
def set (factors : Factors) : Factor → Int64 → Factors
  | .number, word => { factors with number := word }
  | .product, word => { factors with product := word }

/-- Setting a word leaves the other one. -/
theorem word_set (factors : Factors) (name other : Factor) (word : Int64) :
    (factors.set name word).word other = if other = name then word else factors.word other := by
  cases name <;> cases other <;> rfl

/-- What an instruction at `pc` does to the words, and where it leads. -/
inductive Step (factors : Factors) (pc : Nat) : Instruction → Factors → Nat → Prop
  /-- Set a word. -/
  | put (name : Factor) (word : Int64) :
      Step factors pc (.cpi8 name.reg word) (factors.set name word) (pc + 1)
  /-- Multiply two words. -/
  | mul (dst left right : Factor) :
      Step factors pc (.mul dst.reg left.reg right.reg)
        (factors.set dst (factors.word left * factors.word right)) (pc + 1)
  /-- Take one from a word. -/
  | dec (name : Factor) :
      Step factors pc (.dec name.reg) (factors.set name (factors.word name - 1)) (pc + 1)
  /-- Copy a word. -/
  | copy (dst src : Factor) :
      Step factors pc (.cpb dst.reg src.reg) (factors.set dst (factors.word src)) (pc + 1)
  /-- Go somewhere else, as a word is zero. -/
  | skip {name : Factor} {offset : Int32} {target : Nat} (zero : factors.word name = 0)
      (leads : (Instruction.jz name.reg offset).jumpTarget? pc = some target) :
      Step factors pc (.jz name.reg offset) factors target
  /-- Go on, as a word is not zero. -/
  | proceed {name : Factor} {offset : Int32} (nonzero : factors.word name ≠ 0) :
      Step factors pc (.jz name.reg offset) factors (pc + 1)
  /-- Go somewhere else, as a word is not zero. -/
  | again {name : Factor} {offset : Int32} {target : Nat} (nonzero : factors.word name ≠ 0)
      (leads : (Instruction.jnz name.reg offset).jumpTarget? pc = some target) :
      Step factors pc (.jnz name.reg offset) factors target
  /-- Go on, as a word is zero. -/
  | leave {name : Factor} {offset : Int32} (zero : factors.word name = 0) :
      Step factors pc (.jnz name.reg offset) factors (pc + 1)

/-- One step within the code of `factorial`. -/
def Goes (before after : Nat × Factors) : Prop :=
  ∃ instruction, productCode[before.1]? = some instruction ∧
    before.2.Step before.1 instruction after.2 after.1

/-- Any number of steps within the code of `factorial`. -/
abbrev Walks : Nat × Factors → Nat × Factors → Prop := Relation.ReflTransGen Goes

/-! ### The computation -/

/-- Counting down. -/
theorem ofNat_succ_sub_one (count : Nat) : Int64.ofNat (count + 1) - 1 = Int64.ofNat count :=
  (Int64.ofNat_sub (count + 1) 1 (Nat.le_add_left 1 count)).symm

/-- A number that fits into a word without its sign is zero only as zero. -/
theorem ofNat_succ_ne_zero {count : Nat} (fits : count + 1 < 2 ^ 64) :
    Int64.ofNat (count + 1) ≠ 0 := by
  intro zero
  have bits : (count + 1) % 2 ^ 64 = 0 := congrArg (fun word => word.toUInt64.toNat) zero
  rw [Nat.mod_eq_of_lt fits] at bits
  exact Nat.succ_ne_zero count bits

/-- Every word is the number that its bits are. -/
theorem ofNat_toNat (word : Int64) : Int64.ofNat word.toUInt64.toNat = word :=
  congrArg Int64.ofBitVec (show BitVec.ofNat 64 word.toBitVec.toNat = word.toBitVec by simp)

/-- One round of the loop, up to the test at its end. -/
theorem round (count : Nat) (product : Int64) :
    Walks (3, ⟨Int64.ofNat (count + 1), product⟩)
      (5, ⟨Int64.ofNat count, product * Int64.ofNat (count + 1)⟩) := by
  have multiplied : Goes (3, ⟨Int64.ofNat (count + 1), product⟩)
      (4, ⟨Int64.ofNat (count + 1), product * Int64.ofNat (count + 1)⟩) :=
    ⟨_, rfl, .mul .product .product .number⟩
  refine .head multiplied (.single ⟨_, rfl, ?_⟩)
  rw [← ofNat_succ_sub_one count]
  exact .dec .number

/-- **The loop** multiplies the product by all numbers from the present one down to one. -/
theorem loop {count : Nat} (fits : count + 1 < 2 ^ 64) (product : Int64) :
    Walks (3, ⟨Int64.ofNat (count + 1), product⟩)
      (6, ⟨0, product * Int64.ofNat (count + 1).factorial⟩) := by
  induction count generalizing product with
  | zero => exact (round 0 product).tail ⟨_, rfl, .leave rfl⟩
  | succ count ih =>
      have smaller : count + 1 < 2 ^ 64 := Nat.lt_of_succ_lt fits
      let next : Factors := ⟨Int64.ofNat (count + 1), product * Int64.ofNat (count + 1 + 1)⟩
      have leads : (Instruction.jnz Factor.number.reg (-2)).jumpTarget? 5 = some 3 := by decide
      have again : Goes (5, next) (3, next) :=
        ⟨_, rfl, .again (ofNat_succ_ne_zero smaller) leads⟩
      have others := ih smaller next.product
      rw [Int64.mul_assoc, ← Int64.ofNat_mul, ← Nat.factorial_succ] at others
      exact (round (count + 1) product).trans (.head again others)

/-- The factorial of a number, as far as it fits into a word; the number is what the bits of a word
are without a sign. -/
def wrapped (number : Int64) : Int64 := Int64.ofNat number.toUInt64.toNat.factorial

/-- **The whole computation**, from an open scope for the product to a result in both words. -/
theorem computes (number : Int64) :
    Walks (1, ⟨number, 0⟩) (7, ⟨wrapped number, wrapped number⟩) := by
  have starts : Goes (1, ⟨number, 0⟩) (2, ⟨number, 1⟩) := ⟨_, rfl, .put .product 1⟩
  refine .head starts ?_
  by_cases zero : number = 0
  · have skips : Goes (2, ⟨number, 1⟩) (6, ⟨number, 1⟩) := ⟨_, rfl, .skip zero rfl⟩
    subst zero
    exact .head skips (.single ⟨_, rfl, .copy .number .product⟩)
  · have proceeds : Goes (2, ⟨number, 1⟩) (3, ⟨number, 1⟩) := ⟨_, rfl, .proceed zero⟩
    refine .head proceeds ?_
    obtain ⟨count, isCount⟩ : ∃ count, number.toUInt64.toNat = count + 1 := by
      refine Nat.exists_eq_succ_of_ne_zero fun none => zero ?_
      rw [← ofNat_toNat number, none]
      rfl
    have fits : count + 1 < 2 ^ 64 := isCount ▸ number.toUInt64.toNat_lt
    have multiplied := loop fits 1
    rw [← isCount, ofNat_toNat, Int64.one_mul] at multiplied
    exact multiplied.tail ⟨_, rfl, .copy .number .product⟩

/-! ### Activations -/

/-- The identity of the variable that holds a word: the argument of the activation, or the variable
that is allocated for the product. -/
def var (start : Machine) (argument : Nat) : Factor → Nat
  | .number => argument
  | .product => start.store.next

/-- A machine runs an activation of `factorial` that holds some words. It was like `start` when the
activation was entered. -/
structure At (factors : Factors) (start : Machine) (argument pc : Nat) (machine : Machine) :
    Prop where
  /-- The activation is the only one, and has opened a scope for the product. -/
  calls : machine.calls.activations = [⟨entry, pc, [Factor.product.reg]⟩]
  /-- It stands on the frames that were there when it was entered. -/
  above : Above start.registers machine.registers [Factor.product.reg]
  /-- The registers name the variables. -/
  frames : ∀ name : Factor, (machine.registers.framesOf name.reg).head? =
    some (some (var start argument name))
  /-- The variables hold the words. -/
  vars : ∀ name : Factor, machine.store.get? (var start argument name) =
    some (wordVar (factors.word name))
  /-- The argument was there when the activation was entered. -/
  older : argument < start.store.next

section
variable {factors changed : Factors} {start machine : Machine} {argument pc target : Nat}
  {instruction : Instruction}

/-- Different words are in different variables. -/
theorem At.var_inj (here : factors.At start argument pc machine) {left right : Factor}
    (same : var start argument left = var start argument right) : left = right := by
  have older := here.older
  cases left with
  | number =>
      cases right with
      | number => rfl
      | product => exact absurd same (Nat.ne_of_lt older)
  | product =>
      cases right with
      | number => exact absurd same.symm (Nat.ne_of_lt older)
      | product => rfl

/-- What a register names. -/
theorem At.named (here : factors.At start argument pc machine) (name : Factor) :
    machine.named name.reg = .ok (var start argument name, wordVar (factors.word name)) := by
  obtain ⟨frames, top⟩ := List.head?_eq_some_iff.mp (here.frames name)
  rw [named_eq top, here.vars name]

/-- A change of a variable to one with another word. -/
theorem At.setWord (here : factors.At start argument pc machine) (name : Factor)
    {change : Variable → Variable} {word : Int64}
    (sets : change (wordVar (factors.word name)) = wordVar word) :
    (factors.set name word).At start argument pc
      (machine.withVar (var start argument name) change) where
  calls := here.calls
  above := here.above
  frames := here.frames
  vars := by
    intro other
    show Slots.get? (machine.store.modify _ change) _ = _
    rw [Slots.get?_modify, word_set]
    by_cases same : other = name
    · rw [if_pos (by rw [same]), if_pos same, same, here.vars name, Option.map_some, sets]
    · rw [if_neg fun equal => same (here.var_inj equal), if_neg same, here.vars other]
  older := here.older

/-- Control moves on. -/
theorem At.moved (here : factors.At start argument pc machine) {after : Machine}
    (same : SameData machine after)
    (calls : after.calls.activations = [⟨entry, target, [Factor.product.reg]⟩]) :
    factors.At start argument target after where
  calls := calls
  above := same.registers ▸ here.above
  frames := same.registers ▸ here.frames
  vars := same.store ▸ here.vars
  older := here.older

/-! ### Steps -/

/-- Reading a word. -/
theorem At.readWord (here : factors.At start argument pc machine) (name : Factor) :
    Machine.readWord name.reg machine = .ok (factors.word name) machine :=
  readWord_apply (here.named name) (Variable.word?_ofWords holdsWords_word rfl)

/-- What follows the reading of a word. -/
theorem At.readWord_bind (here : factors.At start argument pc machine) {α : Type} (name : Factor)
    (next : Int64 → Exec α) :
    (Machine.readWord name.reg >>= next) machine = next (factors.word name) machine := by
  rw [bind_apply, here.readWord name]

/-- Writing a word. -/
theorem At.writeWord (here : factors.At start argument pc machine) (name : Factor)
    (word : Int64) :
    ∃ after, Machine.writeWord name.reg word machine = .ok () after ∧
      (factors.set name word).At start argument pc after :=
  ⟨_, writeWord_apply (here.named name) (Variable.hasWord_ofWords holdsWords_word Nat.one_pos) word,
    here.setWord name (Variable.putWord_ofWords holdsWords_word _ _ _)⟩

/-- Each instruction does to the machine what it does to the words. -/
theorem At.execute (here : factors.At start argument pc machine) (program : Program)
    (steps : factors.Step pc instruction changed target) :
    ∃ outcome after, Machine.execute program instruction pc machine = .ok outcome after ∧
      target? pc outcome = some target ∧ changed.At start argument pc after := by
  cases steps with
  | put name word =>
      have stores := storeLiteral_apply (here.named name)
        (rfl : (wordVar (factors.word name)).isEmpty = false)
        (show (wordToBytes word).size ≤ 8 from Nat.le_refl 8)
      exact ⟨.next, _, bind_next stores, rfl,
        here.setWord name (Variable.putWord_ofWords holdsWords_word _ 0 word)⟩
  | mul dst left right =>
      obtain ⟨after, written, there⟩ :=
        here.writeWord dst (factors.word left * factors.word right)
      exact ⟨.next, after,
        bind_next (arithmetic_apply (here.readWord left) (here.readWord right) written), rfl, there⟩
  | dec name =>
      obtain ⟨after, written, there⟩ := here.writeWord name (factors.word name - 1)
      exact ⟨.next, after, (here.readWord_bind name _).trans (bind_next written), rfl, there⟩
  | copy dst src =>
      exact ⟨.next, _, bind_next (copyBytes_apply (here.named dst) (here.named src)), rfl,
        here.setWord dst (Variable.copyPayload_ofWords wordLayout rfl)⟩
  | skip zero leads =>
      refine ⟨.jump target, machine, (here.readWord_bind _ _).trans ?_, rfl, here⟩
      rw [beq_iff_eq.mpr zero]
      exact jumpWhen_taken leads machine
  | proceed nonzero =>
      refine ⟨.next, machine, (here.readWord_bind _ _).trans ?_, rfl, here⟩
      rw [beq_eq_false_iff_ne.mpr nonzero]
      rfl
  | again nonzero leads =>
      refine ⟨.jump target, machine, (here.readWord_bind _ _).trans ?_, rfl, here⟩
      rw [bne_iff_ne.mpr nonzero]
      exact jumpWhen_taken leads machine
  | leave zero =>
      refine ⟨.next, machine, (here.readWord_bind _ _).trans ?_, rfl, here⟩
      rw [bne_eq_false_iff_eq.mpr zero]
      rfl

/-- The current instruction of `factorial`. -/
theorem current_eq {scopes : Scopes} {rest : List Activation} {id : ModuleId} {depth : Nat}
    (calls : machine.calls.activations = ⟨entry, pc, scopes⟩ :: rest)
    (fetched : productCode[pc]? = some instruction) :
    current (productProgram id depth) machine = .ok (instruction, pc) := by
  have isCode : (productProgram id depth).proc entry = .ok productRoutine := rfl
  exact current_eq_fetched isCode calls (List.getElem?_toArray.trans fetched)

/-- **A step on the words is a step of the machine.** -/
theorem At.step (here : factors.At start argument pc machine) (id : ModuleId) (depth : Nat)
    (fetched : productCode[pc]? = some instruction)
    (steps : factors.Step pc instruction changed target) :
    ∃ after, Machine.step (productProgram id depth) machine = .ok false after ∧
      changed.At start argument target after := by
  obtain ⟨outcome, middle, executed, goes, there⟩ := here.execute (productProgram id depth) steps
  obtain ⟨after, stepped, same, calls⟩ :=
    exists_step_within (current_eq here.calls fetched) executed there.calls goes
  exact ⟨after, stepped, there.moved same calls⟩

/-- **A walk of the words is a run of the machine.** -/
theorem At.run (here : factors.At start argument pc machine) (id : ModuleId) (depth : Nat)
    (walks : Walks (pc, factors) (target, changed)) :
    ∃ after, Runs (productProgram id depth) machine after ∧
      changed.At start argument target after := by
  let holds (stop : Nat × Factors) (machine : Machine) : Prop :=
    stop.2.At start argument stop.1 machine
  refine exists_runs holds ?_ here walks
  rintro before after machine there ⟨instruction, fetched, steps⟩
  exact At.step there id depth fetched steps

end

/-! ### Calls -/

section
variable {argument : Nat} {number : Int64} {start machine : Machine}

/-- Opening the scope for the product. -/
theorem exists_opened (id : ModuleId) (depth : Nat)
    (calls : start.calls.activations = [Activation.start entry])
    (size : start.registers.byReg.size = 3)
    (frame : (start.registers.framesOf Factor.number.reg).head? = some (some argument))
    (found : start.store.get? argument = some (wordVar number)) :
    ∃ machine, Machine.step (productProgram id depth) start = .ok false machine ∧
      (⟨number, 0⟩ : Factors).At start argument 1 machine := by
  have older : argument < start.store.next := Slots.lt_next_of_get? found
  have has : start.registers.Has Factor.product.reg :=
    has_of_above (Above.refl start.registers) size (by decide)
  have declared : (productProgram id depth).reg Factor.product.reg = .ok wordSlot := rfl
  have executed := bind_next (openFresh_apply calls declared has)
  have callsOpen : (start.calls.modifyTop (·.openScope Factor.product.reg)).activations =
      [⟨entry, 0, [Factor.product.reg]⟩] := by
    rw [CallStack.activations_modifyTop, calls]
    rfl
  obtain ⟨machine, stepped, same, callsAfter⟩ :=
    exists_step_within (current_eq calls rfl) executed callsOpen rfl
  refine ⟨machine, stepped, callsAfter, ?_, ?_, ?_, older⟩
  · rw [same.registers]
    exact (Above.refl start.registers).push has _
  · intro name
    rw [same.registers]
    dsimp only
    rw [RegisterFile.framesOf_modifyFrames has]
    cases name with
    | number =>
        rw [if_neg (by decide)]
        exact frame
    | product => rfl
  · intro name
    rw [same.store]
    dsimp only
    rw [Slots.get?_insert]
    cases name with
    | number => exact (if_neg (Nat.ne_of_lt older)).trans found
    | product => exact (if_pos rfl).trans (congrArg some fresh_wordSlot)

/-- Closing the scope for the product, and returning. -/
theorem At.exists_returned {factors : Factors} (here : factors.At start argument 7 machine)
    (id : ModuleId) (depth : Nat) :
    ∃ closed after, Machine.step (productProgram id depth) machine = .ok false closed ∧
      Machine.step (productProgram id depth) closed = .ok true after ∧
      after.store.get? argument = some (wordVar factors.number) := by
  have member : Factor.product.reg ∈ [Factor.product.reg] := List.mem_singleton.mpr rfl
  have framed := here.above.framesOf_ne_nil_of_mem member
  have callsClosed : (machine.calls.modifyTop (·.closeScope Factor.product.reg)).activations =
      [⟨entry, 7, []⟩] := by
    rw [CallStack.activations_modifyTop, here.calls]
    rfl
  obtain ⟨closed, closes, same, calls⟩ := exists_step_within (current_eq here.calls rfl)
    (bind_next (closeScope_apply here.calls member framed)) callsClosed rfl
  obtain ⟨after, returns, sameAfter, -⟩ :=
    exists_return (current_eq calls rfl) (proc_product id depth) calls
  refine ⟨closed, after, closes, returns, ?_⟩
  rw [sameAfter.store, same.store]
  exact here.vars .number

end

end Factors

/-- The machine that is about to enter `factorial`. -/
def primed (store : Store) (argument : VarId) : Machine :=
  ⟨store.insert wordSlot.fresh, ⟨#[[some store.next], [some argument], []]⟩, CallStack.empty, []⟩

/-- **A call from outside** returns, once it has taken enough steps, with the factorial in the
variable that held the number. -/
theorem exists_multiplied (id : ModuleId) {depth : Nat} (allowed : 1 ≤ depth) {argument : Nat}
    {number : Int64} {store : Store} (found : store.get? argument = some (wordVar number)) :
    ∃ machine enough,
      (∀ steps < enough,
        (invoke (productProgram id depth) entry argument steps store).2 = .running) ∧
      (∀ steps, enough ≤ steps →
        invoke (productProgram id depth) entry argument steps store = (machine, .returned)) ∧
      machine.store.get? argument = some (wordVar (Factors.wrapped number)) := by
  have isAllowed : checkCall (productProgram id depth) entry argument store =
      .ok productRoutine := by
    unfold checkCall
    rw [found]
    rfl
  have prepared : prepare (productProgram id depth) productRoutine argument
      (idle (productProgram id depth) store) = .ok () (primed store argument) := rfl
  have room : ¬ (productProgram id depth).maxCallDepth ≤ (primed store argument).calls.depth :=
    Nat.not_le_of_lt allowed
  obtain ⟨entered, enters, same, pushed⟩ := exists_enter room (proc_product id depth)
  have runs : ∀ steps, invoke (productProgram id depth) entry argument steps store =
      continueFor (productProgram id depth) steps entered := by
    intro steps
    rw [invoke_eq_of_prepared isAllowed prepared, run, enters]
  -- the storage of the error register is new, so the argument is as it was
  have foundEntered : entered.store.get? argument = some (wordVar number) := by
    rw [same.store]
    show (store.insert wordSlot.fresh).get? argument = _
    rw [Slots.get?_insert, if_neg (Nat.ne_of_lt (Slots.lt_next_of_get? found)), found]
  obtain ⟨opened, opens, here⟩ := Factors.exists_opened id depth
    (by rw [pushed]; rfl) (by rw [same.registers]; rfl) (by rw [same.registers]; rfl) foundEntered
  obtain ⟨computed, ran, there⟩ := here.run id depth (Factors.computes number)
  obtain ⟨closed, after, closes, returns, result⟩ := there.exists_returned id depth
  have toReturn : Runs (productProgram id depth) entered closed := .tail (.head opens ran) closes
  obtain ⟨enough, running, returned⟩ := exists_enough runs toReturn fun steps => by
    rw [continueFor, returns]
  exact ⟨after, enough, running, returned, result⟩

end Samples

end ScopeMachine
