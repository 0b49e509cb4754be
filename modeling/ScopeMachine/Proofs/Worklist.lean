import ScopeMachine.Proofs.Verification

/-! # The worklist drains

The loop of the verifier runs until no block waits, and nothing in it counts. That it ends all the
same is seen from what it does: a block is pushed when it gets its entry, which happens once.

* `Move` is one thing that the loop does, and `Recorded` a computation with the record of its moves;
* `Worklist.run` is the loop of the verifier with such a record, and `run_result` says that without
  the record it is the loop itself;
* `Frugal` is what holds of the record at any time, also after a failure;
* `Tally` ties the record to the solution. It is kept by each turn of the loop (`advance_meets`),
  and hence by all of them (`advanceBy_meets`);
* `worklist_drains` is the result: no block is popped twice, and more turns than blocks change
  nothing. -/

namespace ScopeMachine

open ControlFlow

/-! ### Records -/

/-- What the worklist does. -/
inductive Move where
  /-- A block gets its entry, and is pushed behind those that wait. -/
  | pushed (block : Nat) (entry : Scopes)
  /-- The block that waits first is popped, and this is its entry. -/
  | popped (block : Nat) (entry : Option Scopes)
  /-- An instruction is stepped. -/
  | stepped (position : Nat)
deriving DecidableEq

namespace Move

/-- The block and the entry that it gets, if one is pushed. -/
def push? : Move → Option (Nat × Scopes)
  | .pushed block entry => some (block, entry)
  | _ => none

/-- The block and the entry that is found for it, if one is popped. -/
def pop? : Move → Option (Nat × Option Scopes)
  | .popped block entry => some (block, entry)
  | _ => none

/-- The position, if an instruction is stepped. -/
def step? : Move → Option Nat
  | .stepped position => some position
  | _ => none

/-- The blocks that are pushed, each with the entry that it gets. -/
def pushes (moves : List Move) : List (Nat × Scopes) := moves.filterMap push?

/-- The blocks that are popped, each with the entry that is found for it. -/
def pops (moves : List Move) : List (Nat × Option Scopes) := moves.filterMap pop?

/-- The positions of the instructions that are stepped. -/
def steps (moves : List Move) : List Nat := moves.filterMap step?

/-- What is popped where this has been pushed. -/
def found (push : Nat × Scopes) : Nat × Option Scopes := (push.1, some push.2)

section
variable (moves more : List Move) (positions : List Nat)

@[simp] theorem pushes_append : pushes (moves ++ more) = pushes moves ++ pushes more :=
  List.filterMap_append

@[simp] theorem pops_append : pops (moves ++ more) = pops moves ++ pops more :=
  List.filterMap_append

@[simp] theorem steps_append : steps (moves ++ more) = steps moves ++ steps more :=
  List.filterMap_append

@[simp] theorem pushes_stepped : pushes (positions.map stepped) = [] := by
  simp [pushes, push?]

@[simp] theorem pops_stepped : pops (positions.map stepped) = [] := by
  simp [pops, pop?]

@[simp] theorem steps_stepped : steps (positions.map stepped) = positions := by
  simp [steps, step?, List.filterMap_map, Function.comp_def]

end

/-- Popping a block and walking through it pushes nothing. -/
theorem pushes_walked (moves : List Move) (index : Nat) (entry : Option Scopes)
    (start reached : Nat) :
    pushes (moves ++ [.popped index entry] ++ (List.range' start reached).map .stepped) =
      pushes moves := by
  rw [pushes_append, pushes_append, pushes_stepped, List.append_nil]
  exact List.append_nil _

/-- The block is the last that has been popped. -/
theorem pops_walked (moves : List Move) (index : Nat) (entry : Option Scopes)
    (start reached : Nat) :
    pops (moves ++ [.popped index entry] ++ (List.range' start reached).map .stepped) =
      pops moves ++ [(index, entry)] := by
  rw [pops_append, pops_append, pops_stepped, List.append_nil]
  rfl

/-- Its instructions are the last that have been stepped. -/
theorem steps_walked (moves : List Move) (index : Nat) (entry : Option Scopes)
    (start reached : Nat) :
    steps (moves ++ [.popped index entry] ++ (List.range' start reached).map .stepped) =
      steps moves ++ List.range' start reached := by
  rw [steps_append, steps_append, steps_stepped]
  exact congrArg (· ++ _) (List.append_nil _)

end Move

/-- The result of a computation, with what it has done, in order. What a computation has done before
it fails is kept. -/
structure Recorded (α : Type) where
  /-- The result. -/
  result : Except Error α
  /-- What has been done for it. -/
  moves : List Move

namespace Recorded

variable {α β : Type}

/-- A result for which nothing is done. -/
def of (result : Except Error α) : Recorded α := ⟨result, []⟩

/-- Do one thing. -/
def note (move : Move) : Recorded Unit := ⟨.ok (), [move]⟩

/-- One computation and then another on its value, unless it fails. -/
protected def bind (first : Recorded α) (second : α → Recorded β) : Recorded β :=
  match first.result with
  | .error error => ⟨.error error, first.moves⟩
  | .ok value => ⟨(second value).result, first.moves ++ (second value).moves⟩

instance : Monad Recorded where
  pure value := of (.ok value)
  bind := Recorded.bind

@[simp] theorem result_pure (value : α) : (pure value : Recorded α).result = .ok value := rfl

@[simp] theorem moves_pure (value : α) : (pure value : Recorded α).moves = [] := rfl

/-- The record of the first computation goes on with that of the second. -/
theorem bind_of_ok {first : Recorded α} {second : α → Recorded β} {value : α}
    (returns : first.result = .ok value) :
    first >>= second = ⟨(second value).result, first.moves ++ (second value).moves⟩ := by
  show Recorded.bind first second = _
  rw [Recorded.bind, returns]

/-- The record ends with the first failure. -/
theorem bind_of_error {first : Recorded α} {second : α → Recorded β} {error : Error}
    (fails : first.result = .error error) : first >>= second = ⟨.error error, first.moves⟩ := by
  show Recorded.bind first second = _
  rw [Recorded.bind, fails]

/-- Without the record it is a sequence of results. -/
@[simp] theorem result_bind (first : Recorded α) (second : α → Recorded β) :
    (first >>= second).result = first.result >>= fun value => (second value).result := by
  cases returned : first.result with
  | error error => rw [bind_of_error returned]; rfl
  | ok value => rw [bind_of_ok returned]; rfl

/-- A value and then another computation. -/
theorem pure_bind (value : α) (second : α → Recorded β) : pure value >>= second = second value :=
  rfl

/-- Sequences can be taken in either order. -/
theorem bind_assoc {γ : Type} (first : Recorded α) (second : α → Recorded β)
    (third : β → Recorded γ) :
    first >>= second >>= third = first >>= fun value => second value >>= third := by
  cases returned : first.result with
  | error error => rw [bind_of_error returned, bind_of_error returned, bind_of_error rfl]
  | ok value =>
      rw [bind_of_ok returned, bind_of_ok returned]
      cases next : (second value).result with
      | error error => rw [bind_of_error rfl, bind_of_error next]
      | ok other => rw [bind_of_ok rfl, bind_of_ok next, List.append_assoc]

/-- What a computation does: either it fails with such a record, or it returns a value with such a
record, each counted from what had been done before. -/
def Meets (run : Recorded α) (before : List Move) (fails : List Move → Prop)
    (returns : α → List Move → Prop) : Prop :=
  match run.result with
  | .error _ => fails (before ++ run.moves)
  | .ok value => returns value (before ++ run.moves)

section
variable {before : List Move} {fails : List Move → Prop} {returns : β → List Move → Prop}

/-- A value for which nothing is done. -/
theorem meets_pure {value : β} (holds : returns value before) :
    (pure value : Recorded β).Meets before fails returns := by
  show returns value (before ++ [])
  rw [List.append_nil]
  exact holds

/-- A failure for which nothing is done. -/
theorem meets_error {error : Error} (holds : fails before) :
    (of (.error error) : Recorded β).Meets before fails returns := by
  show fails (before ++ [])
  rw [List.append_nil]
  exact holds

/-- What is done after a move. -/
theorem meets_note {move : Move} {second : Unit → Recorded β}
    (after : (second ()).Meets (before ++ [move]) fails returns) :
    (note move >>= second).Meets before fails returns := by
  rw [bind_of_ok (show (note move).result = .ok () from rfl)]
  unfold Meets at after ⊢
  rw [List.append_assoc] at after
  exact after

/-- The second computation goes on where the first ends. -/
theorem Meets.bind {first : Recorded α} {second : α → Recorded β}
    (between : α → List Move → Prop) (meets : first.Meets before fails between)
    (goesOn : ∀ value moves, between value moves → (second value).Meets moves fails returns) :
    (first >>= second).Meets before fails returns := by
  unfold Meets at meets
  cases returned : first.result with
  | error error =>
      rw [bind_of_error returned]
      rw [returned] at meets
      exact meets
  | ok value =>
      rw [returned] at meets
      have after := goesOn value _ meets
      rw [bind_of_ok returned]
      unfold Meets at after ⊢
      rw [List.append_assoc] at after
      exact after

end

end Recorded

/-! ### The loop with its record -/

namespace Worklist

open Recorded

/-- `Flow.walk` with a record of the instructions stepped. -/
def walk (flow : Flow) : (count position : Nat) → Scopes → Recorded Scopes
  | 0, _, scopes => pure scopes
  | count + 1, position, scopes =>
      match flow.code[position]? with
      | none => pure scopes
      | some instruction => do
          note (.stepped position)
          match scopes.step flow.context instruction with
          | .error violation => of (.error (.scope flow.proc position violation))
          | .ok after => walk flow count (position + 1) after

/-- `Flow.carry` with a record of the block that is pushed. -/
def carry (flow : Flow) (position : Nat) (scopes : Scopes) (solution : Solution) (target : Nat) :
    Recorded Solution :=
  let block := flow.blockOf target
  match solution.entries[block]?.join with
  | none => do
      note (.pushed block scopes)
      return ⟨solution.entries.setIfInBounds block (some scopes), solution.waiting ++ [block]⟩
  | some known =>
      if known = scopes then pure solution
      else of (.error (.scope flow.proc position (.mergeMismatch target)))

/-- `Flow.follow` with a record. -/
def follow (flow : Flow) (solution : Solution) (block : Block) (entry : Scopes) :
    Recorded Solution := do
  let after ← walk flow (block.stop - block.start) block.start entry
  let last := block.stop - 1
  match flow.code[last]? with
  | none => return solution
  | some instruction =>
      let targets ← of (flow.successors instruction last after)
      targets.foldlM (carry flow last after) solution

/-- `Flow.advance` with a record of the block that is popped. -/
def advance (flow : Flow) (solution : Solution) : Recorded Solution :=
  match solution.waiting with
  | [] => pure solution
  | index :: waiting => do
      note (.popped index solution.entries[index]?.join)
      match flow.blocks[index]?, solution.entries[index]?.join with
      | some block, some entry => follow flow { solution with waiting } block entry
      | _, _ => return { solution with waiting }

/-- `Flow.advanceBy` with a record. -/
def advanceBy (flow : Flow) : (steps : Nat) → Solution → Recorded Solution
  | 0, solution => pure solution
  | steps + 1, solution =>
      if solution.waiting.isEmpty then pure solution
      else advance flow solution >>= advanceBy flow steps

/-- At most `steps` turns of the loop, with a record. The first block waits from the start. -/
def run (flow : Flow) (steps : Nat) : Recorded Solution := do
  note (.pushed 0 [])
  advanceBy flow steps flow.start

section
variable (flow : Flow)

/-- Without the record, walking is that of the verifier. -/
theorem walk_result (count position : Nat) (scopes : Scopes) :
    (walk flow count position scopes).result = flow.walk count position scopes := by
  induction count generalizing position scopes with
  | zero => rfl
  | succ count ih =>
      rw [walk, Flow.walk]
      cases flow.code[position]? with
      | none => rfl
      | some instruction =>
          dsimp only
          rw [bind_of_ok rfl]
          dsimp only
          cases scopes.step flow.context instruction with
          | error violation => rfl
          | ok after => exact ih (position + 1) after

/-- Without the record, carrying is that of the verifier. -/
theorem carry_result (position : Nat) (scopes : Scopes) (solution : Solution) (target : Nat) :
    (carry flow position scopes solution target).result =
      flow.carry position scopes solution target := by
  unfold carry Flow.carry Flow.blockOf
  dsimp only
  cases solution.entries[flow.blockAt[target]?.getD 0]?.join with
  | none => rfl
  | some known =>
      dsimp only
      split <;> rfl

/-- Without the record, carrying to all targets is that of the verifier. -/
theorem foldlM_carry_result (position : Nat) (scopes : Scopes) (targets : List Nat)
    (solution : Solution) :
    (targets.foldlM (carry flow position scopes) solution).result =
      targets.foldlM (flow.carry position scopes) solution := by
  induction targets generalizing solution with
  | nil => rfl
  | cons target targets ih =>
      simp only [List.foldlM_cons, result_bind, carry_result, ih]

/-- Without the record, a block is followed as by the verifier. -/
theorem follow_result (solution : Solution) (block : Block) (entry : Scopes) :
    (follow flow solution block entry).result = flow.follow solution block entry := by
  unfold follow Flow.follow
  rw [result_bind, walk_result]
  congr 1
  funext after
  dsimp only
  cases flow.code[block.stop - 1]? with
  | none => rfl
  | some instruction =>
      dsimp only
      rw [result_bind]
      congr 1
      funext targets
      exact foldlM_carry_result flow (block.stop - 1) after targets solution

/-- Without the record, a turn of the loop is that of the verifier. -/
theorem advance_result (solution : Solution) :
    (advance flow solution).result = flow.advance solution := by
  unfold advance Flow.advance
  cases solution.waiting with
  | nil => rfl
  | cons index waiting =>
      dsimp only
      rw [bind_of_ok rfl]
      dsimp only
      cases flow.blocks[index]? with
      | none => rfl
      | some block =>
          cases solution.entries[index]?.join with
          | none => rfl
          | some entry => exact follow_result flow _ block entry

/-- Without the record, the turns of the loop are those of the verifier. -/
theorem advanceBy_result (steps : Nat) (solution : Solution) :
    (advanceBy flow steps solution).result = flow.advanceBy steps solution := by
  induction steps generalizing solution with
  | zero => rfl
  | succ steps ih =>
      unfold advanceBy Flow.advanceBy
      split
      · rfl
      · simp only [result_bind, advance_result, ih]

/-- **The loop with its record is the loop of the verifier.** -/
theorem run_result (steps : Nat) : (run flow steps).result = flow.advanceBy steps flow.start := by
  unfold run
  rw [bind_of_ok rfl]
  exact advanceBy_result flow steps flow.start

end

/-! ### The tally -/

/-- The positions of the block at an index. -/
def positionsAt (flow : Flow) (index : Nat) : List Nat :=
  (flow.blocks[index]?.map Block.positions).getD []

/-- What holds of the record at any time, also when the loop has failed. -/
structure Frugal (flow : Flow) (moves : List Move) : Prop where
  /-- No block is pushed twice. -/
  once : ((Move.pushes moves).map Prod.fst).Nodup
  /-- Only blocks of the procedure are pushed. -/
  inside : ∀ push ∈ Move.pushes moves, push.1 < flow.blocks.size
  /-- Blocks are popped in the order in which they are pushed, and each still has the entry that it
  got then. -/
  inOrder : Move.pops moves <+: (Move.pushes moves).map Move.found
  /-- The instructions stepped are those of the blocks popped, in order. -/
  stepped : Move.steps moves <+: (Move.pops moves).flatMap fun pop => positionsAt flow pop.1

/-- What holds of the record between two turns of the loop, and between two targets of one turn. -/
structure Tally (flow : Flow) (solution : Solution) (moves : List Move) : Prop where
  /-- There is one cell for each block. -/
  size : solution.entries.size = flow.blocks.size
  /-- The blocks with an entry are those that have been pushed with it. -/
  entries : ∀ {index : Nat} {entry : Scopes},
    Decides solution.entries index entry ↔ (index, entry) ∈ Move.pushes moves
  /-- No block has been pushed twice. -/
  once : ((Move.pushes moves).map Prod.fst).Nodup
  /-- Of the blocks pushed, the first have been popped, and the others wait. -/
  queue : ∃ served waiting, Move.pushes moves = served ++ waiting ∧
    Move.pops moves = served.map Move.found ∧ solution.waiting = waiting.map Prod.fst
  /-- The instructions of the popped blocks have been stepped. -/
  stepped : Move.steps moves = (Move.pops moves).flatMap fun pop => positionsAt flow pop.1

section
variable {flow : Flow} {solution : Solution} {moves : List Move}

/-- What has been pushed is a block of the procedure. -/
theorem Tally.inside (tally : Tally flow solution moves) {push : Nat × Scopes}
    (member : push ∈ Move.pushes moves) : push.1 < flow.blocks.size := by
  have decided := tally.entries.mpr member
  rw [← tally.size]
  apply Classical.byContradiction
  intro outside
  unfold Decides at decided
  rw [Array.getElem?_eq_none (Nat.le_of_not_lt outside)] at decided
  cases decided

/-- The record of the tally is frugal. -/
theorem Tally.frugal (tally : Tally flow solution moves) : Frugal flow moves where
  once := tally.once
  inside := fun _ member => tally.inside member
  inOrder := by
    obtain ⟨served, waiting, pushes, pops, -⟩ := tally.queue
    rw [pushes, pops, List.map_append]
    exact List.prefix_append _ _
  stepped := ⟨[], by rw [List.append_nil, tally.stepped]⟩

/-- The tally at the start: the first block waits. -/
theorem tally_start (cut : Cut flow.code flow.blocks flow.blockAt) :
    Tally flow flow.start [.pushed 0 []] where
  size := by simp [Flow.start]
  entries := by
    intro index entry
    rw [decides_start_iff cut]
    simp [Move.pushes, Move.push?]
  once := List.pairwise_singleton _ 0
  queue := ⟨[], [(0, [])], rfl, rfl, rfl⟩
  stepped := rfl

/-- The block that waits first is there, and has been pushed with the entry that it has now. -/
theorem Tally.first (tally : Tally flow solution moves) {index : Nat} {waiting : List Nat}
    (waits : solution.waiting = index :: waiting) :
    ∃ block entry served rest, flow.blocks[index]? = some block ∧
      Decides solution.entries index entry ∧ Move.pushes moves = served ++ (index, entry) :: rest ∧
      Move.pops moves = served.map Move.found ∧ waiting = rest.map Prod.fst := by
  obtain ⟨served, pending, pushes, pops, queued⟩ := tally.queue
  rw [waits] at queued
  cases pending with
  | nil => cases queued
  | cons push rest =>
      obtain ⟨rfl, rfl⟩ := List.cons.inj queued
      have member : push ∈ Move.pushes moves := by
        rw [pushes]
        exact List.mem_append_right _ List.mem_cons_self
      exact ⟨_, push.2, served, rest, Array.getElem?_eq_getElem (tally.inside member),
        tally.entries.mpr member, pushes, pops, rfl⟩

/-- The record while the block that waits first is popped and walked through. -/
theorem Tally.pop (tally : Tally flow solution moves) {index : Nat} {entry : Scopes}
    {served rest : List (Nat × Scopes)}
    (pushes : Move.pushes moves = served ++ (index, entry) :: rest)
    (pops : Move.pops moves = served.map Move.found) {block : Block}
    (found : flow.blocks[index]? = some block) {reached : Nat}
    (within : reached ≤ block.stop - block.start) :
    let after := moves ++ [.popped index (some entry)] ++
      (List.range' block.start reached).map .stepped
    Frugal flow after ∧ (reached = block.stop - block.start →
      Tally flow { solution with waiting := rest.map Prod.fst } after) := by
  intro after
  have pushesAfter : Move.pushes after = Move.pushes moves := Move.pushes_walked ..
  have stepsAfter : Move.steps after = Move.steps moves ++ List.range' block.start reached :=
    Move.steps_walked ..
  have popsAfter : Move.pops after = (served ++ [(index, entry)]).map Move.found := by
    rw [List.map_append, ← pops]
    exact Move.pops_walked ..
  -- the instructions of all blocks that have been popped, the last of them included
  have walked : (Move.pops after).flatMap (fun pop => positionsAt flow pop.1) =
      Move.steps moves ++ block.positions := by
    have here : positionsAt flow index = block.positions := by
      unfold positionsAt
      rw [found]
      rfl
    rw [popsAfter, List.map_append, List.flatMap_append, ← pops, ← tally.stepped, ← here]
    exact congrArg (_ ++ ·) (List.append_nil _)
  refine ⟨⟨?_, ?_, ?_, ?_⟩, ?_⟩
  · rw [pushesAfter]
    exact tally.once
  · rw [pushesAfter]
    exact fun push member => tally.inside member
  · rw [popsAfter, pushesAfter, pushes, List.append_cons served (index, entry) rest]
    exact (List.prefix_append _ rest).map Move.found
  · -- what is left of the block has not been stepped yet
    rw [walked, stepsAfter, List.prefix_append_right_inj]
    refine ⟨List.range' (block.start + reached) (block.stop - block.start - reached), ?_⟩
    unfold Block.positions
    rw [List.range'_append_1]
    congr 1
    omega
  · rintro rfl
    refine ⟨tally.size, ?_, ?_, ⟨served ++ [(index, entry)], rest, ?_, popsAfter, rfl⟩, ?_⟩
    · rw [pushesAfter]
      exact tally.entries
    · rw [pushesAfter]
      exact tally.once
    · rw [pushesAfter, pushes, List.append_cons]
    · rw [walked, stepsAfter]
      rfl

/-- The tally after a block without an entry has been pushed. -/
theorem Tally.push (tally : Tally flow solution moves) {block : Nat} (scopes : Scopes)
    (inside : block < flow.blocks.size) (undecided : solution.entries[block]?.join = none) :
    Tally flow ⟨solution.entries.setIfInBounds block (some scopes), solution.waiting ++ [block]⟩
      (moves ++ [.pushed block scopes]) := by
  obtain ⟨served, waiting, pushes, pops, queued⟩ := tally.queue
  have pushesAfter : Move.pushes (moves ++ [.pushed block scopes]) =
      Move.pushes moves ++ [(block, scopes)] := Move.pushes_append moves _
  have popsAfter : Move.pops (moves ++ [.pushed block scopes]) = Move.pops moves := by
    rw [Move.pops_append]
    exact List.append_nil _
  have stepsAfter : Move.steps (moves ++ [.pushed block scopes]) = Move.steps moves := by
    rw [Move.steps_append]
    exact List.append_nil _
  refine ⟨?_, ?_, ?_, ⟨served, waiting ++ [(block, scopes)], ?_, ?_, ?_⟩, ?_⟩
  · rw [Array.size_setIfInBounds]
    exact tally.size
  · intro index entry
    rw [decides_set_iff (by rw [tally.size]; exact inside) undecided, tally.entries, pushesAfter,
      List.mem_append, List.mem_singleton, Prod.mk.injEq]
  · -- a block that has been pushed has an entry
    rw [pushesAfter, List.map_append, List.map_singleton, List.nodup_append]
    refine ⟨tally.once, List.pairwise_singleton _ _, ?_⟩
    intro pushed member other same
    rw [List.mem_singleton.mp same]
    rintro rfl
    obtain ⟨push, isPushed, rfl⟩ := List.mem_map.mp member
    have decided := tally.entries.mpr isPushed
    unfold Decides at decided
    rw [undecided] at decided
    cases decided
  · rw [pushesAfter, pushes, List.append_assoc]
  · rw [popsAfter, pops]
  · rw [queued, List.map_append]
    rfl
  · rw [stepsAfter, popsAfter]
    exact tally.stepped

/-! ### What the loop does -/

/-- Walking steps one instruction after the other, all of them if it succeeds. -/
theorem exists_walk_moves {count position : Nat} (scopes : Scopes)
    (inside : position + count ≤ flow.code.size) :
    ∃ reached ≤ count,
      (walk flow count position scopes).moves = (List.range' position reached).map .stepped ∧
      ((∃ after, (walk flow count position scopes).result = .ok after) → reached = count) := by
  induction count generalizing position scopes with
  | zero => exact ⟨0, Nat.le_refl 0, rfl, fun _ => rfl⟩
  | succ count ih =>
      have here : flow.code[position]? = some flow.code[position] :=
        Array.getElem?_eq_getElem (by omega)
      rw [walk, here]
      dsimp only
      rw [bind_of_ok rfl]
      dsimp only
      cases scopes.step flow.context flow.code[position] with
      | error violation =>
          refine ⟨1, by omega, rfl, ?_⟩
          rintro ⟨after, succeeds⟩
          cases succeeds
      | ok after =>
          obtain ⟨reached, le, moves, all⟩ := @ih (position + 1) after (by omega)
          refine ⟨reached + 1, by omega, ?_, fun succeeds => by rw [all succeeds]⟩
          dsimp only
          rw [moves]
          rfl

/-- Carrying to one target keeps the tally. -/
theorem carry_meets (tally : Tally flow solution moves) (position : Nat) (scopes : Scopes)
    {target : Nat} (inside : flow.blockOf target < flow.blocks.size) :
    (carry flow position scopes solution target).Meets moves (Frugal flow) (Tally flow) := by
  unfold carry
  dsimp only
  split
  next undecided => exact meets_note (meets_pure (tally.push scopes inside undecided))
  next known decided =>
    split
    · exact meets_pure tally
    · exact meets_error tally.frugal

/-- Carrying to all targets keeps the tally. -/
theorem foldlM_carry_meets (tally : Tally flow solution moves) (position : Nat) (scopes : Scopes)
    {targets : List Nat} (inside : ∀ target ∈ targets, flow.blockOf target < flow.blocks.size) :
    (targets.foldlM (carry flow position scopes) solution).Meets moves (Frugal flow)
      (Tally flow) := by
  induction targets generalizing solution moves with
  | nil => exact meets_pure tally
  | cons target targets ih =>
      rw [List.foldlM_cons]
      refine (carry_meets tally position scopes (inside target List.mem_cons_self)).bind _ ?_
      intro middle done kept
      exact ih kept fun next member => inside next (List.mem_cons_of_mem _ member)

/-- Following the block that has just been popped keeps the tally. -/
theorem follow_meets (cut : Cut flow.code flow.blocks flow.blockAt)
    (tally : Tally flow solution moves) {index : Nat} {entry : Scopes}
    {served rest : List (Nat × Scopes)}
    (pushes : Move.pushes moves = served ++ (index, entry) :: rest)
    (pops : Move.pops moves = served.map Move.found) {block : Block}
    (found : flow.blocks[index]? = some block) :
    (follow flow { solution with waiting := rest.map Prod.fst } block entry).Meets
      (moves ++ [.popped index (some entry)]) (Frugal flow) (Tally flow) := by
  obtain ⟨nonempty, ends⟩ := cut.bounds found
  obtain ⟨reached, within, walked, all⟩ := exists_walk_moves entry
    (show block.start + (block.stop - block.start) ≤ flow.code.size by omega)
  obtain ⟨frugal, kept⟩ := tally.pop pushes pops found within
  have here : flow.code[block.stop - 1]? = some flow.code[block.stop - 1] :=
    Array.getElem?_eq_getElem (by omega)
  refine Meets.bind (fun _ => Tally flow { solution with waiting := rest.map Prod.fst }) ?_ ?_
  · -- a walk that fails has stepped only the first instructions of the block
    unfold Meets
    rw [walked]
    split
    · exact frugal
    next after returned => exact kept (all ⟨after, returned⟩)
  · intro after done tally
    dsimp only
    rw [here]
    dsimp only
    refine Meets.bind (fun targets done => flow.successors flow.code[block.stop - 1]
      (block.stop - 1) after = .ok targets ∧
        Tally flow { solution with waiting := rest.map Prod.fst } done) ?_ ?_
    · cases successors : flow.successors flow.code[block.stop - 1] (block.stop - 1) after with
      | error error => exact meets_error tally.frugal
      | ok targets => exact meets_pure ⟨rfl, tally⟩
    · rintro targets done ⟨successors, tally⟩
      refine foldlM_carry_meets tally _ after ?_
      intro target member
      -- what follows the last instruction of a block begins a block
      obtain ⟨following, foundNext, -⟩ :=
        blockOf_successor cut found here successors target member
      exact (Array.getElem?_eq_some_iff.mp foundNext).1

/-- **One turn of the loop keeps the tally.** -/
theorem advance_meets (cut : Cut flow.code flow.blocks flow.blockAt)
    (tally : Tally flow solution moves) :
    (advance flow solution).Meets moves (Frugal flow) (Tally flow) := by
  unfold advance
  cases waits : solution.waiting with
  | nil => exact meets_pure tally
  | cons index waiting =>
      obtain ⟨block, entry, served, rest, found, decided, pushes, pops, rfl⟩ := tally.first waits
      unfold Decides at decided
      dsimp only
      rw [decided, found]
      exact meets_note (follow_meets cut tally pushes pops found)

/-- **All turns of the loop keep the tally.** -/
theorem advanceBy_meets (cut : Cut flow.code flow.blocks flow.blockAt) (steps : Nat)
    (tally : Tally flow solution moves) :
    (advanceBy flow steps solution).Meets moves (Frugal flow) (Tally flow) := by
  induction steps generalizing solution moves with
  | zero => exact meets_pure tally
  | succ steps ih =>
      unfold advanceBy
      split
      · exact meets_pure tally
      · exact (advance_meets cut tally).bind _ fun _ _ kept => ih kept

/-- The record of the whole loop. -/
theorem run_meets (cut : Cut flow.code flow.blocks flow.blockAt) (steps : Nat) :
    (run flow steps).Meets [] (Frugal flow) (Tally flow) :=
  meets_note (advanceBy_meets cut steps (tally_start cut))

/-- The record of the loop is frugal, whether the loop fails or not. -/
theorem run_frugal (cut : Cut flow.code flow.blocks flow.blockAt) (steps : Nat) :
    Frugal flow (run flow steps).moves := by
  have meets := run_meets cut steps
  unfold Meets at meets
  split at meets
  · exact meets
  · exact meets.frugal

/-- As long as the loop has not failed, the record tells its entries. -/
theorem run_tally (cut : Cut flow.code flow.blocks flow.blockAt) {steps : Nat}
    (ran : flow.advanceBy steps flow.start = .ok solution) :
    Tally flow solution (run flow steps).moves := by
  have meets := run_meets cut steps
  unfold Meets at meets
  rw [run_result, ran] at meets
  exact meets

/-! ### More turns -/

/-- More turns go on where fewer end. -/
theorem advanceBy_add (fewer more : Nat) (solution : Solution) :
    advanceBy flow (fewer + more) solution =
      advanceBy flow fewer solution >>= advanceBy flow more := by
  induction fewer generalizing solution with
  | zero => rw [Nat.zero_add, advanceBy, Recorded.pure_bind]
  | succ fewer ih =>
      rw [Nat.succ_add, advanceBy, advanceBy]
      split
      next empty =>
        rw [Recorded.pure_bind]
        cases more with
        | zero => rfl
        | succ more => rw [advanceBy, if_pos empty]
      next =>
        rw [Recorded.bind_assoc]
        congr 1
        funext middle
        exact ih middle

/-- More turns go on where fewer end, from the start. -/
theorem run_add (fewer more : Nat) :
    run flow (fewer + more) = run flow fewer >>= advanceBy flow more := by
  unfold run
  rw [Recorded.bind_assoc]
  congr 1
  funext _
  exact advanceBy_add fewer more flow.start

/-- The record of fewer turns is the first part of the record of more. -/
theorem run_moves_begin {fewer more : Nat} (le : fewer ≤ more) :
    (run flow fewer).moves <+: (run flow more).moves := by
  obtain ⟨extra, rfl⟩ := Nat.exists_eq_add_of_le le
  rw [run_add]
  cases returned : (run flow fewer).result with
  | error error =>
      exact ⟨[], by rw [List.append_nil, bind_of_error returned]⟩
  | ok solution =>
      rw [bind_of_ok returned]
      exact List.prefix_append _ _

/-- After as many turns as there are blocks, no block waits. -/
theorem solve_drained (cut : Cut flow.code flow.blocks flow.blockAt)
    (solved : flow.solve = .ok solution) : solution.waiting = [] :=
  ((progress_start cut).advanceBy cut (Nat.le_of_eq (budget_start cut)) solved).2

/-- More turns than blocks do nothing. -/
theorem run_eq_of_le (cut : Cut flow.code flow.blocks flow.blockAt) {steps : Nat}
    (enough : flow.blocks.size ≤ steps) : run flow steps = run flow flow.blocks.size := by
  obtain ⟨extra, rfl⟩ := Nat.exists_eq_add_of_le enough
  rw [run_add]
  cases returned : (run flow flow.blocks.size).result with
  | error error =>
      rw [bind_of_error returned, ← returned]
  | ok solution =>
      have drained : solution.waiting = [] := by
        rw [run_result] at returned
        exact solve_drained cut returned
      have stays : advanceBy flow extra solution = pure solution := by
        cases extra with
        | zero => rfl
        | succ extra => rw [advanceBy, if_pos (List.isEmpty_iff.mpr drained)]
      rw [bind_of_ok returned, stays, result_pure, moves_pure, List.append_nil, ← returned]

end

/-! ### What a frugal record says -/

section
variable {flow : Flow} {moves : List Move}

/-- The positions at an index are those of the block there. -/
theorem mem_positionsAt {index position : Nat} : position ∈ positionsAt flow index ↔
    ∃ block, flow.blocks[index]? = some block ∧ block.start ≤ position ∧ position < block.stop := by
  unfold positionsAt
  cases flow.blocks[index]? with
  | none => simp
  | some block =>
      simp only [Option.map_some, Option.getD_some, Block.positions, List.mem_range'_1,
        Option.some.injEq, exists_eq_left']
      omega

/-- A popped block has the entry with which it has been pushed. -/
theorem Frugal.served (frugal : Frugal flow moves) {block : Nat} {entry : Option Scopes}
    (popped : (block, entry) ∈ Move.pops moves) :
    ∃ scopes, entry = some scopes ∧ (block, scopes) ∈ Move.pushes moves := by
  obtain ⟨push, member, same⟩ := List.mem_map.mp (frugal.inOrder.subset popped)
  cases same
  exact ⟨push.2, rfl, member⟩

/-- No block is popped twice. -/
theorem Frugal.poppedOnce (frugal : Frugal flow moves) :
    ((Move.pops moves).map Prod.fst).Nodup := by
  have inOrder := frugal.inOrder.map Prod.fst
  rw [List.map_map] at inOrder
  exact inOrder.sublist.nodup frugal.once

/-- There are no more visits than blocks. -/
theorem Frugal.visits (frugal : Frugal flow moves) :
    (Move.pops moves).length ≤ flow.blocks.size := by
  rw [← List.length_map (f := Prod.fst), ← List.length_range (n := flow.blocks.size)]
  refine frugal.poppedOnce.length_le_of_subset ?_
  intro block member
  obtain ⟨pop, popped, rfl⟩ := List.mem_map.mp member
  obtain ⟨scopes, -, pushed⟩ := frugal.served popped
  exact List.mem_range.mpr (frugal.inside _ pushed)

/-- No instruction is stepped twice. -/
theorem Frugal.steppedOnce (cut : Cut flow.code flow.blocks flow.blockAt)
    (frugal : Frugal flow moves) : (Move.steps moves).Nodup := by
  refine frugal.stepped.sublist.nodup ?_
  unfold List.Nodup
  rw [List.pairwise_flatMap]
  refine ⟨?_, ?_⟩
  · intro pop _
    unfold positionsAt
    cases flow.blocks[pop.1]? with
    | none => exact List.Pairwise.nil
    | some block => exact List.nodup_range' 1
  · -- an instruction is in one block only
    have poppedOnce := frugal.poppedOnce
    unfold List.Nodup at poppedOnce
    rw [List.pairwise_map] at poppedOnce
    refine poppedOnce.imp ?_
    intro pop other distinct position here there there' same
    subst same
    obtain ⟨block, found, low, high⟩ := mem_positionsAt.mp here
    obtain ⟨block', found', low', high'⟩ := mem_positionsAt.mp there'
    have first := cut.blockAt_eq found low high
    rw [cut.blockAt_eq found' low' high'] at first
    exact distinct (Option.some.inj first).symm

end

/-- What the worklist of a procedure does. Each statement is about any number of turns, and also
about a loop that fails. -/
structure Drains (flow : Flow) : Prop where
  /-- The record is that of the verifier's own loop. -/
  faithful : ∀ steps, (run flow steps).result = flow.advanceBy steps flow.start
  /-- No block is pushed twice, counting the first block that waits at the start. -/
  pushedOnce : ∀ steps, ((Move.pushes (run flow steps).moves).map Prod.fst).Nodup
  /-- Blocks are popped in the order in which they are pushed, and each has the entry that it got
  when it was pushed. -/
  inOrder : ∀ steps, Move.pops (run flow steps).moves <+:
    (Move.pushes (run flow steps).moves).map Move.found
  /-- The entries are those that the pushed blocks got. -/
  entries : ∀ {steps : Nat} {solution : Solution},
    flow.advanceBy steps flow.start = .ok solution → ∀ index entry,
      Decides solution.entries index entry ↔ (index, entry) ∈ Move.pushes (run flow steps).moves
  /-- An entry, once set, is there after any number of further turns. -/
  kept : ∀ {fewer more : Nat} {before after : Solution}, fewer ≤ more →
    flow.advanceBy fewer flow.start = .ok before → flow.advanceBy more flow.start = .ok after →
      ∀ {index entry}, Decides before.entries index entry → Decides after.entries index entry
  /-- No block is popped twice, so there are no more visits than blocks. -/
  visits : ∀ steps, ((Move.pops (run flow steps).moves).map Prod.fst).Nodup ∧
    (Move.pops (run flow steps).moves).length ≤ flow.blocks.size
  /-- No instruction is stepped twice, and only those of the popped blocks are. -/
  stepped : ∀ steps, (Move.steps (run flow steps).moves).Nodup ∧
    ∀ position ∈ Move.steps (run flow steps).moves, position < flow.code.size ∧
      ∃ pop ∈ Move.pops (run flow steps).moves, position ∈ positionsAt flow pop.1
  /-- As many turns as there are blocks are all turns that there are: the loop has failed, or no
  block waits, and more turns do nothing. -/
  ends : ∀ steps, flow.blocks.size ≤ steps → run flow steps = run flow flow.blocks.size ∧
    ∀ solution, flow.advanceBy steps flow.start = .ok solution → solution.waiting = []

/-- The worklist drains if the blocks cut the code. -/
theorem drains_of_cut {flow : Flow} (cut : Cut flow.code flow.blocks flow.blockAt) :
    Drains flow where
  faithful := run_result flow
  pushedOnce := fun steps => (run_frugal cut steps).once
  inOrder := fun steps => (run_frugal cut steps).inOrder
  entries := fun ran _ _ => (run_tally cut ran).entries
  kept := by
    intro fewer more before after le ran ranOn index entry decided
    have pushed := (run_tally cut ran).entries.mp decided
    refine (run_tally cut ranOn).entries.mpr ?_
    exact ((run_moves_begin le).filterMap Move.push?).subset pushed
  visits := fun steps => ⟨(run_frugal cut steps).poppedOnce, (run_frugal cut steps).visits⟩
  stepped := by
    intro steps
    refine ⟨(run_frugal cut steps).steppedOnce cut, ?_⟩
    intro position stepped
    obtain ⟨pop, popped, here⟩ :=
      List.mem_flatMap.mp ((run_frugal cut steps).stepped.subset stepped)
    obtain ⟨block, found, -, high⟩ := mem_positionsAt.mp here
    exact ⟨Nat.lt_of_lt_of_le high (cut.bounds found).2, pop, popped, here⟩
  ends := by
    intro steps enough
    refine ⟨run_eq_of_le cut enough, ?_⟩
    intro solution ran
    rw [← run_result, run_eq_of_le cut enough, run_result] at ran
    exact solve_drained cut ran

end Worklist

/-! ### Procedures -/

/-- The procedure under verification, as the worklist finds it. -/
def Flow.ofProc (module : Module) (proc : ProcId) : Except Error Flow := do
  let context ← orError (.missing (.procedure proc)) (ScopeContext.of? module proc)
  let declared ← orError (.missing (.procedure proc)) (module.proc? proc)
  let code ← liftCodec declared.instructions
  if code.isEmpty then throw (.scope proc 0 .fallsOffEnd)
  Flow.of context proc code

/-- To verify a procedure is to run the worklist on it. -/
theorem verifyProc_eq (module : Module) (proc : ProcId) :
    verifyProc module proc =
      Flow.ofProc module proc >>= fun flow => flow.solve >>= fun _ => pure () := by
  unfold verifyProc solveProc Flow.ofProc
  simp only [bind_assoc]
  congr 1
  funext context
  congr 1
  funext declared
  congr 1
  funext code
  split
  · rfl
  · simp only [bind_assoc, pure_bind]

/-- What has been cut is the code of the procedure, which is not empty. -/
theorem cut_of_ofProc {module : Module} {proc : ProcId} {flow : Flow}
    (isFlow : Flow.ofProc module proc = .ok flow) : Cut flow.code flow.blocks flow.blockAt := by
  unfold Flow.ofProc at isFlow
  simp only [bind_eq_ok] at isFlow
  obtain ⟨context, -, declared, -, code, -, isFlow⟩ := isFlow
  split at isFlow
  · cases isFlow
  next nonempty =>
    unfold Flow.of at isFlow
    obtain ⟨blocks, basic, made⟩ := bind_eq_ok.mp isFlow
    cases made
    have some : code ≠ #[] := fun empty => nonempty (by rw [empty]; rfl)
    exact cut_of_basicBlocks (Array.size_pos_iff.mpr some) basic

/-- **The worklist drains.** A procedure is verified by a loop that, for every module and every
procedure, pushes each block at most once, finds an entry for every block that it pops, never
changes an entry, visits each block and steps each instruction at most once, and ends. -/
theorem worklist_drains (module : Module) (proc : ProcId) :
    verifyProc module proc = (Flow.ofProc module proc >>= fun flow =>
      (Worklist.run flow flow.blocks.size).result >>= fun _ => pure ()) ∧
    ∀ flow, Flow.ofProc module proc = .ok flow → Worklist.Drains flow := by
  refine ⟨?_, fun flow isFlow => Worklist.drains_of_cut (cut_of_ofProc isFlow)⟩
  rw [verifyProc_eq]
  congr 1
  funext flow
  rw [Worklist.run_result]
  rfl

/-- The worklist of the factorial sample, whose code has a loop. The block of the loop, at index 1,
is popped last, and the jump at its end pushes nothing. -/
theorem factorial_drains : ∃ flow, Flow.ofProc Samples.factorialModule Samples.entry = .ok flow ∧
    Worklist.Drains flow ∧
    Move.pops (Worklist.run flow flow.blocks.size).moves =
      [(0, some []), (2, some [⟨2, by decide⟩]), (1, some [⟨2, by decide⟩])] ∧
    Move.steps (Worklist.run flow flow.blocks.size).moves = [0, 1, 2, 6, 7, 8, 3, 4, 5] := by
  have record : (Flow.ofProc Samples.factorialModule Samples.entry).map (fun flow =>
      let moves := (Worklist.run flow flow.blocks.size).moves
      (Move.pops moves, Move.steps moves)) =
    .ok ([(0, some []), (2, some [⟨2, by decide⟩]), (1, some [⟨2, by decide⟩])],
      [0, 1, 2, 6, 7, 8, 3, 4, 5]) := rfl
  obtain ⟨flow, isFlow, same⟩ := map_eq_ok.mp record
  obtain ⟨pops, steps⟩ := Prod.mk.inj same
  exact ⟨flow, isFlow, (worklist_drains _ _).2 flow isFlow, pops.symm, steps.symm⟩

end ScopeMachine
