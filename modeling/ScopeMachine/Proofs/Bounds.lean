import ScopeMachine.Proofs.Compactness
import ScopeMachine.Proofs.Verification

/-! # Reaching into tables directly

Reading and verifying code look up cells of tables by positions that come from the code itself. Here
the same computations are written with direct access: a cell that is not there, a range that leaves
its table and a loop that does not come to an end stop the computation, each in a way of its own
that no error can be mistaken for. They never do, because the checks that are made on the way keep
every position inside, so that the computation with direct access gives what the one without gives.

* `Stop` tells the refusals of a computation from the stops that direct access adds, and
  `Direct.lift` is a computation that has refusals only;
* `Direct.cell`, `Direct.setCell`, `Direct.cellsFrom` and `Direct.fill` are the ways of access;
* `Direct.readStream_eq`, `Direct.check_eq` and `Direct.verifyProc_eq` are what is read, tracked and
  verified. -/

namespace ScopeMachine

/-- Why a computation with direct access stops before its end. -/
inductive Stop (ε : Type) where
  /-- It refuses what it was given. -/
  | refused (error : ε)
  /-- It reaches for a position outside a table of the given size. -/
  | outside (position size : Nat)
  /-- A loop has used up its rounds. -/
  | endless

namespace Direct

/-! ### Access -/

section
variable {ε ε' α β : Type}

/-- A computation whose only stops are refusals. -/
def lift : Except ε α → Except (Stop ε) α
  | .ok value => .ok value
  | .error error => .error (.refused error)

/-- The same computation with its refusals seen as errors of another kind. -/
def refusing (change : ε → ε') : Except (Stop ε) α → Except (Stop ε') α
  | .ok value => .ok value
  | .error (.refused error) => .error (.refused (change error))
  | .error (.outside position size) => .error (.outside position size)
  | .error .endless => .error .endless

/-- The cell at a position. -/
def cell (cells : Array α) (position : Nat) : Except (Stop ε) α :=
  match cells[position]? with
  | some value => .ok value
  | none => .error (.outside position cells.size)

/-- The table with another value at a position. -/
def setCell (cells : Array α) (position : Nat) (value : α) : Except (Stop ε) (Array α) :=
  if position < cells.size then .ok (cells.setIfInBounds position value)
  else .error (.outside position cells.size)

/-- The cells from a position on. -/
def cellsFrom (cells : Array α) (position : Nat) : Except (Stop ε) (List α) :=
  if position ≤ cells.size then .ok (cells.toList.drop position)
  else .error (.outside position cells.size)

/-- The table with one value in the cells from `start` up to but not including `stop`. -/
def fill (cells : Array α) (start stop : Nat) (value : α) : Except (Stop ε) (Array α) :=
  if start ≤ stop ∧ stop ≤ cells.size then
    .ok (cells.toList.take start ++ List.replicate (stop - start) value
      ++ cells.toList.drop stop).toArray
  else .error (.outside stop cells.size)

/-- The position before another. -/
def before (position : Nat) : Except (Stop ε) Nat :=
  if 0 < position then .ok (position - 1) else .error (.outside position 0)

/-- Lifting goes step by step. -/
theorem lift_bind (first : Except ε α) (second : α → Except ε β) :
    lift (first >>= second) = lift first >>= fun value => lift (second value) := by
  cases first <;> rfl

/-- A lifted computation has its refusals changed where they arise. -/
theorem refusing_lift (change : ε → ε') (result : Except ε α) :
    refusing change (lift result) = lift (result.mapError change) := by
  cases result <;> rfl

/-- A cell that is there. -/
theorem cell_eq {cells : Array α} {position : Nat} {value : α}
    (found : cells[position]? = some value) :
    (cell cells position : Except (Stop ε) α) = .ok value := by
  rw [cell, found]

/-- A cell inside the table is there. -/
theorem cell_of_lt {cells : Array α} {position : Nat} (inside : position < cells.size) :
    (cell cells position : Except (Stop ε) α) = .ok cells[position] :=
  cell_eq (Array.getElem?_eq_getElem inside)

/-- A cell inside the table can be set. -/
theorem setCell_of_lt {cells : Array α} {position : Nat} (inside : position < cells.size)
    (value : α) :
    (setCell cells position value : Except (Stop ε) (Array α)) =
      .ok (cells.setIfInBounds position value) :=
  if_pos inside

end

/-! ### Reading a stream -/

/-- Read a table of bytes as instructions from a position on, each from the bytes that are left. -/
def readStream (code : Array UInt8) : (rounds position : Nat) → (read : Array Instruction) →
    Except (Stop CodecError) (Array Instruction)
  | 0, position, read => if code.size ≤ position then .ok read else .error .endless
  | rounds + 1, position, read =>
      if code.size ≤ position then .ok read
      else do
        let rest ← cellsFrom code position
        match Instruction.decode rest with
        | .error error => .error (.refused (error.shift position))
        | .ok (instruction, used) =>
            readStream code rounds (position + used) (read.push instruction)

end Direct

/-- **Reading an instruction takes at least one byte**, and none that is not there. -/
theorem Instruction.used_of_decode {bytes : List UInt8} {instruction : Instruction} {used : Nat}
    (decoded : decode bytes = .ok (instruction, used)) : 1 ≤ used ∧ used ≤ bytes.length := by
  obtain ⟨shortest, inside⟩ := length_encode_le_of_decode decoded
  have opcode : 1 ≤ instruction.encode.length := Nat.le_add_left 1 _
  exact ⟨Nat.le_trans opcode shortest, inside⟩

/-- The reader of a stream goes on behind the bytes that an instruction took. -/
theorem Instruction.decodeFrom_of_decode {bytes : List UInt8} {instruction : Instruction}
    {used : Nat} (decoded : decode bytes = .ok (instruction, used)) (position : Nat)
    (read : Array Instruction) :
    decodeFrom 0 position read bytes =
      decodeFrom 0 (position + used) (read.push instruction) (bytes.drop used) := by
  obtain ⟨some, inside⟩ := used_of_decode decoded
  cases bytes with
  | nil => cases decoded
  | cons byte rest =>
      obtain ⟨used, rfl⟩ : ∃ more, used = more + 1 := ⟨used - 1, by omega⟩
      have split : rest = rest.take used ++ rest.drop used := (List.take_append_drop ..).symm
      have taken : (rest.take used).length = used :=
        List.length_take_of_le (Nat.le_of_succ_le_succ inside)
      rw [decodeFrom, decoded, List.drop_succ_cons]
      dsimp only
      rw [Nat.add_sub_cancel]
      have skipped := decodeFrom_skip (rest.take used) (position + 1) (read.push instruction)
        (rest.drop used)
      rw [taken, ← split, Nat.add_assoc, Nat.add_comm 1] at skipped
      exact skipped

namespace Direct

/-- **Streams are read within their bytes, and to the end**: each round takes at least one byte. -/
theorem readStream_eq (code : Array UInt8) {rounds position : Nat}
    (enough : code.size ≤ position + rounds) (read : Array Instruction) :
    readStream code rounds position read =
      lift (Instruction.decodeFrom 0 position read (code.toList.drop position)) := by
  have atEnd : ∀ {position : Nat}, code.size ≤ position → code.toList.drop position = [] := by
    intro position ends
    exact List.drop_eq_nil_of_le ends
  induction rounds generalizing position read with
  | zero =>
      have ends : code.size ≤ position := enough
      rw [readStream, if_pos ends, atEnd ends, Instruction.decodeFrom]
      rfl
  | succ rounds ih =>
      rw [readStream]
      by_cases ends : code.size ≤ position
      · rw [if_pos ends, atEnd ends, Instruction.decodeFrom]
        rfl
      · have slice : (cellsFrom code position : Except (Stop CodecError) (List UInt8)) =
            .ok (code.toList.drop position) := if_pos (Nat.le_of_not_le ends)
        rw [if_neg ends, slice]
        show (match Instruction.decode (code.toList.drop position) with
          | .error error => _
          | .ok (instruction, used) => _ : Except (Stop CodecError) (Array Instruction)) = _
        cases decoded : Instruction.decode (code.toList.drop position) with
        | error error =>
            obtain ⟨byte, rest, more⟩ : ∃ byte rest, code.toList.drop position = byte :: rest :=
              List.exists_cons_of_ne_nil fun empty => ends (List.drop_eq_nil_iff.mp empty)
            rw [more] at decoded ⊢
            rw [Instruction.decodeFrom, decoded]
            rfl
        | ok result =>
            obtain ⟨instruction, used⟩ := result
            have taken := (Instruction.used_of_decode decoded).1
            rw [Instruction.decodeFrom_of_decode decoded, List.drop_drop]
            exact ih (by omega) _

/-- The instructions of a procedure, read with as many rounds as it has bytes. -/
def instructions (proc : ProcDef) : Except (Stop Error) (Array Instruction) :=
  refusing Error.ofCodec (readStream proc.code proc.code.size 0 #[])

/-- The instructions of a procedure are read within its bytes. -/
theorem instructions_eq (proc : ProcDef) :
    instructions proc = lift (liftCodec proc.instructions) := by
  have read := readStream_eq proc.code (Nat.le_add_left proc.code.size 0) #[]
  rw [instructions, read, refusing_lift, List.drop_zero]
  show lift (Except.mapError Error.ofCodec proc.instructions) = _
  cases proc.instructions <;> rfl

/-! ### Tracking scopes -/

/-- The open scopes known at the target of a jump at the next position. -/
def knownAt (tracker : Tracker) (entry : Scopes) (target : Nat) :
    Except (Stop ScopeViolation) (Option Scopes) :=
  if target = tracker.size then .ok (some entry)
  else if target < tracker.size then cell tracker.entries target
  else .ok (tracker.pending.lookup target)

/-- What a jump at the next position adds. -/
def checkJump (tracker : Tracker) (entry after : Scopes) (target : Nat) :
    Except (Stop ScopeViolation) (Option (Nat × Scopes)) := do
  match ← knownAt tracker entry target with
  | some known => if known = after then return none else throw (.refused (.mergeMismatch target))
  | none => return if tracker.size < target then some (target, after) else none

/-- Check an instruction at the next position. -/
def check (tracker : Tracker) (context : ScopeContext) (instruction : Instruction) :
    Except (Stop ScopeViolation) Tracker.Update := do
  match ← lift tracker.nextEntry with
  | none => return ⟨none, none, none⟩
  | some entry =>
      let after ← lift (entry.step context instruction)
      let forward ← match instruction.jumpTarget? tracker.size with
        | none => pure none
        | some target => checkJump tracker entry after target
      return ⟨some entry, forward, if instruction.isTerminator then none else some after⟩

/-- A jump backwards leads to an instruction that has been tracked. -/
theorem knownAt_eq (tracker : Tracker) (entry : Scopes) (target : Nat) :
    knownAt tracker entry target = .ok (tracker.knownAt entry target) := by
  unfold knownAt Tracker.knownAt
  by_cases here : target = tracker.size
  · rw [if_pos here, if_pos here]
  · rw [if_neg here, if_neg here]
    by_cases backwards : target < tracker.size
    · rw [if_pos backwards, if_pos backwards, cell_of_lt backwards,
        Array.getElem?_eq_getElem backwards]
      rfl
    · rw [if_neg backwards, if_neg backwards]

/-- **Instructions are tracked within the tracker.** -/
theorem check_eq (tracker : Tracker) (context : ScopeContext) (instruction : Instruction) :
    check tracker context instruction = lift (tracker.check context instruction) := by
  have jump : ∀ entry after target, checkJump tracker entry after target =
      lift (tracker.checkJump entry after target) := by
    intro entry after target
    unfold checkJump Tracker.checkJump
    rw [knownAt_eq]
    show (match tracker.knownAt entry target with
      | some known => _
      | none => _ : Except (Stop ScopeViolation) (Option (Nat × Scopes))) = _
    cases tracker.knownAt entry target with
    | none => rfl
    | some known =>
        by_cases same : known = after
        · simp only [if_pos same]
          rfl
        · simp only [if_neg same]
          rfl
  unfold check Tracker.check
  rw [lift_bind]
  congr 1
  funext entry
  cases entry with
  | none => rfl
  | some entry =>
      dsimp only
      rw [lift_bind]
      congr 1
      funext after
      cases instruction.jumpTarget? tracker.size with
      | none => rfl
      | some target =>
          dsimp only
          rw [lift_bind, jump]
          rfl

/-! ### Cutting code into blocks -/

/-- Mark the positions that an instruction makes the start of a block. -/
def mark (proc : ProcId) (size : Nat) (marks : Array Bool) (instruction : Instruction)
    (position : Nat) : Except (Stop Error) (Array Bool) := do
  let marks ← match instruction.jumpOffset? with
    | none => pure marks
    | some offset =>
        match (instruction.jumpTarget? position).filter (· < size) with
        | some target => setCell marks target true
        | none => throw (.refused (.range (.jumpOutside position proc offset.toInt)))
  if (instruction.isJump || instruction.isTerminator) && position + 1 < size then
    setCell marks (position + 1) true
  else pure marks

/-- Which positions start a block. -/
def leaders (proc : ProcId) (code : Array Instruction) : Except (Stop Error) (Array Bool) := do
  let marks ← setCell (Array.replicate code.size false) 0 true
  code.toList.zipIdx.foldlM (fun marks entry => mark proc code.size marks entry.1 entry.2) marks

/-- The basic blocks of a procedure's code, in order. -/
def basicBlocks (proc : ProcId) (code : Array Instruction) :
    Except (Stop Error) (Array Block) := do
  let marks ← leaders proc code
  let starts ← (List.range code.size).filterM (cell marks)
  return (ControlFlow.blocksFrom code.size starts).toArray

/-- For each position, the index of the block that it belongs to: one block after the other is
written into the table. -/
def blockIndices (size : Nat) (blocks : Array Block) : Except (Stop Error) (Array Nat) :=
  blocks.toList.zipIdx.foldlM (fun cells entry => fill cells entry.1.start entry.1.stop entry.2)
    (Array.replicate size 0)

open ControlFlow in
/-- Marks are made inside the table, which keeps its size. -/
theorem mark_eq (proc : ProcId) (marks : Array Bool) (instruction : Instruction) (position : Nat) :
    mark proc marks.size marks instruction position =
      lift (markLeaders proc marks instruction position) := by
  have behind : ∀ changed : Array Bool, changed.size = marks.size →
      (if (instruction.isJump || instruction.isTerminator) && position + 1 < marks.size then
        setCell changed (position + 1) true else pure changed) =
      lift (pure (if instruction.isJump || instruction.isTerminator then
        changed.setIfInBounds (position + 1) true else changed) : Except Error (Array Bool)) := by
    intro changed size
    by_cases parts : (instruction.isJump || instruction.isTerminator) = true
    · by_cases more : position + 1 < marks.size
      · simp only [parts, more, decide_true, Bool.and_self, if_true]
        rw [setCell_of_lt (by omega)]
        rfl
      · have same : changed.setIfInBounds (position + 1) true = changed := by
          rw [Array.setIfInBounds_def, dif_neg (by omega)]
        simp only [parts, more, decide_false, Bool.and_false, Bool.false_eq_true, if_false,
          if_true, same]
        rfl
    · simp only [Bool.not_eq_true] at parts
      simp only [parts, Bool.false_and, Bool.false_eq_true, if_false]
      rfl
  unfold mark markLeaders
  cases instruction.jumpOffset? with
  | none => exact behind marks rfl
  | some offset =>
      dsimp only
      cases instruction.jumpTarget? position with
      | none => rfl
      | some target =>
          by_cases inside : target < marks.size
          · simp only [Option.filter, inside, decide_true, if_true]
            rw [setCell_of_lt inside]
            exact behind (marks.setIfInBounds target true) (by simp)
          · simp only [Option.filter, inside, decide_false, if_false, Bool.false_eq_true]
            rfl

/-- A fold over computations that can be lifted one by one, as long as an invariant is kept. -/
theorem foldlM_lift {ε α β : Type} {direct : β → α → Except (Stop ε) β} {step : β → α → Except ε β}
    (invariant : β → Prop) {items : List α} {start : β} (held : invariant start)
    (agree : ∀ item ∈ items, ∀ value, invariant value → direct value item = lift (step value item))
    (keeps : ∀ item ∈ items, ∀ value next, invariant value → step value item = .ok next →
      invariant next) :
    items.foldlM direct start = lift (items.foldlM step start) := by
  induction items generalizing start with
  | nil => rfl
  | cons item items ih =>
      rw [List.foldlM_cons, List.foldlM_cons, agree item List.mem_cons_self start held, lift_bind]
      cases stepped : step start item with
      | error error => rfl
      | ok next =>
          exact ih (keeps item List.mem_cons_self start next held stepped)
            (fun other member => agree other (List.mem_cons_of_mem _ member))
            (fun other member => keeps other (List.mem_cons_of_mem _ member))

section
open ControlFlow

variable {proc : ProcId} {code : Array Instruction}

/-- Marking keeps the size of the table. -/
theorem size_of_markLeaders {marks changed : Array Bool} {instruction : Instruction}
    {position : Nat} (marked : markLeaders proc marks instruction position = .ok changed) :
    changed.size = marks.size := by
  by_cases lands : instruction.isJump →
      ∃ target, instruction.jumpTarget? position = some target ∧ target < marks.size
  · obtain ⟨result, isResult, size, -⟩ := markLeaders_eq_ok proc marks lands
    rw [marked] at isResult
    rw [Except.ok.inj isResult, size]
  · obtain ⟨jumps, strays⟩ := Classical.not_imp.mp lands
    obtain ⟨distance, isDistance⟩ := Option.isSome_iff_exists.mp jumps
    have failed := markLeaders_eq_error proc marks isDistance fun target found =>
      Nat.not_lt.mp fun inside => strays ⟨target, found, inside⟩
    rw [marked] at failed
    cases failed

/-- All marks are made inside the table, if there is an instruction at all. -/
theorem leaders_eq (proc : ProcId) (nonempty : 0 < code.size) :
    leaders proc code = lift (ControlFlow.leaders proc code) := by
  have size : ((Array.replicate code.size false).setIfInBounds 0 true).size = code.size := by simp
  have first : (setCell (Array.replicate code.size false) 0 true : Except (Stop Error) _) =
      .ok ((Array.replicate code.size false).setIfInBounds 0 true) :=
    setCell_of_lt (by simpa using nonempty) true
  unfold leaders
  rw [first]
  refine foldlM_lift (fun marks => marks.size = code.size) size ?_ ?_
  · rintro entry - marks same
    rw [← same]
    exact mark_eq proc marks entry.1 entry.2
  · rintro entry - marks changed same marked
    rw [size_of_markLeaders marked, same]

/-- Choosing members by a test that is always decided. -/
theorem filterM_eq {ε α : Type} {test : α → Except ε Bool} {decided : α → Bool} {items : List α}
    (each : ∀ item ∈ items, test item = .ok (decided item)) :
    items.filterM test = .ok (items.filter decided) := by
  have loop : ∀ chosen : List α, items.filterAuxM test chosen =
      .ok ((items.filter decided).reverse ++ chosen) := by
    induction items with
    | nil => exact fun chosen => rfl
    | cons item items ih =>
        intro chosen
        rw [List.filterAuxM, each item List.mem_cons_self]
        show List.filterAuxM test items (cond (decided item) (item :: chosen) chosen) = _
        rw [ih (fun other member => each other (List.mem_cons_of_mem _ member)), List.filter_cons]
        cases decided item <;> simp
  unfold List.filterM
  rw [loop []]
  show Except.ok _ = _
  simp

/-- **Code is cut within itself.** -/
theorem basicBlocks_eq (proc : ProcId) (nonempty : 0 < code.size) :
    basicBlocks proc code = lift (ControlFlow.basicBlocks proc code) := by
  unfold basicBlocks ControlFlow.basicBlocks
  rw [leaders_eq proc nonempty, lift_bind]
  cases marked : ControlFlow.leaders proc code with
  | error error => rfl
  | ok marks =>
      have lands : JumpsLand code := by
        rw [jumpsLand_iff]
        intro position distance strays
        obtain ⟨first, other, straysFirst, none⟩ := exists_first_stray strays
        rw [ControlFlow.leaders_eq_error proc straysFirst none] at marked
        cases marked
      obtain ⟨_, isMarked, size, -⟩ := leaders_eq_ok proc lands
      rw [marked] at isMarked
      obtain rfl := Except.ok.inj isMarked
      have starts : ((List.range code.size).filterM (cell marks) : Except (Stop Error) _) =
          .ok (markedPositions marks) := by
        rw [markedPositions, size]
        refine filterM_eq fun position member => ?_
        have inside : position < marks.size := by
          rw [size]
          exact List.mem_range.mp member
        rw [cell_of_lt inside, Array.getElem?_eq_getElem inside]
        cases marks[position] <;> rfl
      show ((List.range code.size).filterM (cell marks) >>= _) = _
      rw [starts]
      rfl

/-- Writing the numbers of tiles into a table fills it from their start on. -/
theorem foldlM_fill {start size : Nat} {blocks : List Block} (tiles : Tiles start size blocks)
    (index : Nat) {cells : Array Nat} (full : cells.size = size) :
    ((blocks.zipIdx index).foldlM
        (fun cells entry => fill cells entry.1.start entry.1.stop entry.2) cells :
          Except (Stop Error) (Array Nat)) =
      .ok (cells.toList.take start ++
        (blocks.zipIdx index).flatMap fun entry =>
          List.replicate (entry.1.stop - entry.1.start) entry.2).toArray := by
  induction blocks generalizing start index cells with
  | nil =>
      obtain rfl : start = size := tiles
      rw [List.zipIdx_nil, List.flatMap_nil, List.append_nil,
        List.take_of_length_le (Nat.le_of_eq full)]
      rfl
  | cons block blocks ih =>
      obtain ⟨begins, below, rest⟩ := tiles
      have ends := rest.start_le
      have room : (cells.toList.take start).length = start := by
        rw [List.length_take, Array.length_toList]
        omega
      have filled : (fill cells block.start block.stop index : Except (Stop Error) (Array Nat)) =
          .ok (cells.toList.take block.start ++
            List.replicate (block.stop - block.start) index ++
              cells.toList.drop block.stop).toArray :=
        if_pos ⟨by omega, by omega⟩
      rw [List.zipIdx_cons, List.foldlM_cons, List.flatMap_cons]
      dsimp only
      rw [filled, begins]
      -- the next tile starts behind what has just been written
      refine (ih rest (index + 1) ?_).trans ?_
      · simp only [List.size_toArray, List.length_append, room, List.length_replicate,
          List.length_drop, Array.length_toList]
        omega
      · congr 2
        rw [← List.append_assoc, List.append_left_inj, List.take_append_of_le_length,
          List.take_of_length_le] <;>
        · rw [List.length_append, room, List.length_replicate]
          omega

/-- **Blocks are written into the table of positions within it.** -/
theorem blockIndices_eq {blocks : Array Block} (nonempty : 0 < code.size)
    (cut : ControlFlow.basicBlocks proc code = .ok blocks) :
    blockIndices code.size blocks = .ok (ControlFlow.blockIndices blocks) := by
  have filled := foldlM_fill (divides_of_basicBlocks nonempty cut).tiles 0
    (Array.size_replicate (n := code.size) (v := 0))
  rw [List.take_zero, List.nil_append] at filled
  exact filled

end

/-! ### Verifying scopes -/

/-- The open scopes after `count` instructions from a position. -/
def walk (flow : Flow) : (count position : Nat) → Scopes → Except (Stop Error) Scopes
  | 0, _, scopes => .ok scopes
  | count + 1, position, scopes => do
      let instruction ← cell flow.code position
      match scopes.step flow.context instruction with
      | .error violation => throw (.refused (.scope flow.proc position violation))
      | .ok after => walk flow count (position + 1) after

/-- Carry open scopes from the instruction at `position` into the block at `target`. -/
def carry (flow : Flow) (position : Nat) (scopes : Scopes) (solution : Solution) (target : Nat) :
    Except (Stop Error) Solution := do
  let block ← cell flow.blockAt target
  match ← cell solution.entries block with
  | none => return ⟨← setCell solution.entries block (some scopes), solution.waiting ++ [block]⟩
  | some known =>
      if known = scopes then return solution
      else throw (.refused (.scope flow.proc position (.mergeMismatch target)))

/-- Follow one block from its entry scopes. -/
def follow (flow : Flow) (solution : Solution) (block : Block) (entry : Scopes) :
    Except (Stop Error) Solution := do
  let after ← walk flow (block.stop - block.start) block.start entry
  let last ← before block.stop
  let instruction ← cell flow.code last
  let targets ← lift (flow.successors instruction last after)
  targets.foldlM (carry flow last after) solution

/-- Follow the blocks that wait until none does. -/
def drain (flow : Flow) : (rounds : Nat) → Solution → Except (Stop Error) Solution
  | 0, solution => if solution.waiting.isEmpty then .ok solution else .error .endless
  | rounds + 1, solution =>
      match solution.waiting with
      | [] => .ok solution
      | index :: waiting => do
          let block ← cell flow.blocks index
          match ← cell solution.entries index with
          | none => drain flow rounds { solution with waiting }
          | some entry =>
              let after ← follow flow { solution with waiting } block entry
              drain flow rounds after

/-- Verify that a procedure keeps the scope discipline on every path. -/
def verifyProc (module : Module) (proc : ProcId) : Except (Stop Error) Unit := do
  let context ← lift (orError (.missing (.procedure proc)) (ScopeContext.of? module proc))
  let declared ← lift (orError (.missing (.procedure proc)) (module.proc? proc))
  let code ← instructions declared
  if code.isEmpty then throw (.refused (.scope proc 0 .fallsOffEnd))
  let blocks ← basicBlocks proc code
  let blockAt ← blockIndices code.size blocks
  let entries ← setCell (Array.replicate blocks.size none) 0 (some [])
  let _ ← drain ⟨context, proc, code, blocks, blockAt⟩ blocks.size ⟨entries, [0]⟩

/-- Verify every procedure of a module, in order. -/
def verifyModule (module : Module) : Except (Stop Error) Unit :=
  (List.range module.procs.size).forM fun index => verifyProc module ⟨UInt32.ofNat index⟩

section
open ControlFlow

variable {flow : Flow} {solution : Solution} {index : Nat} {block : Block} {entry : Scopes}

/-- A walk within the code meets an instruction at each step. -/
theorem walk_eq {count position : Nat} (inside : position + count ≤ flow.code.size)
    (scopes : Scopes) :
    walk flow count position scopes = lift (flow.walk count position scopes) := by
  induction count generalizing position scopes with
  | zero => rfl
  | succ count ih =>
      have here : position < flow.code.size := by omega
      rw [walk, Flow.walk, cell_of_lt here, Array.getElem?_eq_getElem here]
      show (match scopes.step flow.context flow.code[position] with
        | .error violation => _
        | .ok after => _ : Except (Stop Error) Scopes) = _
      dsimp only
      cases scopes.step flow.context flow.code[position] with
      | error violation => rfl
      | ok after => exact ih (by omega) after

/-- Scopes are carried to a position of the code, and into a block of it. -/
theorem carry_eq {target : Nat} (inside : target < flow.blockAt.size)
    (placed : flow.blockOf target < solution.entries.size) (position : Nat) (scopes : Scopes) :
    carry flow position scopes solution target =
      lift (flow.carry position scopes solution target) := by
  have here : flow.blockAt[target]? = some (flow.blockOf target) := by
    rw [Flow.blockOf, Array.getElem?_eq_getElem inside]
    rfl
  unfold carry Flow.carry
  rw [cell_eq here, here]
  show (cell solution.entries (flow.blockOf target) >>= _) = _
  rw [cell_of_lt placed]
  dsimp only [Option.getD_some]
  rw [Array.getElem?_eq_getElem placed]
  show (match solution.entries[flow.blockOf target] with
    | none => _
    | some known => _ : Except (Stop Error) Solution) = _
  cases solution.entries[flow.blockOf target] with
  | none =>
      dsimp only
      rw [setCell_of_lt placed]
      rfl
  | some known =>
      by_cases same : known = scopes
      · simp only [Option.join_some, if_pos same]
        rfl
      · simp only [Option.join_some, if_neg same]
        rfl

/-- **A block is followed within the code**, and to blocks that are there. -/
theorem follow_eq (cut : Cut flow.code flow.blocks flow.blockAt) (solution : Solution)
    (size : solution.entries.size = flow.blocks.size) (found : flow.blocks[index]? = some block) :
    follow flow solution block entry = lift (flow.follow solution block entry) := by
  obtain ⟨nonempty, ends⟩ := cut.bounds found
  have here : flow.code[block.stop - 1]? = some flow.code[block.stop - 1] :=
    Array.getElem?_eq_getElem (by omega)
  have last : (before block.stop : Except (Stop Error) Nat) = .ok (block.stop - 1) :=
    if_pos (by omega)
  unfold follow Flow.follow
  rw [walk_eq (by omega), lift_bind]
  congr 1
  funext after
  rw [last]
  show (cell flow.code (block.stop - 1) >>= _) = _
  dsimp only
  rw [cell_eq here, here]
  show (lift (flow.successors flow.code[block.stop - 1] (block.stop - 1) after) >>= _) = _
  dsimp only
  rw [lift_bind]
  cases successors : flow.successors flow.code[block.stop - 1] (block.stop - 1) after with
  | error error => rfl
  | ok targets =>
      have starts := blockOf_successor cut found here successors
      refine foldlM_lift (fun solution => solution.entries.size = flow.blocks.size) size ?_ ?_
      · intro target member solution size
        obtain ⟨following, foundNext, begins⟩ := starts target member
        obtain ⟨within, -⟩ := cut.bounds foundNext
        have placed := (Array.getElem?_eq_some_iff.mp foundNext).1
        have atTarget := cut.blockAt_eq foundNext (Nat.le_of_eq begins) (begins ▸ within)
        refine carry_eq (Array.getElem?_eq_some_iff.mp atTarget).1 ?_ _ _
        rw [size]
        exact placed
      · intro target member solution next size carried
        obtain ⟨following, foundNext, -⟩ := starts target member
        have placed : flow.blockOf target < solution.entries.size := by
          rw [size]
          exact (Array.getElem?_eq_some_iff.mp foundNext).1
        rw [(carried_of_carry placed carried).size, size]

/-- **The worklist drains** within its blocks and its rounds. -/
theorem drain_eq (cut : Cut flow.code flow.blocks flow.blockAt) {rounds : Nat}
    (progress : Progress flow solution) (enough : solution.budget ≤ rounds) :
    drain flow rounds solution = lift (flow.advanceBy rounds solution) := by
  induction rounds generalizing solution with
  | zero =>
      have empty : solution.waiting = [] := by
        rw [← List.length_eq_zero_iff]
        unfold Solution.budget at enough
        omega
      rw [drain, empty]
      rfl
  | succ rounds ih =>
      rw [drain, Flow.advanceBy]
      cases waits : solution.waiting with
      | nil => rfl
      | cons index waiting =>
          obtain ⟨block, entry, found, decided⟩ := progress.first waits
          have atIndex : solution.entries[index]? = some (some entry) :=
            Option.join_eq_some_iff.mp decided
          have nonempty : solution.waiting ≠ [] := by
            rw [waits]
            exact List.cons_ne_nil _ _
          simp only [List.isEmpty_cons, Bool.false_eq_true, if_false]
          rw [cell_eq found, cell_eq atIndex, advance_eq waits found decided, lift_bind]
          show (follow flow { solution with waiting } block entry >>= _) = _
          rw [follow_eq cut { solution with waiting } progress.size found]
          cases followed : flow.follow { solution with waiting } block entry with
          | error error => rfl
          | ok after =>
              rw [← advance_eq waits found decided] at followed
              obtain ⟨kept, spent⟩ := progress.advance cut nonempty followed
              exact ih kept (by omega)

end

/-- **Verification stays inside its tables and comes to an end**, whatever the code. -/
theorem verifyProc_eq (module : Module) (proc : ProcId) :
    verifyProc module proc = lift (ScopeMachine.verifyProc module proc) := by
  unfold verifyProc ScopeMachine.verifyProc solveProc
  simp only [lift_bind, bind_assoc]
  congr 1
  funext context
  congr 1
  funext declared
  rw [instructions_eq]
  congr 1
  funext code
  by_cases empty : code.isEmpty = true
  · rw [if_pos empty, if_pos empty]
    rfl
  · have nonempty : 0 < code.size := by
      rw [Array.size_pos_iff]
      exact fun isEmpty => empty (Array.isEmpty_iff.mpr isEmpty)
    rw [if_neg empty, if_neg empty, basicBlocks_eq proc nonempty]
    unfold Flow.of
    simp only [lift_bind, bind_assoc]
    cases cutInto : ControlFlow.basicBlocks proc code with
    | error error => rfl
    | ok blocks =>
        have cut := ControlFlow.cut_of_basicBlocks nonempty cutInto
        obtain ⟨first, found, -⟩ := cut.first
        have inhabited : 0 < blocks.size := (Array.getElem?_eq_some_iff.mp found).1
        let flow : Flow := ⟨context, proc, code, blocks, ControlFlow.blockIndices blocks⟩
        show (blockIndices code.size blocks >>= _) = _
        rw [blockIndices_eq nonempty cutInto]
        show (setCell (Array.replicate blocks.size none) 0 (some []) >>= _) = _
        rw [setCell_of_lt (by simpa using inhabited)]
        show (drain flow blocks.size flow.start >>= _) = _
        rw [drain_eq cut (progress_start cut) (Nat.le_of_eq (budget_start cut))]
        show _ = (lift (flow.solve) >>= _)
        rfl

end Direct

end ScopeMachine
