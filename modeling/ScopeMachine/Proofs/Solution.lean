import ScopeMachine.Proofs.Blocks
import ScopeMachine.Proofs.Paths
import ScopeMachine.Proofs.Sequencing

/-! # Solutions of the verifier

The verifier looks at each block once, from the first entry that it finds for it. When no block
waits any more, what it has found covers all paths.

* `Followed` says of one block that its entry scopes lead on to the entries of its successors, and
  `Solved` says it of all blocks with an entry;
* `Solved.placed` carries an entry along every path;
* `Solved.keepsDiscipline` and `Solved.scopesAt_eq` are what follows about the paths. -/

namespace ScopeMachine

open ControlFlow

/-! ### Walking through a block -/

namespace Flow

variable {flow : Flow}

/-- Beyond the code nothing happens. -/
theorem walk_of_none {position : Nat} (none : flow.code[position]? = none) (count : Nat)
    (scopes : Scopes) : flow.walk count position scopes = .ok scopes := by
  cases count with
  | zero => rfl
  | succ count => rw [walk, none]

/-- Walking one instruction further. -/
theorem walk_succ (flow : Flow) (count position : Nat) (scopes : Scopes) :
    flow.walk (count + 1) position scopes =
      (flow.walk count position scopes >>= fun middle =>
        flow.walk 1 (position + count) middle) := by
  -- `walk` takes the first instruction first, so the last one is reached by induction
  induction count generalizing position scopes with
  | zero => rfl
  | succ count ih =>
      cases found : flow.code[position]? with
      | none =>
          have beyond : flow.code[position + (count + 1)]? = none := by
            rw [Array.getElem?_eq_none_iff] at found ⊢
            omega
          rw [walk_of_none found, walk_of_none found]
          exact (walk_of_none beyond 1 scopes).symm
      | some instruction =>
          rw [walk, found]
          conv => rhs; rw [walk, found]
          dsimp only
          cases stepped : scopes.step flow.context instruction with
          | error violation => rfl
          | ok after =>
              dsimp only
              rw [ih, show position + 1 + count = position + (count + 1) by omega]

/-- Walking one instruction further is one step of the scope rules. -/
theorem walk_succ_eq_ok {count position : Nat} {scopes after : Scopes} {instruction : Instruction}
    (found : flow.code[position + count]? = some instruction) :
    flow.walk (count + 1) position scopes = .ok after ↔
      ∃ middle, flow.walk count position scopes = .ok middle ∧
        middle.step flow.context instruction = .ok after := by
  rw [walk_succ, bind_eq_ok]
  have single : ∀ middle : Scopes, flow.walk 1 (position + count) middle = .ok after ↔
      middle.step flow.context instruction = .ok after := by
    intro middle
    rw [walk, found]
    dsimp only
    cases middle.step flow.context instruction with
    | error violation => simp
    | ok next =>
        show (Except.ok next : Except Error Scopes) = .ok after ↔ _
        rw [Except.ok.injEq, Except.ok.injEq]
  simp only [single]

/-- Walking from an earlier position past the instruction at `position`. -/
theorem walk_past_eq_ok {start position : Nat} {scopes after : Scopes} {instruction : Instruction}
    (low : start ≤ position) (found : flow.code[position]? = some instruction) :
    flow.walk (position - start + 1) start scopes = .ok after ↔
      ∃ middle, flow.walk (position - start) start scopes = .ok middle ∧
        middle.step flow.context instruction = .ok after := by
  have here : start + (position - start) = position := by omega
  exact walk_succ_eq_ok (by rw [here]; exact found)

/-- A walk that succeeds has succeeded up to every instruction on the way. -/
theorem walk_eq_ok_of_le {count shorter position : Nat} {scopes after : Scopes}
    (walked : flow.walk count position scopes = .ok after) (le : shorter ≤ count) :
    ∃ middle, flow.walk shorter position scopes = .ok middle := by
  induction count generalizing after with
  | zero => exact ⟨scopes, by rw [Nat.le_zero.mp le]; rfl⟩
  | succ count ih =>
      rcases Nat.lt_or_eq_of_le le with lt | rfl
      · rw [walk_succ, bind_eq_ok] at walked
        obtain ⟨middle, walked, -⟩ := walked
        exact ih walked (Nat.le_of_lt_succ lt)
      · exact ⟨after, walked⟩

/-- The successors of an instruction are the positions that control may pass to, if it neither
returns with open scopes nor runs past the last instruction. -/
theorem successors_eq_ok_iff {instruction : Instruction} {position : Nat} {scopes : Scopes}
    {targets : List Nat} (successors : flow.successors instruction position scopes = .ok targets) :
    (instruction = .ret → scopes = []) ∧
      (instruction.isTerminator = false → position + 1 ≠ flow.code.size) ∧
      ∀ target, target ∈ targets ↔ instruction.LeadsTo position target := by
  unfold Flow.successors at successors
  split at successors
  · cases successors
  next balanced =>
    refine ⟨fun isRet => Classical.byContradiction fun opened => balanced ⟨isRet, opened⟩, ?_⟩
    unfold Instruction.LeadsTo
    split at successors
    next terminates =>
      cases successors
      refine ⟨fun falls => absurd terminates (by rw [falls]; decide), ?_⟩
      intro target
      rw [terminates, Option.mem_toList]
      simp
    next falls =>
      split at successors
      · cases successors
      next more =>
        cases successors
        refine ⟨fun _ => more, ?_⟩
        intro target
        rw [List.mem_append, Option.mem_toList, List.mem_singleton]
        simp [falls]

/-- An instruction has successors if it neither returns with open scopes nor runs past the end. -/
theorem exists_successors {instruction : Instruction} {position : Nat} {scopes : Scopes}
    (balanced : instruction = .ret → scopes = [])
    (more : instruction.isTerminator = false → position + 1 ≠ flow.code.size) :
    ∃ targets, flow.successors instruction position scopes = .ok targets := by
  unfold Flow.successors
  rw [if_neg fun ⟨isRet, opened⟩ => opened (balanced isRet)]
  split
  · exact ⟨_, rfl⟩
  next falls =>
    rw [if_neg (more (by simpa using falls))]
    exact ⟨_, rfl⟩

end Flow

/-! ### Solutions -/

/-- A solution has decided on the entry scopes of a block. -/
def Decides (entries : Array (Option Scopes)) (index : Nat) (entry : Scopes) : Prop :=
  entries[index]?.join = some entry

/-- The entry scopes of a block lead through it and on to the entries of its successors. -/
def Followed (flow : Flow) (entries : Array (Option Scopes)) (block : Block) (entry : Scopes) :
    Prop :=
  ∃ after instruction targets,
    flow.walk (block.stop - block.start) block.start entry = .ok after ∧
    flow.code[block.stop - 1]? = some instruction ∧
    flow.successors instruction (block.stop - 1) after = .ok targets ∧
    ∀ target ∈ targets, Decides entries (flow.blockAt[target]?.getD 0) after

/-- No block waits: all entries have been followed. -/
structure Solved (flow : Flow) (entries : Array (Option Scopes)) : Prop where
  /-- The procedure is entered with no scope open. -/
  entry : Decides entries 0 []
  /-- Every block with an entry has been followed. -/
  followed : ∀ {index : Nat} {block : Block} {entry : Scopes}, flow.blocks[index]? = some block →
    Decides entries index entry → Followed flow entries block entry

section
variable {flow : Flow} {entries : Array (Option Scopes)}

/-- Within a block, control passes to the next instruction. -/
theorem eq_succ_of_leadsTo (cut : Cut flow.code flow.blocks flow.blockAt) {index : Nat}
    {block : Block} (found : flow.blocks[index]? = some block) {position target : Nat}
    {instruction : Instruction} (after : block.start ≤ position)
    (before : position + 1 < block.stop)
    (here : flow.code[position]? = some instruction) (leads : instruction.LeadsTo position target) :
    instruction.isTerminator = false ∧ target = position + 1 := by
  -- otherwise the next instruction would be a leader, and start a block of its own
  have inner := cut.inner found (Nat.lt_succ_of_le after) before
  have passes : (instruction.isJump || instruction.isTerminator) = false := by
    cases parts : instruction.isJump || instruction.isTerminator with
    | false => rfl
    | true =>
        exact absurd (.inr ⟨position, instruction, here, .inr ⟨parts, rfl⟩⟩) inner
  obtain ⟨noJump, falls⟩ := Bool.or_eq_false_iff.mp passes
  rcases leads with jump | next
  · rw [isJump_of_jumpTarget? jump] at noJump
    cases noJump
  · exact next

/-- Control that leaves a block arrives at the start of a block. -/
theorem starts_of_leadsTo (cut : Cut flow.code flow.blocks flow.blockAt) {index : Nat}
    {block : Block} (found : flow.blocks[index]? = some block) {target : Nat}
    {instruction : Instruction} (here : flow.code[block.stop - 1]? = some instruction)
    (more : instruction.isTerminator = false → block.stop - 1 + 1 ≠ flow.code.size)
    (leads : instruction.LeadsTo (block.stop - 1) target) :
    ∃ (next : Nat) (following : Block), flow.blocks[next]? = some following ∧
      following.start = target ∧ flow.blockAt[target]? = some next := by
  obtain ⟨nonempty, ends⟩ := cut.bounds found
  have starts : ∃ (next : Nat) (following : Block), flow.blocks[next]? = some following ∧
      following.start = target := by
    rcases leads with jump | ⟨falls, rfl⟩
    · obtain ⟨goal, lands, inside⟩ := cut.lands _ _ here (isJump_of_jumpTarget? jump)
      rw [jump] at lands
      obtain rfl := Option.some.inj lands
      exact cut.leader inside (.inr ⟨_, _, here, .inl jump⟩)
    · have stays := more falls
      obtain ⟨next, following, foundNext, begins⟩ := cut.next found (by omega)
      exact ⟨next, following, foundNext, by omega⟩
  obtain ⟨next, following, foundNext, rfl⟩ := starts
  exact ⟨next, following, foundNext, rfl,
    cut.blockAt_eq foundNext (Nat.le_refl _) (cut.bounds foundNext).1⟩

/-- **Every path stays within the solution.** A path that reaches a position is in the block of the
position, with the scopes that the block's entry leads to there. -/
theorem Solved.placed (cut : Cut flow.code flow.blocks flow.blockAt) (solved : Solved flow entries)
    {position : Nat} {scopes : Scopes} (path : Reaches flow.context flow.code position scopes) :
    ∃ (index : Nat) (block : Block) (entry : Scopes), flow.blocks[index]? = some block ∧
      block.start ≤ position ∧ position < block.stop ∧ Decides entries index entry ∧
      flow.walk (position - block.start) block.start entry = .ok scopes := by
  induction path with
  | start =>
      obtain ⟨block, found, begins⟩ := cut.first
      refine ⟨0, block, [], found, Nat.le_of_eq begins, ?_, solved.entry, ?_⟩
      · exact begins ▸ (cut.bounds found).1
      · rw [Nat.zero_sub]
        rfl
  | @next position target scopes after instruction path here stepped leads ih =>
      obtain ⟨index, block, entry, found, low, high, decided, walked⟩ := ih
      have walkedOn : flow.walk (position - block.start + 1) block.start entry = .ok after :=
        (Flow.walk_past_eq_ok low here).mpr ⟨scopes, walked, stepped⟩
      by_cases inner : position + 1 < block.stop
      · -- still in the same block
        obtain ⟨-, rfl⟩ := eq_succ_of_leadsTo cut found low inner here leads
        refine ⟨index, block, entry, found, by omega, inner, decided, ?_⟩
        rw [show position + 1 - block.start = position - block.start + 1 by omega]
        exact walkedOn
      · -- the path leaves the block, and the solution has carried its scopes along
        obtain ⟨carried, last, targets, walkedAll, foundLast, successors, decides⟩ :=
          solved.followed found decided
        have atEnd : block.stop - 1 = position := by omega
        rw [atEnd, here] at foundLast
        obtain rfl := Option.some.inj foundLast
        rw [show block.stop - block.start = position - block.start + 1 by omega] at walkedAll
        rw [walkedOn] at walkedAll
        obtain rfl := Except.ok.inj walkedAll
        obtain ⟨-, more, isTarget⟩ := Flow.successors_eq_ok_iff successors
        rw [← atEnd] at here leads
        obtain ⟨next, following, foundNext, begins, atTarget⟩ :=
          starts_of_leadsTo cut found here more leads
        have decidedNext := decides target ((isTarget target).mpr leads)
        rw [atTarget] at decidedNext
        refine ⟨next, following, after, foundNext, Nat.le_of_eq begins, ?_, decidedNext, ?_⟩
        · exact begins ▸ (cut.bounds foundNext).1
        · rw [begins, Nat.sub_self]
          rfl

/-- **A solution proves the discipline.** -/
theorem Solved.keepsDiscipline (cut : Cut flow.code flow.blocks flow.blockAt)
    (solved : Solved flow entries) : KeepsDiscipline flow.context flow.code := by
  refine ⟨?_, ?_, ?_, ?_⟩
  · -- the block has been walked to its end, so also past the instruction at `position`
    intro position scopes instruction path here
    obtain ⟨index, block, entry, found, low, high, decided, walked⟩ := solved.placed cut path
    obtain ⟨after, _, _, walkedAll, -⟩ := solved.followed found decided
    have shorter : position - block.start + 1 ≤ block.stop - block.start := by omega
    obtain ⟨middle, walkedOn⟩ := Flow.walk_eq_ok_of_le walkedAll shorter
    obtain ⟨before, walkedTo, stepped⟩ := (Flow.walk_past_eq_ok low here).mp walkedOn
    rw [walked] at walkedTo
    obtain rfl := Except.ok.inj walkedTo
    exact ⟨middle, stepped⟩
  · intro scopes path
    obtain ⟨index, block, entry, found, low, high, -⟩ := solved.placed cut path
    have := (cut.bounds found).2
    omega
  · -- a return ends its block, and there the verifier has looked at the scopes
    intro position scopes path here
    obtain ⟨index, block, entry, found, low, high, decided, walked⟩ := solved.placed cut path
    by_cases inner : position + 1 < block.stop
    · have leader : IsLeader flow.code (position + 1) :=
        .inr ⟨position, .ret, here, .inr ⟨rfl, rfl⟩⟩
      exact absurd leader (cut.inner found (by omega) inner)
    · obtain ⟨after, last, targets, walkedAll, foundLast, successors, -⟩ :=
        solved.followed found decided
      rw [show block.stop - 1 = position by omega] at foundLast successors
      rw [here] at foundLast
      obtain rfl := Option.some.inj foundLast
      rw [show block.stop - block.start = position - block.start + 1 by omega] at walkedAll
      obtain ⟨before, walkedTo, stepped⟩ := (Flow.walk_past_eq_ok low here).mp walkedAll
      rw [walked] at walkedTo
      obtain rfl := Except.ok.inj walkedTo
      rw [Scopes.step_ret] at stepped
      obtain rfl := Except.ok.inj stepped
      exact (Flow.successors_eq_ok_iff successors).1 rfl
  · -- both paths are in the block of the position, which has one entry
    intro position left right pathLeft pathRight
    obtain ⟨index, block, entry, found, low, high, decided, walked⟩ := solved.placed cut pathLeft
    obtain ⟨index', block', entry', found', low', high', decided', walked'⟩ :=
      solved.placed cut pathRight
    have same : index = index' := by
      have here := cut.blockAt_eq found low high
      rw [cut.blockAt_eq found' low' high'] at here
      exact (Option.some.inj here).symm
    subst same
    rw [found] at found'
    obtain rfl := Option.some.inj found'
    unfold Decides at decided decided'
    rw [decided] at decided'
    obtain rfl := Option.some.inj decided'
    rw [walked] at walked'
    exact Except.ok.inj walked'

/-- The scopes that a solution assigns to a position are those of every path that reaches it. -/
theorem Solved.scopesAt_eq (cut : Cut flow.code flow.blocks flow.blockAt) {waiting : List Nat}
    (solved : Solved flow entries) {position : Nat} {scopes : Scopes}
    (path : Reaches flow.context flow.code position scopes) :
    flow.scopesAt ⟨entries, waiting⟩ position = some scopes := by
  obtain ⟨index, block, entry, found, low, high, decided, walked⟩ := solved.placed cut path
  unfold Decides at decided
  simp only [Flow.scopesAt, cut.blockAt_eq found low high, found, decided, walked, bind,
    Option.bind]
  rfl

end

end ScopeMachine
