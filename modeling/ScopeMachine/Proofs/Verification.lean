import ScopeMachine.Proofs.Solution
import ScopeMachine.Samples

/-! # The verifier is exact

The discipline is about all paths, infinitely many where the code has loops; the verifier follows
each block at most once. Both agree.

* `Carried` describes what carrying scopes into blocks does to a solution;
* `Progress` is the invariant of the worklist: a decided block waits or has been followed. Each step
  spends one unit of `Solution.budget`, so that a run of as many steps as blocks ends in a solution;
* `Traced` goes the other way: every entry is that of a path, so that code whose paths all keep the
  discipline is not rejected;
* `verifyProc_eq_ok_iff` puts both together. -/

namespace ScopeMachine

open ControlFlow

/-! ### Carrying scopes into blocks -/

/-- The block that a position belongs to. -/
def Flow.blockOf (flow : Flow) (position : Nat) : Nat := flow.blockAt[position]?.getD 0

/-- How many blocks can still be followed: those without an entry and those that wait. -/
def Solution.budget (solution : Solution) : Nat :=
  solution.entries.countP Option.isNone + solution.waiting.length

/-- A solution after scopes have been carried into some blocks. -/
structure Carried (scopes : Scopes) (blocks : List Nat) (before after : Solution) : Prop where
  /-- There are as many blocks as before. -/
  size : after.entries.size = before.entries.size
  /-- The blocks have the scopes as their entry, and all others are as before. -/
  decides : ∀ {index : Nat} {entry : Scopes}, Decides after.entries index entry ↔
    Decides before.entries index entry ∨ (index ∈ blocks ∧ entry = scopes)
  /-- A block that waits is one that waited or one of the blocks. -/
  waits : ∀ {index : Nat}, index ∈ after.waiting → index ∈ before.waiting ∨ index ∈ blocks
  /-- A block that waited still waits. -/
  keeps : ∀ {index : Nat}, index ∈ before.waiting → index ∈ after.waiting
  /-- A block that was decided just now waits. -/
  fresh : ∀ {index : Nat} {entry : Scopes}, Decides after.entries index entry →
    Decides before.entries index entry ∨ index ∈ after.waiting
  /-- Deciding on a block and adding it to those that wait balance. -/
  budget : after.budget = before.budget

/-- Carrying scopes nowhere changes nothing. -/
theorem Carried.refl (scopes : Scopes) (solution : Solution) :
    Carried scopes [] solution solution where
  size := rfl
  decides := by simp
  waits := .inl
  keeps := id
  fresh := .inl
  budget := rfl

/-- Carrying scopes into one block and then into others. -/
theorem Carried.trans {scopes : Scopes} {block : Nat} {blocks : List Nat}
    {before middle after : Solution} (first : Carried scopes [block] before middle)
    (others : Carried scopes blocks middle after) :
    Carried scopes (block :: blocks) before after where
  size := others.size.trans first.size
  decides := by
    intro index entry
    rw [others.decides, first.decides, List.mem_singleton, List.mem_cons, or_assoc, ← or_and_right]
  waits := by
    intro index waits
    rcases others.waits waits with waits | member
    · rcases first.waits waits with waits | member
      · exact .inl waits
      · exact .inr (List.mem_cons.mpr (.inl (List.mem_singleton.mp member)))
    · exact .inr (List.mem_cons_of_mem _ member)
  keeps := fun waits => others.keeps (first.keeps waits)
  fresh := by
    intro index entry decided
    rcases others.fresh decided with decided | waits
    · rcases first.fresh decided with decided | waits
      · exact .inl decided
      · exact .inr (others.keeps waits)
    · exact .inr waits
  budget := others.budget.trans first.budget

/-- Deciding on an undecided block. -/
theorem decides_set_iff {entries : Array (Option Scopes)} {block : Nat} {scopes : Scopes}
    (inside : block < entries.size) (undecided : entries[block]?.join = none) {index : Nat}
    {entry : Scopes} :
    Decides (entries.setIfInBounds block (some scopes)) index entry ↔
      Decides entries index entry ∨ (index = block ∧ entry = scopes) := by
  unfold Decides
  rw [Array.getElem?_setIfInBounds]
  by_cases same : block = index
  · subst same
    rw [if_pos rfl, if_pos inside, undecided]
    simp [eq_comm]
  · rw [if_neg same]
    simp [Ne.symm same]

/-- Deciding on a block makes one fewer without an entry. -/
theorem countP_isNone_set (scopes : Scopes) {entries : Array (Option Scopes)} {block : Nat}
    (inside : block < entries.size) (undecided : entries[block]?.join = none) :
    (entries.setIfInBounds block (some scopes)).countP Option.isNone + 1 =
      entries.countP Option.isNone := by
  have isNone : entries[block] = none := by
    rw [Array.getElem?_eq_getElem inside] at undecided
    simpa using undecided
  have positive : 0 < entries.countP Option.isNone := by
    rw [Array.countP_pos_iff]
    exact ⟨entries[block], Array.getElem_mem inside, by rw [isNone]; rfl⟩
  rw [Array.setIfInBounds_def, dif_pos inside, Array.countP_set inside, isNone]
  simp only [Option.isNone_none, if_true, Option.isNone_some, Bool.false_eq_true, if_false]
  omega

section
variable {flow : Flow} {before after : Solution} {position : Nat} {scopes : Scopes}

/-- Carrying scopes into the block of one target. -/
theorem carried_of_carry {target : Nat} (inside : flow.blockOf target < before.entries.size)
    (carried : flow.carry position scopes before target = .ok after) :
    Carried scopes [flow.blockOf target] before after := by
  unfold Flow.carry at carried
  rw [show flow.blockAt[target]?.getD 0 = flow.blockOf target from rfl] at carried
  dsimp only at carried
  split at carried
  next undecided =>
    -- the block gets its entry and is added to those that wait
    cases carried
    refine ⟨by simp, ?_, ?_, ?_, ?_, ?_⟩
    · intro index entry
      rw [decides_set_iff inside undecided, List.mem_singleton]
    · intro index waits
      exact List.mem_append.mp waits
    · intro index waits
      exact List.mem_append_left _ waits
    · intro index entry decided
      rcases (decides_set_iff inside undecided).mp decided with decided | ⟨rfl, -⟩
      · exact .inl decided
      · exact .inr (List.mem_append_right _ (List.mem_singleton.mpr rfl))
    · have fewer := countP_isNone_set scopes inside undecided
      simp only [Solution.budget, List.length_append, List.length_singleton]
      omega
  next known decided =>
    split at carried
    next same =>
      -- the block has this entry already
      cases carried
      subst same
      refine ⟨rfl, ?_, .inl, id, .inl, rfl⟩
      intro index entry
      constructor
      · exact .inl
      · rintro (decided | ⟨member, rfl⟩)
        · exact decided
        · rw [List.mem_singleton.mp member]
          exact decided
    next => cases carried

/-- Carrying scopes into the blocks of all targets. -/
theorem carried_of_foldlM {targets : List Nat}
    (inside : ∀ target ∈ targets, flow.blockOf target < before.entries.size)
    (carried : targets.foldlM (flow.carry position scopes) before = .ok after) :
    Carried scopes (targets.map flow.blockOf) before after := by
  induction targets generalizing before with
  | nil =>
      cases carried
      exact Carried.refl scopes _
  | cons target targets ih =>
      rw [List.foldlM_cons] at carried
      obtain ⟨middle, first, others⟩ := bind_eq_ok.mp carried
      have one := carried_of_carry (inside target List.mem_cons_self) first
      refine one.trans (ih ?_ others)
      intro next member
      rw [one.size]
      exact inside next (List.mem_cons_of_mem _ member)

/-- Scopes can be carried into blocks that have no other entry. -/
theorem exists_foldlM_carry (position : Nat) {targets : List Nat}
    (inside : ∀ target ∈ targets, flow.blockOf target < before.entries.size)
    (agree : ∀ target ∈ targets, ∀ known, Decides before.entries (flow.blockOf target) known →
      known = scopes) :
    ∃ after, targets.foldlM (flow.carry position scopes) before = .ok after := by
  induction targets generalizing before with
  | nil => exact ⟨before, rfl⟩
  | cons target targets ih =>
      have here := inside target List.mem_cons_self
      obtain ⟨middle, first⟩ : ∃ middle, flow.carry position scopes before target = .ok middle := by
        unfold Flow.carry
        dsimp only
        split
        · exact ⟨_, rfl⟩
        next known decided =>
          rw [if_pos (agree target List.mem_cons_self known decided)]
          exact ⟨_, rfl⟩
      -- an entry of the next target is an old one, or has just been decided on
      have one := carried_of_carry here first
      rw [List.foldlM_cons, first]
      refine ih ?_ ?_
      · intro next member
        rw [one.size]
        exact inside next (List.mem_cons_of_mem _ member)
      · intro next member known decided
        rcases one.decides.mp decided with decided | ⟨-, same⟩
        · exact agree next (List.mem_cons_of_mem _ member) known decided
        · exact same

end

/-! ### The worklist -/

/-- The invariant of the worklist. -/
structure Progress (flow : Flow) (solution : Solution) : Prop where
  /-- There is one cell for each block. -/
  size : solution.entries.size = flow.blocks.size
  /-- The procedure is entered with no scope open. -/
  entry : Decides solution.entries 0 []
  /-- A block that waits has an entry. -/
  decided : ∀ {index : Nat}, index ∈ solution.waiting →
    ∃ entry, Decides solution.entries index entry
  /-- A block with an entry waits or has been followed. -/
  followed : ∀ {index : Nat} {block : Block} {entry : Scopes},
    flow.blocks[index]? = some block → Decides solution.entries index entry →
      index ∈ solution.waiting ∨ Followed flow solution.entries block entry

/-- Every entry is what some path brings to the start of its block. -/
def Traced (flow : Flow) (entries : Array (Option Scopes)) : Prop :=
  ∀ {index : Nat} {block : Block} {entry : Scopes}, flow.blocks[index]? = some block →
    Decides entries index entry → Reaches flow.context flow.code block.start entry

section
variable {flow : Flow} {solution after : Solution} {index : Nat} {block : Block} {entry : Scopes}

/-- Only the first block is decided at the start. -/
theorem decides_start_iff (cut : Cut flow.code flow.blocks flow.blockAt) :
    Decides flow.start.entries index entry ↔ index = 0 ∧ entry = [] := by
  obtain ⟨first, found, -⟩ := cut.first
  have inside : 0 < flow.blocks.size := (Array.getElem?_eq_some_iff.mp found).1
  have undecided : ∀ index : Nat, (Array.replicate flow.blocks.size
      (none : Option Scopes))[index]?.join = none := by
    intro index
    rw [Array.getElem?_replicate]
    split <;> rfl
  unfold Flow.start
  rw [decides_set_iff (by rw [Array.size_replicate]; exact inside) (undecided 0)]
  unfold Decides
  rw [undecided]
  simp

/-- The worklist starts with its invariant. -/
theorem progress_start (cut : Cut flow.code flow.blocks flow.blockAt) :
    Progress flow flow.start where
  size := by simp [Flow.start]
  entry := (decides_start_iff cut).mpr ⟨rfl, rfl⟩
  decided := by
    intro index waits
    rw [List.mem_singleton.mp waits]
    exact ⟨[], (decides_start_iff cut).mpr ⟨rfl, rfl⟩⟩
  followed := by
    intro index block entry found decided
    rw [((decides_start_iff cut).mp decided).1]
    exact .inl List.mem_cons_self

/-- At the start there is one unit of budget for each block. -/
theorem budget_start (cut : Cut flow.code flow.blocks flow.blockAt) :
    flow.start.budget = flow.blocks.size := by
  obtain ⟨first, found, -⟩ := cut.first
  have inside : 0 < flow.blocks.size := (Array.getElem?_eq_some_iff.mp found).1
  have undecided : (Array.replicate flow.blocks.size (none : Option Scopes))[0]?.join = none := by
    simp [inside]
  have fewer := countP_isNone_set [] (by rw [Array.size_replicate]; exact inside) undecided
  rw [Array.countP_replicate] at fewer
  simpa [Solution.budget, Flow.start] using fewer

/-- The entry of the first block is that of the empty path. -/
theorem traced_start (cut : Cut flow.code flow.blocks flow.blockAt) :
    Traced flow flow.start.entries := by
  intro index block entry found decided
  obtain ⟨rfl, rfl⟩ := (decides_start_iff cut).mp decided
  obtain ⟨first, foundFirst, begins⟩ := cut.first
  rw [found] at foundFirst
  obtain rfl := Option.some.inj foundFirst
  rw [begins]
  exact Reaches.start

/-- Following a block succeeds if each of its parts does. -/
theorem follow_eq_ok_iff (cut : Cut flow.code flow.blocks flow.blockAt)
    (found : flow.blocks[index]? = some block) :
    flow.follow solution block entry = .ok after ↔
      ∃ scopes instruction targets,
        flow.walk (block.stop - block.start) block.start entry = .ok scopes ∧
        flow.code[block.stop - 1]? = some instruction ∧
        flow.successors instruction (block.stop - 1) scopes = .ok targets ∧
        targets.foldlM (flow.carry (block.stop - 1) scopes) solution = .ok after := by
  obtain ⟨nonempty, ends⟩ := cut.bounds found
  obtain ⟨last, foundLast⟩ : ∃ last, flow.code[block.stop - 1]? = some last :=
    ⟨_, Array.getElem?_eq_getElem (by omega)⟩
  unfold Flow.follow
  simp only [bind_eq_ok, foundLast, Option.some.injEq]
  constructor
  · rintro ⟨scopes, walked, targets, successors, carried⟩
    exact ⟨scopes, last, targets, walked, rfl, successors, carried⟩
  · rintro ⟨scopes, _, targets, walked, rfl, successors, carried⟩
    exact ⟨scopes, walked, targets, successors, carried⟩

/-- The targets of the last instruction of a block are starts of blocks. -/
theorem blockOf_successor (cut : Cut flow.code flow.blocks flow.blockAt)
    (found : flow.blocks[index]? = some block) {last : Instruction} {scopes : Scopes}
    {targets : List Nat} (here : flow.code[block.stop - 1]? = some last)
    (successors : flow.successors last (block.stop - 1) scopes = .ok targets) :
    ∀ target ∈ targets, ∃ following, flow.blocks[flow.blockOf target]? = some following ∧
      following.start = target := by
  intro target member
  obtain ⟨-, more, isTarget⟩ := Flow.successors_eq_ok_iff successors
  obtain ⟨next, following, foundNext, begins, atTarget⟩ :=
    starts_of_leadsTo cut found here more ((isTarget target).mp member)
  exact ⟨following, by rw [Flow.blockOf, atTarget]; exact foundNext, begins⟩

/-- A path to the start of a block goes on to its last instruction. -/
theorem reaches_last (cut : Cut flow.code flow.blocks flow.blockAt)
    (found : flow.blocks[index]? = some block)
    (path : Reaches flow.context flow.code block.start entry) {count : Nat} {middle : Scopes}
    (inside : block.start + count < block.stop)
    (walked : flow.walk count block.start entry = .ok middle) :
    Reaches flow.context flow.code (block.start + count) middle := by
  induction count generalizing middle with
  | zero =>
      cases walked
      exact path
  | succ count ih =>
      obtain ⟨nonempty, ends⟩ := cut.bounds found
      have here : flow.code[block.start + count]? = some (flow.code[block.start + count]) :=
        Array.getElem?_eq_getElem (by omega)
      obtain ⟨before, walkedTo, stepped⟩ := (Flow.walk_succ_eq_ok here).mp walked
      -- an instruction before the last of its block passes control to the next
      have falls : (flow.code[block.start + count]).isTerminator = false := by
        cases terminates : (flow.code[block.start + count]).isTerminator with
        | false => rfl
        | true =>
            have parts : IsLeader flow.code (block.start + count + 1) :=
              .inr ⟨_, _, here, .inr ⟨by rw [terminates, Bool.or_true], rfl⟩⟩
            exact absurd parts (cut.inner found (by omega) inside)
      exact .next (ih (by omega) walkedTo) here stepped (.inr ⟨falls, rfl⟩)

/-- **What following a block finds.** The path to the block goes on to the starts of the blocks
after it, into which its scopes are carried. -/
theorem carried_of_follow (cut : Cut flow.code flow.blocks flow.blockAt) (solution : Solution)
    (size : solution.entries.size = flow.blocks.size) (found : flow.blocks[index]? = some block)
    (followed : flow.follow solution block entry = .ok after) :
    ∃ (scopes : Scopes) (targets : List Nat),
      Carried scopes (targets.map flow.blockOf) solution after ∧
      Followed flow after.entries block entry ∧
      (Reaches flow.context flow.code block.start entry → ∀ target ∈ targets,
        Reaches flow.context flow.code target scopes) ∧
      ∀ target ∈ targets, ∃ following, flow.blocks[flow.blockOf target]? = some following ∧
        following.start = target := by
  obtain ⟨scopes, last, targets, walked, here, successors, carried⟩ :=
    (follow_eq_ok_iff cut found).mp followed
  obtain ⟨-, -, isTarget⟩ := Flow.successors_eq_ok_iff successors
  have starts := blockOf_successor cut found here successors
  have result : Carried scopes (targets.map flow.blockOf) solution after := by
    refine carried_of_foldlM ?_ carried
    intro target member
    obtain ⟨following, foundNext, -⟩ := starts target member
    rw [size]
    exact (Array.getElem?_eq_some_iff.mp foundNext).1
  refine ⟨scopes, targets, result, ?_, ?_, starts⟩
  · refine ⟨scopes, last, targets, walked, here, successors, ?_⟩
    intro target member
    exact result.decides.mpr (.inr ⟨List.mem_map_of_mem member, rfl⟩)
  · intro path target member
    obtain ⟨nonempty, ends⟩ := cut.bounds found
    obtain ⟨count, length⟩ : ∃ count, block.stop - block.start = count + 1 :=
      ⟨block.stop - block.start - 1, by omega⟩
    rw [length] at walked
    have atEnd : block.start + count = block.stop - 1 := by omega
    obtain ⟨before, walkedTo, stepped⟩ :=
      (Flow.walk_succ_eq_ok (by rw [atEnd]; exact here)).mp walked
    have toLast := reaches_last cut found path (by omega) walkedTo
    rw [atEnd] at toLast
    exact .next toLast here stepped ((isTarget target).mp member)

/-- A block that waits first is followed. -/
theorem advance_eq {waiting : List Nat} (waits : solution.waiting = index :: waiting)
    (found : flow.blocks[index]? = some block) (decided : Decides solution.entries index entry) :
    flow.advance solution = flow.follow { solution with waiting } block entry := by
  unfold Decides at decided
  unfold Flow.advance
  rw [waits]
  dsimp only
  rw [found, decided]

/-- The block that waits first is there, and has an entry. -/
theorem Progress.first (progress : Progress flow solution) {waiting : List Nat}
    (waits : solution.waiting = index :: waiting) :
    ∃ block entry, flow.blocks[index]? = some block ∧ Decides solution.entries index entry := by
  obtain ⟨entry, decided⟩ := progress.decided (waits ▸ List.mem_cons_self)
  have inside : index < solution.entries.size := by
    apply Classical.byContradiction
    intro outside
    unfold Decides at decided
    rw [Array.getElem?_eq_none (Nat.le_of_not_lt outside)] at decided
    cases decided
  rw [progress.size] at inside
  exact ⟨flow.blocks[index], entry, Array.getElem?_eq_getElem inside, decided⟩

/-- A followed block stays so when more is decided. -/
theorem Followed.mono {entries more : Array (Option Scopes)}
    (followed : Followed flow entries block entry)
    (grows : ∀ {index : Nat} {entry : Scopes}, Decides entries index entry →
      Decides more index entry) : Followed flow more block entry := by
  obtain ⟨scopes, last, targets, walked, here, successors, decides⟩ := followed
  exact ⟨scopes, last, targets, walked, here, successors,
    fun target member => grows (decides target member)⟩

/-- **One step of the worklist** keeps the invariant and spends one unit of the budget. -/
theorem Progress.advance (cut : Cut flow.code flow.blocks flow.blockAt)
    (progress : Progress flow solution) (nonempty : solution.waiting ≠ [])
    (advanced : flow.advance solution = .ok after) :
    Progress flow after ∧ after.budget + 1 = solution.budget := by
  obtain ⟨current, waiting, waits⟩ := List.exists_cons_of_ne_nil nonempty
  obtain ⟨block, entry, found, decided⟩ := progress.first waits
  rw [advance_eq waits found decided] at advanced
  obtain ⟨scopes, targets, carried, followed, -, -⟩ :=
    carried_of_follow cut { solution with waiting } progress.size found advanced
  have grows : ∀ {index : Nat} {entry : Scopes}, Decides solution.entries index entry →
      Decides after.entries index entry := fun decided => carried.decides.mpr (.inl decided)
  refine ⟨⟨carried.size.trans progress.size, grows progress.entry, ?_, ?_⟩, ?_⟩
  · -- blocks that wait have an entry: from before, or from what has just been carried
    intro index waits'
    rcases carried.waits waits' with still | new
    · have waited : index ∈ solution.waiting := by
        rw [waits]
        exact List.mem_cons_of_mem _ still
      obtain ⟨entry, decided⟩ := progress.decided waited
      exact ⟨entry, grows decided⟩
    · exact ⟨scopes, carried.decides.mpr (.inr ⟨new, rfl⟩)⟩
  · intro index other entry' foundOther decidedOther
    rcases carried.fresh decidedOther with before | waits'
    · rcases progress.followed foundOther before with waited | done
      · rw [waits] at waited
        rcases List.mem_cons.mp waited with rfl | still
        · -- the block that has just been followed
          rw [found] at foundOther
          obtain rfl := Option.some.inj foundOther
          unfold Decides at decided before
          rw [decided] at before
          obtain rfl := Option.some.inj before
          exact .inr followed
        · exact .inl (carried.keeps still)
      · exact .inr (done.mono grows)
    · exact .inl waits'
  · -- the followed block no longer waits, and carrying balances
    have spent := carried.budget
    simp only [Solution.budget, waits, List.length_cons] at spent ⊢
    omega

/-- Every entry stays that of a path. -/
theorem Traced.advance (cut : Cut flow.code flow.blocks flow.blockAt)
    (progress : Progress flow solution) (traced : Traced flow solution.entries)
    (nonempty : solution.waiting ≠ []) (advanced : flow.advance solution = .ok after) :
    Traced flow after.entries := by
  obtain ⟨current, waiting, waits⟩ := List.exists_cons_of_ne_nil nonempty
  obtain ⟨block, entry, found, decided⟩ := progress.first waits
  rw [advance_eq waits found decided] at advanced
  obtain ⟨scopes, targets, carried, -, reached, starts⟩ :=
    carried_of_follow cut { solution with waiting } progress.size found advanced
  intro index other entry' foundOther decidedOther
  rcases carried.decides.mp decidedOther with before | ⟨member, rfl⟩
  · exact traced foundOther before
  · obtain ⟨target, isTarget, rfl⟩ := List.mem_map.mp member
    obtain ⟨following, foundNext, begins⟩ := starts target isTarget
    rw [foundOther] at foundNext
    obtain rfl := Option.some.inj foundNext
    rw [begins]
    exact reached (traced found decided) target isTarget

end

/-! ### Runs of the worklist -/

section
variable {flow : Flow} {solution after : Solution}

/-- A worklist that has run empty is a solution. -/
theorem Progress.solved (progress : Progress flow solution) (empty : solution.waiting = []) :
    Solved flow solution.entries where
  entry := progress.entry
  followed := by
    intro index block entry found decided
    rcases progress.followed found decided with waits | followed
    · rw [empty] at waits
      cases waits
    · exact followed

/-- A run with enough steps keeps the invariant, and no block waits at its end. -/
theorem Progress.advanceBy (cut : Cut flow.code flow.blocks flow.blockAt) {steps : Nat}
    (progress : Progress flow solution) (enough : solution.budget ≤ steps)
    (ran : flow.advanceBy steps solution = .ok after) :
    Progress flow after ∧ after.waiting = [] := by
  induction steps generalizing solution with
  | zero =>
      -- no budget is left, so no block waits
      have empty : solution.waiting = [] := by
        rw [← List.length_eq_zero_iff]
        unfold Solution.budget at enough
        omega
      cases ran
      exact ⟨progress, empty⟩
  | succ steps ih =>
      unfold Flow.advanceBy at ran
      split at ran
      next empty =>
        cases ran
        exact ⟨progress, List.isEmpty_iff.mp empty⟩
      next nonempty =>
        obtain ⟨middle, advanced, others⟩ := bind_eq_ok.mp ran
        obtain ⟨kept, spent⟩ :=
          progress.advance cut (fun empty => nonempty (List.isEmpty_iff.mpr empty)) advanced
        exact ih kept (by omega) others

/-- **A run with enough steps ends in a solution.** -/
theorem Progress.solved_of_advanceBy (cut : Cut flow.code flow.blocks flow.blockAt) {steps : Nat}
    (progress : Progress flow solution) (enough : solution.budget ≤ steps)
    (ran : flow.advanceBy steps solution = .ok after) : Solved flow after.entries := by
  obtain ⟨kept, empty⟩ := progress.advanceBy cut enough ran
  exact kept.solved empty

/-- A path to the start of a block goes on through the block if the discipline is kept. -/
theorem exists_walk (cut : Cut flow.code flow.blocks flow.blockAt)
    (keeps : KeepsDiscipline flow.context flow.code) {index count : Nat} {block : Block}
    {entry : Scopes} (found : flow.blocks[index]? = some block)
    (path : Reaches flow.context flow.code block.start entry)
    (inside : block.start + count ≤ block.stop) :
    ∃ middle, flow.walk count block.start entry = .ok middle := by
  induction count with
  | zero => exact ⟨entry, rfl⟩
  | succ count ih =>
      obtain ⟨middle, walked⟩ := ih (by omega)
      have ends := (cut.bounds found).2
      have here : flow.code[block.start + count]? = some (flow.code[block.start + count]) :=
        Array.getElem?_eq_getElem (by omega)
      obtain ⟨next, stepped⟩ := keeps.steps (reaches_last cut found path (by omega) walked) here
      exact ⟨next, (Flow.walk_succ_eq_ok here).mpr ⟨middle, walked, stepped⟩⟩

/-- If the discipline is kept, a block can be followed from what a path brings to it. -/
theorem exists_follow (cut : Cut flow.code flow.blocks flow.blockAt)
    (keeps : KeepsDiscipline flow.context flow.code) (solution : Solution)
    (traced : Traced flow solution.entries) (size : solution.entries.size = flow.blocks.size)
    {index : Nat} {block : Block} {entry : Scopes} (found : flow.blocks[index]? = some block)
    (path : Reaches flow.context flow.code block.start entry) :
    ∃ after, flow.follow solution block entry = .ok after := by
  obtain ⟨nonempty, ends⟩ := cut.bounds found
  obtain ⟨last, here⟩ : ∃ last, flow.code[block.stop - 1]? = some last :=
    ⟨_, Array.getElem?_eq_getElem (by omega)⟩
  have length : block.stop - block.start = block.stop - 1 - block.start + 1 := by omega
  have atEnd : block.start + (block.stop - 1 - block.start) = block.stop - 1 := by omega
  have within : block.start + (block.stop - block.start) ≤ block.stop := by omega
  obtain ⟨scopes, walked⟩ := exists_walk cut keeps found path within
  obtain ⟨before, walkedTo, stepped⟩ :=
    (Flow.walk_succ_eq_ok (by rw [atEnd]; exact here)).mp (length ▸ walked)
  have toLast := reaches_last cut found path (by omega) walkedTo
  rw [atEnd] at toLast
  -- what the verifier could object to here, the discipline rules out on the path to this block
  have more : last.isTerminator = false → block.stop - 1 + 1 ≠ flow.code.size := by
    intro falls past
    have beyond : Reaches flow.context flow.code (block.stop - 1 + 1) scopes :=
      .next toLast here stepped (.inr ⟨falls, rfl⟩)
    rw [past] at beyond
    exact keeps.inside beyond
  have balanced : last = .ret → scopes = [] := by
    rintro rfl
    rw [Scopes.step_ret] at stepped
    rw [← Except.ok.inj stepped]
    exact keeps.balanced toLast here
  obtain ⟨targets, successors⟩ := Flow.exists_successors balanced more
  obtain ⟨-, -, isTarget⟩ := Flow.successors_eq_ok_iff successors
  have starts := blockOf_successor cut found here successors
  have inside : ∀ target ∈ targets, flow.blockOf target < solution.entries.size := by
    intro target member
    obtain ⟨following, foundNext, -⟩ := starts target member
    rw [size]
    exact (Array.getElem?_eq_some_iff.mp foundNext).1
  have agree : ∀ target ∈ targets, ∀ known, Decides solution.entries (flow.blockOf target) known →
      known = scopes := by
    intro target member known decided
    obtain ⟨following, foundNext, begins⟩ := starts target member
    -- an earlier entry is that of another path to the same position
    have other := traced foundNext decided
    rw [begins] at other
    exact keeps.agree other (.next toLast here stepped ((isTarget target).mp member))
  obtain ⟨after, carried⟩ := exists_foldlM_carry (block.stop - 1) inside agree
  exact ⟨after, (follow_eq_ok_iff cut found).mpr
    ⟨scopes, last, targets, walked, here, successors, carried⟩⟩

/-- **Code that keeps the discipline is not rejected**, however long the worklist runs. -/
theorem exists_advanceBy (cut : Cut flow.code flow.blocks flow.blockAt)
    (keeps : KeepsDiscipline flow.context flow.code) (steps : Nat)
    (progress : Progress flow solution) (traced : Traced flow solution.entries) :
    ∃ after, flow.advanceBy steps solution = .ok after := by
  induction steps generalizing solution with
  | zero => exact ⟨solution, rfl⟩
  | succ steps ih =>
      unfold Flow.advanceBy
      split
      · exact ⟨solution, rfl⟩
      next some =>
        have nonempty : solution.waiting ≠ [] := fun empty => some (List.isEmpty_iff.mpr empty)
        obtain ⟨index, waiting, waits⟩ := List.exists_cons_of_ne_nil nonempty
        obtain ⟨block, entry, found, decided⟩ := progress.first waits
        obtain ⟨middle, followed⟩ := exists_follow cut keeps { solution with waiting } traced
          progress.size found (traced found decided)
        rw [← advance_eq waits found decided] at followed
        obtain ⟨after, others⟩ := ih (progress.advance cut nonempty followed).1
          (traced.advance cut progress nonempty followed)
        exact ⟨after, bind_eq_ok.mpr ⟨middle, followed, others⟩⟩

end

/-! ### Procedures -/

/-- What the verifier has found for a procedure that it accepts. -/
theorem solveProc_eq_ok {module : Module} {proc : ProcId} {flow : Flow} {solution : Solution}
    (verified : solveProc module proc = .ok (flow, solution)) :
    ∃ declared, module.proc? proc = some declared ∧ declared.instructions = .ok flow.code ∧
      flow.code ≠ #[] ∧ ScopeContext.of? module proc = some flow.context ∧
      Cut flow.code flow.blocks flow.blockAt ∧ Solved flow solution.entries := by
  unfold solveProc at verified
  simp only [bind_eq_ok, orError_eq_ok, liftCodec_eq_ok] at verified
  obtain ⟨context, resolves, declared, found, code, decoded, verified⟩ := verified
  split at verified
  · cases verified
  next nonempty =>
    simp only [bind_eq_ok] at verified
    obtain ⟨flow', cutInto, solution', solved, same⟩ := verified
    cases same
    unfold Flow.of at cutInto
    obtain ⟨blocks, basic, made⟩ := bind_eq_ok.mp cutInto
    cases made
    have some : code ≠ #[] := fun empty => nonempty (by rw [empty]; rfl)
    have cut := cut_of_basicBlocks (Array.size_pos_iff.mpr some) basic
    refine ⟨declared, found, decoded, some, resolves, cut, ?_⟩
    let flow : Flow := ⟨context, proc, code, blocks, blockIndices blocks⟩
    have progress : Progress flow flow.start := progress_start cut
    exact progress.solved_of_advanceBy cut (Nat.le_of_eq (budget_start cut)) solved

/-- The verifier accepts a procedure whose paths all keep the discipline. -/
theorem exists_solveProc {module : Module} {proc : ProcId} {declared : ProcDef}
    {context : ScopeContext} {code : Array Instruction}
    (resolves : ScopeContext.of? module proc = some context)
    (found : module.proc? proc = some declared) (decoded : declared.instructions = .ok code)
    (nonempty : code ≠ #[]) (lands : JumpsLand code) (keeps : KeepsDiscipline context code) :
    ∃ result, solveProc module proc = .ok result := by
  obtain ⟨blocks, basic⟩ : ∃ blocks, basicBlocks proc code = .ok blocks := by
    obtain ⟨marks, -, basic⟩ := basicBlocks_eq_ok proc lands
    exact ⟨_, basic⟩
  have cut := cut_of_basicBlocks (Array.size_pos_iff.mpr nonempty) basic
  let flow : Flow := ⟨context, proc, code, blocks, blockIndices blocks⟩
  have progress : Progress flow flow.start := progress_start cut
  obtain ⟨solution, solved⟩ :=
    exists_advanceBy cut keeps blocks.size progress (traced_start cut)
  refine ⟨(flow, solution), ?_⟩
  unfold solveProc
  simp only [bind_eq_ok, orError_eq_ok, liftCodec_eq_ok]
  refine ⟨context, resolves, declared, found, code, decoded, ?_⟩
  rw [if_neg (by rw [Array.isEmpty_iff]; exact nonempty)]
  simp only [bind_eq_ok]
  exact ⟨_, bind_eq_ok.mpr ⟨blocks, basic, rfl⟩, solution, solved, rfl⟩

/-- **The verifier is exact.** It accepts a procedure whose type is declared if and only if the code
decodes to at least one instruction, every jump lands, and all paths keep the scope discipline. -/
theorem verifyProc_eq_ok_iff {module : Module} {proc : ProcId} {declared : ProcDef}
    {type : ProcType} (found : module.proc? proc = some declared)
    (resolves : module.ptype? declared.ptype = some type) :
    verifyProc module proc = .ok () ↔
      ∃ code, declared.instructions = .ok code ∧ code ≠ #[] ∧ JumpsLand code ∧
        KeepsDiscipline ⟨module, type.io⟩ code := by
  have context : ScopeContext.of? module proc = some ⟨module, type.io⟩ := by
    rw [ScopeContext.of?, Module.ioOf?, found, Option.bind_some, resolves]
    rfl
  constructor
  · intro verified
    obtain ⟨⟨flow, solution⟩, solved, -⟩ := bind_eq_ok.mp verified
    obtain ⟨declared', found', decoded, nonempty, context', cut, solved⟩ := solveProc_eq_ok solved
    rw [found] at found'
    obtain rfl := Option.some.inj found'
    rw [context] at context'
    have same := Option.some.inj context'
    refine ⟨flow.code, decoded, nonempty, cut.lands, ?_⟩
    rw [same]
    exact solved.keepsDiscipline cut
  · rintro ⟨code, decoded, nonempty, lands, keeps⟩
    obtain ⟨result, solved⟩ := exists_solveProc context found decoded nonempty lands keeps
    exact bind_eq_ok.mpr ⟨result, solved, rfl⟩

/-- The module that the factorial sample builds. -/
def Samples.factorialModule : Module :=
  match factorial Builder.initial with
  | .ok _ builder => builder.module
  | .error _ builder => builder.module

/-- The loop of the factorial sample keeps the discipline on all its paths. -/
theorem factorial_keepsDiscipline :
    KeepsDiscipline ⟨Samples.factorialModule, ⟨1, by decide⟩⟩
      (Samples.factorialCode ⟨1, by decide⟩ ⟨2, by decide⟩).toArray := by
  have verified : verifyProc Samples.factorialModule Samples.entry = .ok () := rfl
  obtain ⟨code, decoded, -, -, keeps⟩ := (verifyProc_eq_ok_iff rfl rfl).mp verified
  have same : Except.ok (Samples.factorialCode ⟨1, by decide⟩ ⟨2, by decide⟩).toArray
      = (Except.ok code : Except CodecError (Array Instruction)) := decoded
  rw [Except.ok.inj same]
  exact keeps

/-! ### Modules -/

/-- The verifier finds a solution for every procedure of a module that it accepts. -/
theorem exists_solveProc_of_verifyModule {module : Module} (verified : verifyModule module = .ok ())
    {proc : ProcId} {declared : ProcDef} (found : module.proc? proc = some declared) :
    ∃ flow solution, solveProc module proc = .ok (flow, solution) := by
  have inside : proc.index.toNat < module.procs.size := (Array.getElem?_eq_some_iff.mp found).1
  have accepted := forM_eq_ok.mp verified proc.index.toNat (List.mem_range.mpr inside)
  rw [UInt32.ofNat_toNat] at accepted
  obtain ⟨⟨flow, solution⟩, solved, -⟩ := bind_eq_ok.mp accepted
  exact ⟨flow, solution, solved⟩

end ScopeMachine
