import ScopeMachine.ControlFlow

/-! # Basic blocks cut the code

The positions that `leaders` marks are exactly those where control can arrive other than from the
instruction before, and the blocks between them tile the code.

* `JumpsLand` says that every jump leads to an instruction of the code, and `IsLeader` that control
  can arrive at a position from elsewhere; `Strays` is a jump that leads to no instruction;
* `leaders_eq_ok` and `leaders_eq_error` decide when the marks exist, and what they are;
* `Tiles` says that blocks follow each other without gap, `Divides` that they do so and start where
  control can arrive, and `basicBlocks_divide` when code is divided and by which blocks;
* `Cut` collects what the verifier uses about the blocks of a procedure, and `Divides.cut` proves it
  of all blocks that divide the code. -/

namespace ScopeMachine

/-- The positions of a block, in order. -/
def Block.positions (block : Block) : List Nat :=
  List.range' block.start (block.stop - block.start)

namespace ControlFlow

/-! ### Leaders -/

/-- Every jump of the code, reachable or not, leads to an instruction of the code. -/
def JumpsLand (code : Array Instruction) : Prop :=
  ∀ (position : Nat) (instruction : Instruction), code[position]? = some instruction →
    instruction.isJump →
      ∃ target, instruction.jumpTarget? position = some target ∧ target < code.size

/-- The instruction at `position` makes `target` the start of a block: it jumps there, or control
does not simply pass on from it to there. -/
def Parts (instruction : Instruction) (position target : Nat) : Prop :=
  instruction.jumpTarget? position = some target ∨
    ((instruction.isJump || instruction.isTerminator) = true ∧ target = position + 1)

/-- Control can arrive at a position from elsewhere than the instruction before. -/
def IsLeader (code : Array Instruction) (target : Nat) : Prop :=
  target = 0 ∨ ∃ (position : Nat) (instruction : Instruction), code[position]? = some instruction ∧
    Parts instruction position target

/-- Only jumps have a target. -/
theorem isJump_of_jumpTarget? {instruction : Instruction} {position target : Nat}
    (found : instruction.jumpTarget? position = some target) : instruction.isJump = true := by
  unfold Instruction.jumpTarget? at found
  unfold Instruction.isJump
  cases offset : instruction.jumpOffset? with
  | none => rw [offset] at found; cases found
  | some _ => rfl

/-- The instruction at a position jumps by a distance that leads to no instruction of the code. -/
def Strays (code : Array Instruction) (position : Nat) (distance : Int32) : Prop :=
  ∃ instruction, code[position]? = some instruction ∧ instruction.jumpOffset? = some distance ∧
    ∀ target, instruction.jumpTarget? position = some target → code.size ≤ target

/-- All jumps land if none strays. -/
theorem jumpsLand_iff {code : Array Instruction} :
    JumpsLand code ↔ ∀ position distance, ¬ Strays code position distance := by
  constructor
  · rintro lands position distance ⟨instruction, found, jumps, outside⟩
    obtain ⟨target, leads, inside⟩ :=
      lands position instruction found (Option.isSome_iff_exists.mpr ⟨distance, jumps⟩)
    exact absurd inside (Nat.not_lt.mpr (outside target leads))
  · intro none position instruction found jumps
    obtain ⟨distance, isDistance⟩ := Option.isSome_iff_exists.mp jumps
    apply Classical.byContradiction
    intro away
    refine none position distance ⟨instruction, found, isDistance, ?_⟩
    intro target leads
    exact Nat.not_lt.mp fun inside => away ⟨target, leads, inside⟩

/-- If some jump strays, one of them is the first. -/
theorem exists_first_stray {code : Array Instruction} {position : Nat} {distance : Int32}
    (strays : Strays code position distance) :
    ∃ first distance, Strays code first distance ∧
      ∀ earlier < first, ∀ other, ¬ Strays code earlier other := by
  induction position using Nat.strongRecOn generalizing distance with
  | ind position ih =>
      by_cases sooner : ∃ earlier < position, ∃ other, Strays code earlier other
      · obtain ⟨earlier, before, other, straysToo⟩ := sooner
        exact ih earlier before straysToo
      · refine ⟨position, distance, strays, ?_⟩
        intro earlier before other straysToo
        exact sooner ⟨earlier, before, other, straysToo⟩

/-- Setting a mark in bounds is what it says, and out of bounds it does nothing. -/
theorem getElem?_setIfInBounds_eq_true {marks : Array Bool} {target position : Nat} :
    (marks.setIfInBounds target true)[position]? = some true ↔
      marks[position]? = some true ∨ (position < marks.size ∧ position = target) := by
  rw [Array.getElem?_setIfInBounds]
  by_cases same : target = position
  · subst same
    by_cases inside : target < marks.size <;> simp [inside]
  · have other : position ≠ target := fun equal => same equal.symm
    simp [same, other]

/-- An instruction whose jump lands marks the positions that it parts. -/
theorem markLeaders_eq_ok (proc : ProcId) (marks : Array Bool) {instruction : Instruction}
    {position : Nat}
    (lands : instruction.isJump →
      ∃ target, instruction.jumpTarget? position = some target ∧ target < marks.size) :
    ∃ result, markLeaders proc marks instruction position = .ok result ∧
      result.size = marks.size ∧
      ∀ target, result[target]? = some true ↔
        marks[target]? = some true ∨ (target < marks.size ∧ Parts instruction position target) := by
  unfold markLeaders
  cases offset : instruction.jumpOffset? with
  | none =>
      have noTarget : instruction.jumpTarget? position = none := by
        rw [Instruction.jumpTarget?, offset]; rfl
      refine ⟨_, rfl, ?_, ?_⟩
      · split <;> simp
      · intro target
        unfold Parts
        rw [noTarget]
        split
        next parts => simp [getElem?_setIfInBounds_eq_true, parts]
        next parts => simp [parts]
  | some distance =>
      have jumps : instruction.isJump = true := by rw [Instruction.isJump, offset]; rfl
      obtain ⟨goal, found, inside⟩ := lands jumps
      refine ⟨(marks.setIfInBounds goal true).setIfInBounds (position + 1) true, ?_, ?_, ?_⟩
      · simp only [found, inside, jumps, if_true, Bool.true_or]
        rfl
      · simp
      · intro target
        rw [getElem?_setIfInBounds_eq_true, getElem?_setIfInBounds_eq_true]
        unfold Parts
        rw [found]
        simp only [jumps, Bool.true_or, true_and, Option.some.injEq, Array.size_setIfInBounds]
        constructor
        · rintro ((marked | ⟨below, rfl⟩) | ⟨below, rfl⟩)
          · exact .inl marked
          · exact .inr ⟨below, .inl rfl⟩
          · exact .inr ⟨below, .inr rfl⟩
        · rintro (marked | ⟨below, rfl | rfl⟩)
          · exact .inl (.inl marked)
          · exact .inl (.inr ⟨below, rfl⟩)
          · exact .inr ⟨below, rfl⟩

/-- An instruction whose jump does not land is a range error, which names the jump. -/
theorem markLeaders_eq_error (proc : ProcId) (marks : Array Bool) {instruction : Instruction}
    {position : Nat} {distance : Int32} (jumps : instruction.jumpOffset? = some distance)
    (outside : ∀ target, instruction.jumpTarget? position = some target → marks.size ≤ target) :
    markLeaders proc marks instruction position =
      .error (.range (.jumpOutside position proc distance.toInt)) := by
  unfold markLeaders
  rw [jumps]
  cases found : instruction.jumpTarget? position with
  | none => rfl
  | some target =>
      have beyond := outside target found
      simp only [if_neg (Nat.not_lt.mpr beyond)]
      rfl

/-- The fold over instructions in order: the marks grow by what each instruction parts. -/
theorem foldlM_markLeaders_eq_ok (proc : ProcId) (entries : List (Instruction × Nat))
    (marks : Array Bool)
    (lands : ∀ entry ∈ entries, entry.1.isJump →
      ∃ target, entry.1.jumpTarget? entry.2 = some target ∧ target < marks.size) :
    ∃ result, entries.foldlM (fun marks entry => markLeaders proc marks entry.1 entry.2) marks =
        .ok result ∧ result.size = marks.size ∧
      ∀ target, result[target]? = some true ↔
        marks[target]? = some true ∨
          (target < marks.size ∧ ∃ entry ∈ entries, Parts entry.1 entry.2 target) := by
  induction entries generalizing marks with
  | nil => exact ⟨marks, rfl, rfl, by simp⟩
  | cons entry entries ih =>
      obtain ⟨middle, marked, size, reads⟩ := markLeaders_eq_ok proc marks
        (lands entry List.mem_cons_self)
      obtain ⟨result, folded, sizes, readsAll⟩ := ih middle (by
        intro later member jumps
        rw [size]
        exact lands later (List.mem_cons_of_mem _ member) jumps)
      refine ⟨result, ?_, sizes.trans size, ?_⟩
      · rw [List.foldlM_cons, marked]
        exact folded
      · intro target
        rw [readsAll, reads, size]
        constructor
        · rintro ((before | ⟨below, parts⟩) | ⟨below, later, member, parts⟩)
          · exact .inl before
          · exact .inr ⟨below, entry, List.mem_cons_self, parts⟩
          · exact .inr ⟨below, later, List.mem_cons_of_mem _ member, parts⟩
        · rintro (before | ⟨below, later, member, parts⟩)
          · exact .inl (.inl before)
          · rcases List.mem_cons.mp member with rfl | member
            · exact .inl (.inr ⟨below, parts⟩)
            · exact .inr ⟨below, later, member, parts⟩

/-- The fold fails at the first jump that does not land. -/
theorem foldlM_markLeaders_eq_error (proc : ProcId) {before after : List (Instruction × Nat)}
    {instruction : Instruction} {position : Nat} {distance : Int32} (marks : Array Bool)
    (lands : ∀ entry ∈ before, entry.1.isJump →
      ∃ target, entry.1.jumpTarget? entry.2 = some target ∧ target < marks.size)
    (jumps : instruction.jumpOffset? = some distance)
    (outside : ∀ target, instruction.jumpTarget? position = some target → marks.size ≤ target) :
    (before ++ (instruction, position) :: after).foldlM
        (fun marks entry => markLeaders proc marks entry.1 entry.2) marks =
      .error (.range (.jumpOutside position proc distance.toInt)) := by
  obtain ⟨middle, folded, size, -⟩ := foldlM_markLeaders_eq_ok proc before marks lands
  rw [List.foldlM_append, folded]
  have failed := markLeaders_eq_error proc middle jumps (by rwa [size])
  show ((instruction, position) :: after).foldlM
    (fun marks entry => markLeaders proc marks entry.1 entry.2) middle = _
  rw [List.foldlM_cons, failed]
  rfl

/-- Positions paired with the instructions of the code. -/
theorem mem_zipIdx_toList {code : Array Instruction} {entry : Instruction × Nat} :
    entry ∈ code.toList.zipIdx ↔ code[entry.2]? = some entry.1 := by
  rw [List.mem_zipIdx_iff_getElem?, Array.getElem?_toList]

/-- If all jumps land, the marks are the leaders. -/
theorem leaders_eq_ok (proc : ProcId) {code : Array Instruction} (lands : JumpsLand code) :
    ∃ marks, leaders proc code = .ok marks ∧ marks.size = code.size ∧
      ∀ target, marks[target]? = some true ↔ target < code.size ∧ IsLeader code target := by
  have sizeStart : ((Array.replicate code.size false).setIfInBounds 0 true).size = code.size := by
    simp
  obtain ⟨marks, folded, size, reads⟩ := foldlM_markLeaders_eq_ok proc code.toList.zipIdx
    ((Array.replicate code.size false).setIfInBounds 0 true) (by
      intro entry member jumps
      rw [sizeStart]
      exact lands entry.2 entry.1 (mem_zipIdx_toList.mp member) jumps)
  refine ⟨marks, folded, size.trans sizeStart, ?_⟩
  intro target
  rw [reads, sizeStart, getElem?_setIfInBounds_eq_true]
  have blank : ¬ (Array.replicate code.size false)[target]? = some true := by
    rw [Array.getElem?_replicate]
    split <;> simp
  constructor
  · rintro ((marked | ⟨below, rfl⟩) | ⟨below, entry, member, parts⟩)
    · exact absurd marked blank
    · exact ⟨by simpa using below, .inl rfl⟩
    · exact ⟨below, .inr ⟨entry.2, entry.1, mem_zipIdx_toList.mp member, parts⟩⟩
  · rintro ⟨below, rfl | ⟨position, instruction, found, parts⟩⟩
    · exact .inl (.inr ⟨by simpa using below, rfl⟩)
    · exact .inr ⟨below, (instruction, position), mem_zipIdx_toList.mpr found, parts⟩

/-- Marking fails at the first jump that strays, with a range error that names it. -/
theorem leaders_eq_error (proc : ProcId) {code : Array Instruction} {position : Nat}
    {distance : Int32} (strays : Strays code position distance)
    (first : ∀ earlier < position, ∀ other, ¬ Strays code earlier other) :
    leaders proc code = .error (.range (.jumpOutside position proc distance.toInt)) := by
  obtain ⟨instruction, found, jumps, outside⟩ := strays
  have size : ((Array.replicate code.size false).setIfInBounds 0 true).size = code.size := by simp
  have entry : code.toList.zipIdx[position]? = some (instruction, position) := by
    rw [List.getElem?_zipIdx, Array.getElem?_toList, found, Nat.zero_add]
    rfl
  obtain ⟨inside, isEntry⟩ := List.getElem?_eq_some_iff.mp entry
  unfold leaders
  rw [← List.take_append_drop position code.toList.zipIdx, List.drop_eq_getElem_cons inside,
    isEntry]
  refine foldlM_markLeaders_eq_error proc _ ?_ jumps (by rwa [size])
  -- a jump before this one that did not land would stray earlier
  intro earlier member jumpsToo
  obtain ⟨index, isTaken⟩ := List.mem_iff_getElem?.mp member
  rw [List.getElem?_take] at isTaken
  split at isTaken
  next before =>
    rw [List.getElem?_zipIdx, Array.getElem?_toList, Nat.zero_add] at isTaken
    obtain ⟨other, isOther, rfl⟩ := Option.map_eq_some_iff.mp isTaken
    obtain ⟨distance, isDistance⟩ := Option.isSome_iff_exists.mp jumpsToo
    rw [size]
    apply Classical.byContradiction
    intro away
    refine first index before distance ⟨other, isOther, isDistance, ?_⟩
    intro target leads
    exact Nat.not_lt.mp fun inside => away ⟨target, leads, inside⟩
  next => cases isTaken

/-! ### Tiles -/

/-- Blocks follow each other without gap, from `start` to `size`, and none is empty. -/
def Tiles : (start size : Nat) → List Block → Prop
  | start, size, [] => start = size
  | start, size, block :: blocks =>
      block.start = start ∧ start < block.stop ∧ Tiles block.stop size blocks

/-- The blocks between increasing starts tile the code from the first start. -/
theorem tiles_blocksFrom {size start : Nat} {starts : List Nat}
    (increasing : (start :: starts).Pairwise (· < ·))
    (inside : ∀ position ∈ start :: starts, position < size) :
    Tiles start size (blocksFrom size (start :: starts)) := by
  induction starts generalizing start with
  | nil =>
      rw [blocksFrom]
      exact ⟨rfl, inside start List.mem_cons_self, rfl⟩
  | cons next starts ih =>
      rw [blocksFrom]
      obtain ⟨above, rest⟩ := List.pairwise_cons.mp increasing
      refine ⟨rfl, above next List.mem_cons_self, ih rest ?_⟩
      intro position member
      exact inside position (List.mem_cons_of_mem _ member)

/-- The blocks between starts have these starts. -/
theorem map_start_blocksFrom (size : Nat) (starts : List Nat) :
    (blocksFrom size starts).map Block.start = starts := by
  induction starts with
  | nil => rfl
  | cons start starts ih =>
      cases starts with
      | nil => rfl
      | cons next starts => rw [blocksFrom, List.map_cons, ih]

/-- Tiles end where the code ends. -/
theorem Tiles.start_le {start size : Nat} {blocks : List Block} (tiles : Tiles start size blocks) :
    start ≤ size := by
  induction blocks generalizing start with
  | nil => exact Nat.le_of_eq tiles
  | cons block blocks ih =>
      obtain ⟨-, below, rest⟩ := tiles
      exact Nat.le_trans (Nat.le_of_lt below) (ih rest)

/-- Every tile is a non-empty range of the tiled part. -/
theorem Tiles.bounds {start size : Nat} {blocks : List Block} (tiles : Tiles start size blocks)
    {block : Block} (member : block ∈ blocks) :
    start ≤ block.start ∧ block.start < block.stop ∧ block.stop ≤ size := by
  induction blocks generalizing start with
  | nil => cases member
  | cons first blocks ih =>
      obtain ⟨begins, below, rest⟩ := tiles
      rcases List.mem_cons.mp member with rfl | member
      · exact ⟨Nat.le_of_eq begins.symm, begins ▸ below, rest.start_le⟩
      · obtain ⟨after, nonempty, inside⟩ := ih rest member
        exact ⟨Nat.le_trans (Nat.le_of_lt below) after, nonempty, inside⟩

/-- Every position of the tiled part is in a tile. -/
theorem Tiles.covers {start size : Nat} {blocks : List Block} (tiles : Tiles start size blocks)
    {position : Nat} (from_start : start ≤ position) (inside : position < size) :
    ∃ block ∈ blocks, block.start ≤ position ∧ position < block.stop := by
  induction blocks generalizing start with
  | nil =>
      have ends : start = size := tiles
      omega
  | cons first blocks ih =>
      obtain ⟨begins, -, rest⟩ := tiles
      by_cases within : position < first.stop
      · exact ⟨first, List.mem_cons_self, begins ▸ from_start, within⟩
      · obtain ⟨block, member, found⟩ := ih rest (Nat.not_lt.mp within)
        exact ⟨block, List.mem_cons_of_mem _ member, found⟩

/-- Where a tile ends before the code does, another begins. -/
theorem Tiles.next {start size : Nat} {blocks : List Block} (tiles : Tiles start size blocks)
    {block : Block} (member : block ∈ blocks) (more : block.stop < size) :
    ∃ next ∈ blocks, next.start = block.stop := by
  induction blocks generalizing start with
  | nil => cases member
  | cons first blocks ih =>
      obtain ⟨-, -, rest⟩ := tiles
      rcases List.mem_cons.mp member with rfl | member
      · cases blocks with
        | nil =>
            have ends : block.stop = size := rest
            omega
        | cons next blocks => exact ⟨next, by simp, rest.1⟩
      · obtain ⟨next, found, begins⟩ := ih rest member
        exact ⟨next, List.mem_cons_of_mem _ found, begins⟩

/-- No tile starts within another. -/
theorem Tiles.not_start_within {start size : Nat} {blocks : List Block}
    (tiles : Tiles start size blocks) {block other : Block} (member : block ∈ blocks)
    (otherMember : other ∈ blocks) (after : block.start < other.start) :
    block.stop ≤ other.start := by
  induction blocks generalizing start with
  | nil => cases member
  | cons first blocks ih =>
      obtain ⟨begins, below, rest⟩ := tiles
      rcases List.mem_cons.mp member with rfl | member
      · rcases List.mem_cons.mp otherMember with rfl | otherMember
        · omega
        · exact (rest.bounds otherMember).1
      · rcases List.mem_cons.mp otherMember with isFirst | otherMember
        · have later := (rest.bounds member).1
          rw [isFirst, begins] at after
          omega
        · exact ih rest member otherMember

/-- The positions of the tiles, one tile after the other, are those of the tiled part. -/
theorem Tiles.flatMap_positions {start size : Nat} {blocks : List Block}
    (tiles : Tiles start size blocks) :
    blocks.flatMap Block.positions = List.range' start (size - start) := by
  induction blocks generalizing start with
  | nil =>
      have ends : start = size := tiles
      rw [ends, Nat.sub_self]
      rfl
  | cons block blocks ih =>
      obtain ⟨rfl, below, rest⟩ := tiles
      have ends := rest.start_le
      rw [List.flatMap_cons, ih rest, Block.positions,
        show size - block.start = (block.stop - block.start) + (size - block.stop) by omega,
        ← List.range'_append_1, show block.start + (block.stop - block.start) = block.stop by omega]

/-- The list of block numbers, each as often as its block is long, counted from `index`. -/
theorem Tiles.getElem?_indices {start size : Nat} {blocks : List Block}
    (tiles : Tiles start size blocks) (index : Nat) {number : Nat} {block : Block}
    (found : blocks[number]? = some block) {position : Nat} (after : block.start ≤ position)
    (before : position < block.stop) :
    ((blocks.zipIdx index).flatMap fun entry =>
      List.replicate (entry.1.stop - entry.1.start) entry.2)[position - start]? =
      some (index + number) := by
  induction blocks generalizing start index number with
  | nil => cases found
  | cons first blocks ih =>
      obtain ⟨begins, below, rest⟩ := tiles
      rw [List.zipIdx_cons, List.flatMap_cons]
      dsimp only
      cases number with
      | zero =>
          -- the position is among the copies of the first number
          obtain rfl : first = block := Option.some.inj found
          rw [List.getElem?_append_left (by rw [List.length_replicate]; omega),
            List.getElem?_replicate, if_pos (by omega)]
          rfl
      | succ number =>
          -- the copies of the first number are passed over
          have later := (rest.bounds (List.mem_of_getElem? found)).1
          rw [List.getElem?_append_right (by rw [List.length_replicate]; omega),
            List.length_replicate,
            show position - start - (first.stop - first.start) = position - first.stop by omega]
          rw [ih rest (index + 1) found]
          congr 1
          omega

/-! ### Divisions -/

/-- The marked positions in order: they increase, and they are the leaders. -/
theorem mem_markedPositions {marks : Array Bool} {position : Nat} :
    position ∈ markedPositions marks ↔ marks[position]? = some true := by
  unfold markedPositions
  rw [List.mem_filter, List.mem_range]
  constructor
  · rintro ⟨-, marked⟩
    exact eq_of_beq marked
  · intro marked
    refine ⟨?_, by rw [marked]; rfl⟩
    by_cases inside : position < marks.size
    · exact inside
    · rw [Array.getElem?_eq_none (Nat.not_lt.mp inside)] at marked
      cases marked

/-- Marked positions are listed in increasing order. -/
theorem pairwise_markedPositions (marks : Array Bool) :
    (markedPositions marks).Pairwise (· < ·) :=
  List.pairwise_lt_range.filter _

/-- A list in increasing order that holds zero starts with zero. -/
theorem eq_zero_cons_of_increasing {positions : List Nat} (increasing : positions.Pairwise (· < ·))
    (zero : 0 ∈ positions) : ∃ rest, positions = 0 :: rest := by
  cases positions with
  | nil => cases zero
  | cons first rest =>
      rcases List.mem_cons.mp zero with rfl | member
      · exact ⟨rest, rfl⟩
      · exact absurd ((List.pairwise_cons.mp increasing).1 0 member) (Nat.not_lt_zero first)

/-- Code whose jumps land is cut into blocks, between the marks of its leaders. -/
theorem basicBlocks_eq_ok (proc : ProcId) {code : Array Instruction} (lands : JumpsLand code) :
    ∃ marks, leaders proc code = .ok marks ∧
      basicBlocks proc code = .ok (blocksFrom code.size (markedPositions marks)).toArray := by
  obtain ⟨marks, marked, -⟩ := leaders_eq_ok proc lands
  refine ⟨marks, marked, ?_⟩
  rw [basicBlocks, marked]
  rfl

/-- Code with a jump that strays is not cut: a range error that names the first such jump. -/
theorem basicBlocks_eq_error (proc : ProcId) {code : Array Instruction} {position : Nat}
    {distance : Int32} (strays : Strays code position distance)
    (first : ∀ earlier < position, ∀ other, ¬ Strays code earlier other) :
    basicBlocks proc code = .error (.range (.jumpOutside position proc distance.toInt)) := by
  rw [basicBlocks, leaders_eq_error proc strays first]
  rfl

/-- The jumps of code that is cut land. -/
theorem jumpsLand_of_basicBlocks {proc : ProcId} {code : Array Instruction} {blocks : Array Block}
    (cut : basicBlocks proc code = .ok blocks) : JumpsLand code := by
  rw [jumpsLand_iff]
  intro position distance strays
  obtain ⟨first, other, straysFirst, none⟩ := exists_first_stray strays
  rw [basicBlocks_eq_error proc straysFirst none] at cut
  cases cut

/-- Blocks divide code: they follow each other without gap from the first instruction to the last,
and they start exactly where control can arrive from elsewhere. -/
structure Divides (code : Array Instruction) (blocks : Array Block) : Prop where
  /-- The blocks follow each other without gap, and none is empty. -/
  tiles : Tiles 0 code.size blocks.toList
  /-- A block starts at the first instruction, at every target of a jump, and behind every jump and
  every instruction that does not fall through; and nowhere else. -/
  starts : ∀ position, (∃ block ∈ blocks, block.start = position) ↔
    position < code.size ∧ IsLeader code position

/-- **The basic blocks of non-empty code divide it.** -/
theorem divides_of_basicBlocks {proc : ProcId} {code : Array Instruction} {blocks : Array Block}
    (nonempty : 0 < code.size) (cut : basicBlocks proc code = .ok blocks) :
    Divides code blocks := by
  obtain ⟨marks, marked, size, reads⟩ := leaders_eq_ok proc (jumpsLand_of_basicBlocks cut)
  -- the blocks lie between the marked positions, of which the first is zero
  have isBlocks : blocks.toList = blocksFrom code.size (markedPositions marks) := by
    rw [basicBlocks, marked] at cut
    cases cut
    rfl
  have isStart : ∀ target, target ∈ markedPositions marks ↔
      target < code.size ∧ IsLeader code target := by
    intro target
    rw [mem_markedPositions, reads]
  have increasing := pairwise_markedPositions marks
  refine ⟨?_, ?_⟩
  · obtain ⟨rest, starts⟩ := eq_zero_cons_of_increasing increasing
      ((isStart 0).mpr ⟨nonempty, .inl rfl⟩)
    rw [isBlocks, starts]
    refine tiles_blocksFrom (starts ▸ increasing) fun position member => ?_
    exact ((isStart position).mp (starts ▸ member)).1
  · intro position
    rw [← isStart, ← map_start_blocksFrom code.size (markedPositions marks), ← isBlocks,
      List.mem_map]
    simp only [Array.mem_toList_iff]

section
variable {code : Array Instruction} {blocks : Array Block} {block : Block} {position : Nat}

/-- Within a block, control arrives from the instruction before only. -/
theorem Divides.not_isLeader (divides : Divides code blocks) (member : block ∈ blocks)
    (after : block.start < position) (before : position < block.stop) :
    ¬ IsLeader code position := by
  intro leads
  have inside := (divides.tiles.bounds (Array.mem_toList_iff.mpr member)).2.2
  obtain ⟨other, otherMember, rfl⟩ :=
    (divides.starts position).mpr ⟨Nat.lt_of_lt_of_le before inside, leads⟩
  have apart := divides.tiles.not_start_within (Array.mem_toList_iff.mpr member)
    (Array.mem_toList_iff.mpr otherMember) after
  omega

/-- Only the last instruction of a block is a jump or does not fall through. -/
theorem Divides.passes (divides : Divides code blocks) (member : block ∈ blocks)
    (after : block.start ≤ position) (before : position + 1 < block.stop)
    {instruction : Instruction} (found : code[position]? = some instruction) :
    instruction.isJump = false ∧ instruction.isTerminator = false := by
  rw [← Bool.or_eq_false_iff, Bool.eq_false_iff]
  intro parts
  exact divides.not_isLeader member (Nat.lt_succ_of_le after) before
    (.inr ⟨position, instruction, found, .inr ⟨parts, rfl⟩⟩)

end

/-- **Code is divided if and only if its jumps land.** Non-empty code whose jumps all land,
reachable or not, is cut into blocks that follow each other from the first instruction to the last,
start exactly where control can arrive from elsewhere, and let control pass on until their last
instruction. All other code is a range error, which names the first jump that strays. -/
theorem basicBlocks_divide (proc : ProcId) {code : Array Instruction} (nonempty : code ≠ #[]) :
    (JumpsLand code → ∃ blocks, basicBlocks proc code = .ok blocks ∧ Divides code blocks ∧
      blocks.toList.flatMap Block.positions = List.range code.size ∧
      ∀ block ∈ blocks, ∀ position instruction, block.start ≤ position → position + 1 < block.stop →
        code[position]? = some instruction →
          instruction.isJump = false ∧ instruction.isTerminator = false) ∧
    ((∃ cause, basicBlocks proc code = .error (.range cause)) ↔
      ∃ position distance, Strays code position distance) ∧
    ∀ error, basicBlocks proc code = .error error → ∃ position distance,
      Strays code position distance ∧ (∀ earlier < position, ∀ other, ¬ Strays code earlier other) ∧
        error = .range (.jumpOutside position proc distance.toInt) := by
  -- code that is not cut has a jump that strays, since code whose jumps land is cut
  have failure : ∀ error, basicBlocks proc code = .error error → ∃ position distance,
      Strays code position distance ∧ (∀ earlier < position, ∀ other, ¬ Strays code earlier other) ∧
        error = .range (.jumpOutside position proc distance.toInt) := by
    intro error failed
    obtain ⟨position, distance, strays⟩ : ∃ position distance, Strays code position distance := by
      apply Classical.byContradiction
      intro none
      obtain ⟨_, -, cut⟩ := basicBlocks_eq_ok proc
        (jumpsLand_iff.mpr fun position distance strays => none ⟨position, distance, strays⟩)
      rw [failed] at cut
      cases cut
    obtain ⟨first, other, straysFirst, none⟩ := exists_first_stray strays
    refine ⟨first, other, straysFirst, none, ?_⟩
    rw [basicBlocks_eq_error proc straysFirst none] at failed
    exact (Except.error.inj failed).symm
  refine ⟨?_, ⟨?_, ?_⟩, failure⟩
  · intro lands
    obtain ⟨_, -, cut⟩ := basicBlocks_eq_ok proc lands
    have divides := divides_of_basicBlocks (Array.size_pos_iff.mpr nonempty) cut
    refine ⟨_, cut, divides, ?_, ?_⟩
    · rw [divides.tiles.flatMap_positions, Nat.sub_zero, List.range_eq_range']
    · intro block member position instruction after before found
      exact divides.passes member after before found
  · rintro ⟨cause, failed⟩
    obtain ⟨position, distance, strays, -⟩ := failure _ failed
    exact ⟨position, distance, strays⟩
  · rintro ⟨position, distance, strays⟩
    obtain ⟨first, other, straysFirst, none⟩ := exists_first_stray strays
    exact ⟨_, basicBlocks_eq_error proc straysFirst none⟩

/-- A loop that is entered at its test, behind its body. -/
def wheel : Array Instruction :=
  #[.inc RegId.error, .jmp 3, .inc RegId.error, .dec RegId.error, .jnz RegId.error (-2), .ret]

/-- The wheel is divided into what leads to it, its body, its test and what follows it. -/
theorem wheel_divided : wheel ≠ #[] ∧ JumpsLand wheel ∧
    ∃ blocks, basicBlocks ⟨0⟩ wheel = .ok blocks ∧ Divides wheel blocks ∧
      blocks.toList.map Block.positions = [[0, 1], [2, 3], [4], [5]] := by
  have isCut : basicBlocks ⟨0⟩ wheel = .ok #[⟨0, 2⟩, ⟨2, 4⟩, ⟨4, 5⟩, ⟨5, 6⟩] := rfl
  have lands := jumpsLand_of_basicBlocks isCut
  have nonempty : wheel ≠ #[] := by decide
  obtain ⟨blocks, cut, divides, -⟩ := (basicBlocks_divide ⟨0⟩ nonempty).1 lands
  refine ⟨nonempty, lands, blocks, cut, divides, ?_⟩
  rw [isCut] at cut
  rw [← Except.ok.inj cut]
  rfl

/-! ### Cuts -/

/-- What the verifier relies on about the blocks of a procedure's code. -/
structure Cut (code : Array Instruction) (blocks : Array Block) (blockAt : Array Nat) : Prop where
  /-- Every jump leads to an instruction. -/
  lands : JumpsLand code
  /-- The first block starts at the first instruction. -/
  first : ∃ block, blocks[0]? = some block ∧ block.start = 0
  /-- Blocks are not empty and stay within the code. -/
  bounds : ∀ {index : Nat} {block : Block}, blocks[index]? = some block →
    block.start < block.stop ∧ block.stop ≤ code.size
  /-- Every position is in a block. -/
  covers : ∀ {position : Nat}, position < code.size → ∃ (index : Nat) (block : Block),
    blocks[index]? = some block ∧ block.start ≤ position ∧ position < block.stop
  /-- The table of positions names the block that a position is in. -/
  blockAt_eq : ∀ {index position : Nat} {block : Block}, blocks[index]? = some block →
    block.start ≤ position → position < block.stop → blockAt[position]? = some index
  /-- Every position where control can arrive from elsewhere starts a block. -/
  leader : ∀ {target : Nat}, target < code.size → IsLeader code target →
    ∃ (index : Nat) (block : Block), blocks[index]? = some block ∧ block.start = target
  /-- Where a block ends before the code does, another starts. -/
  next : ∀ {index : Nat} {block : Block}, blocks[index]? = some block → block.stop < code.size →
    ∃ (after : Nat) (following : Block), blocks[after]? = some following ∧
      following.start = block.stop
  /-- Control arrives within a block from the instruction before only. -/
  inner : ∀ {index target : Nat} {block : Block}, blocks[index]? = some block →
    block.start < target → target < block.stop → ¬ IsLeader code target

/-- **Blocks that divide non-empty code cut it.** -/
theorem Divides.cut {code : Array Instruction} {blocks : Array Block} (nonempty : 0 < code.size)
    (lands : JumpsLand code) (divides : Divides code blocks) :
    Cut code blocks (blockIndices blocks) := by
  have tiles := divides.tiles
  have inList : ∀ {index : Nat} {block : Block}, blocks[index]? = some block →
      block ∈ blocks.toList := fun found => Array.mem_toList_iff.mpr (Array.mem_of_getElem? found)
  refine ⟨lands, ?_, ?_, ?_, ?_, ?_, ?_, ?_⟩
  · cases isBlocks : blocks.toList with
    | nil =>
        rw [isBlocks] at tiles
        exact absurd tiles (Nat.ne_of_lt nonempty)
    | cons block rest =>
        rw [isBlocks] at tiles
        refine ⟨block, ?_, tiles.1⟩
        rw [← Array.getElem?_toList, isBlocks]
        rfl
  · exact fun found => (tiles.bounds (inList found)).2
  · intro position inside
    obtain ⟨block, member, within⟩ := tiles.covers (Nat.zero_le position) inside
    obtain ⟨index, found⟩ := Array.mem_iff_getElem?.mp (Array.mem_toList_iff.mp member)
    exact ⟨index, block, found, within⟩
  · intro index position block found after before
    rw [← Array.getElem?_toList] at found
    have entry := tiles.getElem?_indices 0 found after before
    rw [Nat.sub_zero, Nat.zero_add] at entry
    rw [blockIndices, List.getElem?_toArray]
    exact entry
  · intro target inside leads
    obtain ⟨block, member, begins⟩ := (divides.starts target).mpr ⟨inside, leads⟩
    obtain ⟨index, found⟩ := Array.mem_iff_getElem?.mp member
    exact ⟨index, block, found, begins⟩
  · intro index block found more
    obtain ⟨following, member, begins⟩ := tiles.next (inList found) more
    obtain ⟨after, foundAfter⟩ := Array.mem_iff_getElem?.mp (Array.mem_toList_iff.mp member)
    exact ⟨after, following, foundAfter, begins⟩
  · exact fun found => divides.not_isLeader (Array.mem_of_getElem? found)

/-- **The basic blocks of non-empty code cut it.** -/
theorem cut_of_basicBlocks {proc : ProcId} {code : Array Instruction} {blocks : Array Block}
    (nonempty : 0 < code.size) (cut : basicBlocks proc code = .ok blocks) :
    Cut code blocks (blockIndices blocks) :=
  (divides_of_basicBlocks nonempty cut).cut nonempty (jumpsLand_of_basicBlocks cut)

end ControlFlow

end ScopeMachine
