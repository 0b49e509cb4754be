import ScopeMachine.Proofs.Activations

/-! # The recursion of quicksort

A call of `quicksort` sorts the segment of the array that its argument names, in place, and leaves
all other variables as they were. It fails only where that takes too many activations.

* `Sorts` says this of the calls for one segment;
* `Setting.At.call` says what it means to the caller;
* `Called.sortShort` and `Called.sortLong` are the cases of a segment without and with a partition;
* `sorts` says it of all segments, by induction on their length. -/

namespace ScopeMachine

open Machine

namespace Samples

section
variable {id : ModuleId} {depth : Nat} {start machine : Machine} {rest : List Activation}

/-! ### Sorting a segment -/

/-- An activation is about to return, and has left all but the array as it was on entry. -/
structure Finished (start : Machine) (rest : List Activation) (array : Nat) (words : List Int64)
    (machine : Machine) : Prop where
  /-- The activation returns. -/
  calls : machine.calls.activations = ⟨entry, 41, []⟩ :: rest
  /-- The registers are as they were. -/
  registers : machine.registers = start.registers
  /-- All other variables that were there are as they were. -/
  kept : ∀ {id : Nat}, id < start.store.next → id ≠ array →
    machine.store.get? id = start.store.get? id
  /-- Identities stay given out. -/
  next : start.store.next ≤ machine.store.next
  /-- The array holds the words. -/
  array : machine.store.get? array = some (arrayVar words)

/-- A machine comes to a call that would make too many activations. -/
def Overflows (program : Program) (machine : Machine) : Prop :=
  ∃ last after, Runs program machine last ∧ Machine.step program last =
    .error (.execution (.callDepthExceeded program.maxCallDepth)) after

/-- What a machine comes to, all machines on the way come to. -/
theorem Overflows.of_runs {program : Program} {after : Machine} (ran : Runs program machine after)
    (overflows : Overflows program after) : Overflows program machine := by
  obtain ⟨last, failed, further, fails⟩ := overflows
  exact ⟨last, failed, ran.trans further, fails⟩

/-- The first and the last position of a segment that lies behind `front`. -/
def positions (front segment : List Int64) : List Int64 :=
  [Int64.ofInt front.length, Int64.ofInt (front.length + segment.length - 1)]

/-- An activation that is called for a segment sorts it, or comes to a call too many; this takes
more activations than the segment has words. -/
def Sorts (id : ModuleId) (depth : Nat) (segment : List Int64) : Prop :=
  ∀ {array argument : Nat} {front back : List Int64} {rest : List Activation} {start : Machine},
    Called array argument (front ++ segment ++ back) (positions front segment) rest start →
    (front ++ segment ++ back).length ≤ 2 ^ 32 →
    (∃ sorted machine, Runs (sortProgram id depth) start machine ∧
      Finished start rest array (front ++ sorted ++ back) machine ∧
      sorted.Perm segment ∧ sorted.Pairwise (· ≤ ·)) ∨
    (depth < rest.length + max 1 segment.length ∧ Overflows (sortProgram id depth) start)

/-- After a call, the activation goes on with the array that the call has left. -/
theorem Setting.At.resume {setting : Setting} {argument pc : Nat} {scopes : Scopes}
    {locals : Locals} {entered finished after : Machine} {words : List Int64}
    (here : setting.At argument scopes pc locals machine) (same : SameData machine entered)
    (done : Finished entered (⟨entry, pc + 1, scopes⟩ :: setting.rest) setting.array words finished)
    (sameAfter : SameData finished after)
    (calls : after.calls.activations = ⟨entry, pc + 1, scopes⟩ :: setting.rest) :
    setting.At argument scopes (pc + 1) { locals with array := words } after := by
  have registers : after.registers = machine.registers := by
    rw [sameAfter.registers, done.registers, same.registers]
  -- entering and returning leave the data as it is, and the activation itself all but the array
  have kept : ∀ {id : Nat}, id < machine.store.next → id ≠ setting.array →
      after.store.get? id = machine.store.get? id := by
    intro id old notArray
    rw [sameAfter.store, done.kept (same.store ▸ old) notArray, same.store]
  have next : machine.store.next ≤ after.store.next := by
    rw [sameAfter.store, ← same.store]
    exact done.next
  refine ⟨calls, registers ▸ here.above, registers ▸ here.frames, ?_, here.two, here.older,
    here.apart, ?_, Nat.le_trans here.next next⟩
  · intro place
    by_cases isArray : place = .array
    · rw [isArray, sameAfter.store]
      exact done.array
    · have found := here.vars place
      rw [kept (Slots.lt_next_of_get? found) fun equal => isArray (here.id_inj equal), found]
      cases place with
      | array => exact absurd rfl isArray
      | argument | word => rfl
  · intro id old notArray notArgument
    have next := here.next
    rw [kept (by omega) notArray, here.kept old notArray notArgument]

/-- **A call** sorts the segment that the argument names, or it is one too many. -/
theorem Setting.At.call {setting : Setting} {argument pc : Nat} {scopes : Scopes}
    {locals : Locals} {front segment back : List Int64}
    (here : setting.At argument scopes pc locals machine)
    (fetched : sortCode[pc]? = some (.call entry)) (sorts : Sorts id depth segment)
    (array : locals.array = front ++ segment ++ back)
    (bounds : locals.bounds = positions front segment)
    (fits : locals.array.length ≤ 2 ^ 32) (size : setting.start.registers.byReg.size = 10) :
    (∃ sorted after, Runs (sortProgram id depth) machine after ∧
      setting.At argument scopes (pc + 1) { locals with array := front ++ sorted ++ back } after ∧
      sorted.Perm segment ∧ sorted.Pairwise (· ≤ ·)) ∨
    (depth < setting.rest.length + 1 + max 1 segment.length ∧
      Overflows (sortProgram id depth) machine) := by
  rcases step_call here.calls fetched with ⟨full, after, failed⟩ | ⟨entered, enters, same, calls⟩
  · exact .inr ⟨by omega, machine, after, .refl, failed⟩
  · have called : Called setting.array argument (front ++ segment ++ back)
        (positions front segment) (⟨entry, pc + 1, scopes⟩ :: setting.rest) entered := by
      rw [← array, ← bounds]
      refine ⟨calls, ?_, ?_, ?_, ?_, here.two⟩
      · rw [same.registers, here.above.size, size]
      · rw [same.registers]
        exact here.frames .argument
      · rw [same.store]
        exact here.vars .argument
      · rw [same.store]
        exact here.vars .array
    rcases sorts called (array ▸ fits) with
      ⟨sorted, finished, ran, done, perm, ordered⟩ | ⟨deep, overflows⟩
    · obtain ⟨after, returns, sameAfter, callsAfter⟩ := step_return done.calls
      have toReturn : Runs (sortProgram id depth) machine finished := .head enters ran
      exact .inl ⟨sorted, after, toReturn.tail returns,
        here.resume same done sameAfter callsAfter, perm, ordered⟩
    · exact .inr ⟨deep, overflows.of_runs (.single enters)⟩

/-! ### Finishing -/

/-- Closing the scopes finishes the activation. -/
theorem exists_finished {array : Nat} {words : List Int64}
    (calls : machine.calls.activations = ⟨entry, 40, ownScopes⟩ :: rest)
    (above : Above start.registers machine.registers ownScopes)
    (size : start.registers.byReg.size = 10)
    (kept : ∀ {id : Nat}, id < start.store.next → id ≠ array →
      machine.store.get? id = start.store.get? id)
    (next : start.store.next ≤ machine.store.next)
    (found : machine.store.get? array = some (arrayVar words)) :
    ∃ after, Runs (sortProgram id depth) machine after ∧
      Finished start rest array words after := by
  obtain ⟨after, closes, callsAfter, registers, store⟩ := exists_close calls above size
  rw [← store] at kept next found
  exact ⟨after, .single closes, callsAfter, registers, kept, next, found⟩

/-- An activation without calls finishes. -/
theorem Setting.At.finish {setting : Setting} {argument : Nat} {locals : Locals}
    (here : setting.At argument ownScopes 40 locals machine)
    (size : setting.start.registers.byReg.size = 10)
    (same : setting.start.store.get? argument = some (argsVar locals.bounds (some setting.array))) :
    ∃ after, Runs (sortProgram id depth) machine after ∧
      Finished setting.start setting.rest setting.array locals.array after := by
  refine exists_finished here.calls here.above size ?_
    (Nat.le_trans (Nat.le_add_right _ _) here.next) (here.vars .array)
  intro id old notArray
  by_cases isArgument : id = argument
  · rw [isArgument, same]
    exact here.vars .argument
  · exact here.kept old notArray isArgument

/-- An activation finishes after its calls. -/
theorem Setting.At.finishCalls {setting : Setting} {argument : Nat} {locals : Locals}
    (here : setting.At argument (argsReg :: ownScopes) 39 locals machine)
    (size : setting.start.registers.byReg.size = 10) (new : setting.start.store.next ≤ argument) :
    ∃ after, Runs (sortProgram id depth) machine after ∧
      Finished setting.start setting.rest setting.array locals.array after := by
  obtain ⟨middle, closes, calls, above, store⟩ := exists_closeArgument here.calls here.above
  have next := here.next
  have found := here.vars .array
  rw [← store] at next found
  obtain ⟨after, ran, finished⟩ := exists_finished calls above size (fun {id} old notArray => by
    rw [store, here.kept old notArray (by omega)]) (Nat.le_trans (Nat.le_add_right _ _) next) found
  exact ⟨after, .head closes ran, finished⟩

/-! ### Both sides of the pivot -/

section
variable {front small large back bounds : List Int64} {pivot : Int64} {locals : Locals}

/-- The positions in the argument do not matter to the partition. -/
theorem Parted.withBounds (parted : Parted front small pivot large back bounds locals)
    (others : List Int64) :
    Parted front small pivot large back others { locals with bounds := others } :=
  ⟨parted.array, parted.lo, parted.hi, parted.i, rfl, parted.below, parted.notBelow⟩

/-- The argument of the first call names the words below the pivot. -/
theorem Parted.first (parted : Parted front small pivot large back [0, 0] locals) :
    ∃ after, Walks (29, locals) (33, after) ∧
      Parted front small pivot large back (positions front small) after := by
  refine ⟨_, .first (.storeBound .lo 0 rfl (by decide)) rfl <| .first (.copy .x .i) rfl <|
    .first (.dec .x) rfl <| .first (.storeBound .x 1 rfl (by decide)) rfl .refl,
    parted.array, parted.lo, parted.hi, parted.i, ?_, parted.below, parted.notBelow⟩
  show (locals.bounds.set 0 (locals.word .lo)).set 1 (locals.word .i - 1) = _
  rw [parted.bounds, parted.lo, parted.i, Int.natCast_add]
  unfold positions
  rw [Int64.ofInt_sub]
  rfl

/-- The argument of the second call names the words behind the pivot. -/
theorem Parted.second {first last : Int64}
    (parted : Parted front small pivot large back [first, last] locals) :
    ∃ after, Walks (34, locals) (38, after) ∧
      Parted front small pivot large back (positions (front ++ small ++ [pivot]) large) after := by
  refine ⟨_, .first (.copy .x .i) rfl <| .first (.inc .x) rfl <|
    .first (.storeBound .x 0 rfl (by decide)) rfl <|
    .first (.storeBound .hi 1 rfl (by decide)) rfl .refl,
    parted.array, parted.lo, parted.hi, parted.i, ?_, parted.below, parted.notBelow⟩
  show (locals.bounds.set 0 (locals.word .i + 1)).set 1 (locals.word .hi) = _
  have length : (front ++ small ++ [pivot]).length = front.length + small.length + 1 := by
    simp only [List.length_append, List.length_singleton]
  have last : (front.length + small.length + large.length : Nat) =
      ((front.length + small.length + 1 : Nat) : Int) + large.length - 1 := by omega
  rw [parted.bounds, parted.hi, parted.i, ofInt_succ, last, ← length]
  rfl

/-- Sorting the words below the pivot leaves the partition as it is. -/
theorem Parted.sortSmall {sorted : List Int64}
    (parted : Parted front small pivot large back bounds locals) (perm : sorted.Perm small) :
    Parted front sorted pivot large back bounds
      { locals with array := front ++ sorted ++ (pivot :: large ++ back) } := by
  refine ⟨?_, parted.lo, ?_, ?_, parted.bounds, ?_, parted.notBelow⟩
  · simp
  · rw [perm.length_eq]
    exact parted.hi
  · rw [perm.length_eq]
    exact parted.i
  · intro word member
    exact parted.below word (perm.mem_iff.mp member)

end

/-! ### The recursion -/

section
variable {array argument : Nat} {front segment back : List Int64}

/-- The positions are loaded. -/
theorem Called.load
    (called : Called array argument (front ++ segment ++ back) (positions front segment) rest
      start) :
    ∃ locals machine, Runs (sortProgram id depth) start machine ∧
      Setting.At ⟨start, rest, array⟩ argument ownScopes 11 locals machine ∧
      locals.array = front ++ segment ++ back ∧ locals.bounds = positions front segment ∧
      locals.word .lo = Int64.ofInt front.length ∧
      locals.word .hi = Int64.ofInt (front.length + segment.length - 1) := by
  obtain ⟨middle, ran, here⟩ := called.open
  obtain ⟨machine, further, there⟩ := here.run (.first (.loadBound .lo 0 rfl rfl) rfl <|
    .first (.loadBound .hi 1 rfl rfl) rfl .refl) id depth
  exact ⟨_, machine, ran.trans further, there, rfl, rfl, rfl, rfl⟩

/-- A segment of at most one word is left as it is. -/
theorem Called.sortShort
    (called : Called array argument (front ++ segment ++ back) (positions front segment) rest
      start) (fits : (front ++ segment ++ back).length ≤ 2 ^ 32) (short : segment.length ≤ 1) :
    ∃ machine, Runs (sortProgram id depth) start machine ∧
      Finished start rest array (front ++ segment ++ back) machine := by
  obtain ⟨locals, loaded, ran, here, isArray, isBounds, lo, hi⟩ := called.load
  have crossed : locals.word .hi ≤ locals.word .lo := by
    simp only [List.length_append] at fits
    rw [hi, lo, ofInt_le_ofInt (by omega) (by omega) (by omega) (by omega)]
    omega
  obtain ⟨atEnd, jumps, there⟩ := here.step rfl (.jumpIf crossed rfl)
  obtain ⟨machine, further, finished⟩ := there.finish called.size (isBounds ▸ called.argument)
  exact ⟨machine, (ran.tail jumps).trans further, isArray ▸ finished⟩

/-- A longer segment is parted, and an argument for the first call is ready. -/
theorem Called.part {words : List Int64} {pivot : Int64}
    (called : Called array argument (front ++ (words ++ [pivot]) ++ back)
      (positions front (words ++ [pivot])) rest start)
    (fits : (front ++ (words ++ [pivot]) ++ back).length ≤ 2 ^ 32) (long : words ≠ []) :
    ∃ small large locals machine own, Runs (sortProgram id depth) start machine ∧
      Setting.At ⟨start, rest, array⟩ own (argsReg :: ownScopes) 33 locals machine ∧
      start.store.next ≤ own ∧
      Parted front small pivot large back (positions front small) locals ∧
      (small ++ large).Perm words := by
  obtain ⟨locals, loaded, ran, here, isArray, isBounds, lo, hi⟩ := called.load
  have length : (words ++ [pivot]).length = words.length + 1 := List.length_append
  have notEmpty : 0 < words.length := List.length_pos_iff.mpr long
  have last : (front.length : Int) + (words ++ [pivot]).length - 1 =
      (front.length + words.length : Nat) := by omega
  have fitsArray : locals.array.length ≤ 2 ^ 32 := isArray ▸ fits
  have apart : ¬ locals.word .hi ≤ locals.word .lo := by
    simp only [List.length_append] at fits
    rw [hi, lo, last, ofInt_le_ofInt (by omega) (by omega) (by omega) (by omega)]
    omega
  obtain ⟨small, large, parting, walks, parted, perm⟩ :=
    exists_partition isArray fitsArray lo (hi.trans (congrArg Int64.ofInt last))
  obtain ⟨middle, toPart, there⟩ := here.run (.first (.pass apart) rfl walks) id depth
  have isArgument : start.store.get? argument = some (argsVar parting.bounds (some array)) := by
    rw [parted.bounds, isBounds]
    exact called.argument
  obtain ⟨ready, toReady, fresh⟩ := there.openArgument called.size isArgument
  obtain ⟨named, toCall, partedCall⟩ := (parted.withBounds [0, 0]).first
  obtain ⟨machine, further, calling⟩ := fresh.run toCall id depth
  have next := there.next
  exact ⟨small, large, named, machine, middle.store.next,
    ((ran.trans toPart).trans toReady).trans further, calling,
    Nat.le_trans (Nat.le_add_right _ _) next, partedCall, perm⟩

/-- Two sorted sides of a pivot are sorted with the pivot between them. -/
theorem pairwise_sides {small large : List Int64} {pivot : Int64}
    (sortedSmall : small.Pairwise (· ≤ ·)) (sortedLarge : large.Pairwise (· ≤ ·))
    (below : ∀ word ∈ small, word < pivot) (notBelow : ∀ word ∈ large, pivot ≤ word) :
    (small ++ pivot :: large).Pairwise (· ≤ ·) := by
  refine List.pairwise_append.mpr ⟨sortedSmall, List.pairwise_cons.mpr ⟨notBelow, sortedLarge⟩, ?_⟩
  intro left inSmall right inRest
  have atMost : left ≤ pivot := Int64.le_of_lt (below left inSmall)
  rcases List.mem_cons.mp inRest with rfl | inLarge
  · exact atMost
  · exact Int64.le_trans atMost (notBelow right inLarge)

/-- A longer segment is sorted by two calls for shorter ones. -/
theorem Called.sortLong {words : List Int64} {pivot : Int64}
    (called : Called array argument (front ++ (words ++ [pivot]) ++ back)
      (positions front (words ++ [pivot])) rest start)
    (fits : (front ++ (words ++ [pivot]) ++ back).length ≤ 2 ^ 32) (long : words ≠ [])
    (shorter : ∀ part : List Int64, part.length ≤ words.length → Sorts id depth part) :
    (∃ sorted machine, Runs (sortProgram id depth) start machine ∧
      Finished start rest array (front ++ sorted ++ back) machine ∧
      sorted.Perm (words ++ [pivot]) ∧ sorted.Pairwise (· ≤ ·)) ∨
    (depth < rest.length + (words.length + 1) ∧ Overflows (sortProgram id depth) start) := by
  obtain ⟨small, large, locals, first, own, ran, here, new, parted, perm⟩ := called.part fits long
  have notEmpty : 0 < words.length := List.length_pos_iff.mpr long
  have lengths : small.length + large.length = words.length := by
    rw [← List.length_append, perm.length_eq]
  have isArray : locals.array = front ++ small ++ (pivot :: large ++ back) := by
    rw [parted.array]
    simp
  have fitsFirst : locals.array.length ≤ 2 ^ 32 := by
    rw [isArray]
    simp only [List.length_append, List.length_cons, List.length_nil] at fits ⊢
    omega
  rcases here.call rfl (shorter small (by omega)) isArray parted.bounds fitsFirst called.size with
    ⟨sortedSmall, middle, toMiddle, there, permSmall, orderedSmall⟩ | ⟨deep, overflows⟩
  · -- the first call has moved words in front of the pivot only, so the partition still stands
    have partedSmall := parted.sortSmall permSmall
    obtain ⟨behind, walks, partedBehind⟩ := partedSmall.second
    obtain ⟨second, toSecond, hereSecond⟩ := there.run walks id depth
    have isArraySecond : behind.array = front ++ sortedSmall ++ [pivot] ++ large ++ back := by
      rw [partedBehind.array]
      simp
    have fitsSecond : behind.array.length ≤ 2 ^ 32 := by
      have sameLength := permSmall.length_eq
      rw [isArraySecond]
      simp only [List.length_append, List.length_cons, List.length_nil] at fits ⊢
      omega
    have toCall := (ran.trans toMiddle).trans toSecond
    rcases hereSecond.call rfl (shorter large (by omega)) isArraySecond partedBehind.bounds
        fitsSecond called.size with
      ⟨sortedLarge, last, toLast, atLast, permLarge, orderedLarge⟩ | ⟨deep, overflows⟩
    · obtain ⟨machine, toEnd, finished⟩ := atLast.finishCalls called.size new
      refine .inl ⟨sortedSmall ++ pivot :: sortedLarge, machine,
        (toCall.trans toLast).trans toEnd, ?_, ?_, ?_⟩
      · have isWords : front ++ sortedSmall ++ [pivot] ++ sortedLarge ++ back =
            front ++ (sortedSmall ++ pivot :: sortedLarge) ++ back := by simp
        rw [← isWords]
        exact finished
      · refine List.perm_middle.trans (.trans ?_ (List.perm_append_singleton pivot words).symm)
        exact ((permSmall.append permLarge).trans perm).cons pivot
      · exact pairwise_sides orderedSmall orderedLarge partedSmall.below fun word member =>
          parted.notBelow word (permLarge.mem_iff.mp member)
    · refine .inr ⟨?_, overflows.of_runs toCall⟩
      dsimp only at deep
      omega
  · refine .inr ⟨?_, overflows.of_runs ran⟩
    dsimp only at deep
    omega

/-- **A segment is sorted if shorter ones are.** -/
theorem sorts_of_shorter
    (shorter : ∀ part : List Int64, part.length < segment.length → Sorts id depth part) :
    Sorts id depth segment := by
  intro array argument front back rest start called fits
  by_cases short : segment.length ≤ 1
  · obtain ⟨machine, ran, finished⟩ := called.sortShort fits short
    refine .inl ⟨segment, machine, ran, finished, .refl _, ?_⟩
    cases segment with
    | nil => exact .nil
    | cons word others =>
        have none : others.length = 0 := Nat.le_zero.mp (Nat.le_of_succ_le_succ short)
        rw [List.eq_nil_of_length_eq_zero none]
        exact List.pairwise_singleton _ _
  · rcases List.eq_nil_or_concat segment with rfl | ⟨words, pivot, rfl⟩
    · exact absurd (Nat.zero_le 1) short
    · rw [List.concat_eq_append] at called fits shorter short ⊢
      have length : (words ++ [pivot]).length = words.length + 1 := List.length_append
      have long : words ≠ [] := by
        rintro rfl
        exact short (Nat.le_refl 1)
      rcases called.sortLong fits long fun part atMost => shorter part (by omega) with
        sorted | ⟨deep, overflows⟩
      · exact .inl sorted
      · exact .inr ⟨by omega, overflows⟩

end

/-- **Every segment is sorted**, unless that takes too many activations. -/
theorem sorts (id : ModuleId) (depth : Nat) (segment : List Int64) : Sorts id depth segment :=
  sorts_of_shorter fun part _ => sorts id depth part
termination_by segment.length

end

end Samples

end ScopeMachine
