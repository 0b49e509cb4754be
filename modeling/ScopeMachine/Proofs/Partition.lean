import Mathlib.Algebra.Group.Int.Defs
import ScopeMachine.Proofs.Locals

/-! # The partition of quicksort

The partition goes through a segment of the array word by word and keeps the words that are below
the pivot in front of those that are not. What it has not looked at yet, and what lies in front of
the segment and behind it, stays in place.

* `exists_swap` says what the two stores that move a word to the front do to the array;
* `Partway` is the invariant of the loop, `Partway.round` says that a round keeps it, and
  `Partway.loop` carries it to the end of the segment;
* `exists_partition` puts the pivot between the words that are below it and those that are not. -/

namespace ScopeMachine.Samples

/-! ### Positions as words -/

/-- A position is read back from its word. -/
theorem toInt_ofInt {position : Int} (low : -1 ≤ position) (high : position ≤ 2 ^ 32) :
    (Int64.ofInt position).toInt = position :=
  Int64.toInt_ofInt_of_le (by omega) (by omega)

/-- Positions are compared as words. -/
theorem ofInt_le_ofInt {left right : Int} (lowLeft : -1 ≤ left) (highLeft : left ≤ 2 ^ 32)
    (lowRight : -1 ≤ right) (highRight : right ≤ 2 ^ 32) :
    Int64.ofInt left ≤ Int64.ofInt right ↔ left ≤ right := by
  rw [Int64.le_iff_toInt_le, toInt_ofInt lowLeft highLeft, toInt_ofInt lowRight highRight]

/-- The word of the next position. -/
theorem ofInt_succ (position : Nat) :
    Int64.ofInt position + 1 = Int64.ofInt (position + 1 : Nat) := by
  rw [Int.natCast_add, Int64.ofInt_add]
  rfl

/-! ### Moving a word to the front -/

/-- An item goes to the front of a stretch of a list and what was there to its end, where the item
was: the stretch keeps its items, in some order. -/
theorem exists_swap {α : Type} (left middle right : List α) (item : α) :
    ∃ other rotated, (left ++ middle ++ item :: right)[left.length]? = some other ∧
      rotated.Perm middle ∧
      ((left ++ middle ++ item :: right).set left.length item).set
        (left.length + middle.length) other = left ++ item :: rotated ++ right := by
  cases middle with
  | nil =>
      refine ⟨item, [], ?_, .refl _, ?_⟩
      · simp
      · simp
  | cons first middle =>
      refine ⟨first, middle ++ [first], by simp, List.perm_append_singleton first middle, ?_⟩
      have once : (left ++ first :: middle ++ item :: right).set left.length item =
          (left ++ item :: middle) ++ item :: right := by simp
      have place : left.length + (first :: middle).length = (left ++ item :: middle).length := by
        simp
      rw [once, place, List.set_append_right _ _ (Nat.le_refl _), Nat.sub_self]
      simp

/-! ### The loop -/

/-- The loop has put some words of the segment on their sides, `small` and `large`, and not yet
looked at `todo`. -/
structure Partway (front small large todo : List Int64) (pivot : Int64) (back bounds : List Int64)
    (locals : Locals) : Prop where
  /-- The array, from its first word to its last. -/
  array : locals.array = front ++ small ++ large ++ todo ++ pivot :: back
  /-- The segment starts behind `front`. -/
  lo : locals.word .lo = Int64.ofInt front.length
  /-- The segment ends with the pivot. -/
  hi : locals.word .hi =
    Int64.ofInt (front.length + small.length + large.length + todo.length : Nat)
  /-- The next word below the pivot goes behind `small`. -/
  i : locals.word .i = Int64.ofInt (front.length + small.length : Nat)
  /-- The next word to look at is the first of `todo`. -/
  j : locals.word .j = Int64.ofInt (front.length + small.length + large.length : Nat)
  /-- The pivot is kept in a local word. -/
  piv : locals.word .piv = pivot
  /-- The positions in the argument are left alone. -/
  bounds : locals.bounds = bounds
  /-- One side is below the pivot. -/
  below : ∀ word ∈ small, word < pivot
  /-- The other side is not. -/
  notBelow : ∀ word ∈ large, pivot ≤ word
  /-- The positions of the array can be told apart as words. -/
  fits : locals.array.length ≤ 2 ^ 32

section
variable {front small large todo back bounds : List Int64} {pivot word : Int64} {locals : Locals}

/-- The length of the array. -/
theorem Partway.length_array (partway : Partway front small large todo pivot back bounds locals) :
    locals.array.length =
      front.length + small.length + large.length + todo.length + 1 + back.length := by
  rw [partway.array]
  simp only [List.length_append, List.length_cons]
  omega

/-- Where the next word below the pivot goes. -/
theorem Partway.toInt_i (partway : Partway front small large todo pivot back bounds locals) :
    (locals.word .i).toInt = (front ++ small).length := by
  have length := partway.length_array
  have fits := partway.fits
  rw [partway.i, toInt_ofInt (by omega) (by omega), List.length_append]

/-- Where the next word to look at is. -/
theorem Partway.toInt_j (partway : Partway front small large todo pivot back bounds locals) :
    (locals.word .j).toInt = ((front ++ small).length + large.length : Nat) := by
  have length := partway.length_array
  have fits := partway.fits
  rw [partway.j, toInt_ofInt (by omega) (by omega), List.length_append]

/-- The loop ends when all words have been looked at. -/
theorem Partway.hi_le_j (partway : Partway front small large todo pivot back bounds locals) :
    locals.word .hi ≤ locals.word .j ↔ todo = [] := by
  have length := partway.length_array
  have fits := partway.fits
  rw [partway.hi, partway.j, ofInt_le_ofInt (by omega) (by omega) (by omega) (by omega),
    ← List.length_eq_zero_iff]
  omega

/-- **One round of the loop** puts one more word on its side. -/
theorem Partway.round
    (partway : Partway front small large (word :: todo) pivot back bounds locals) :
    ∃ smaller larger after, Walks (15, locals) (15, after) ∧
      Partway front smaller larger todo pivot back bounds after ∧
      (smaller ++ larger).Perm (small ++ large ++ [word]) := by
  have unfinished : ¬ locals.word .hi ≤ locals.word .j := by
    rw [partway.hi_le_j]
    exact List.cons_ne_nil _ _
  -- the array, cut where the partition is
  have array : locals.array =
      (front ++ small) ++ large ++ word :: (todo ++ pivot :: back) := by
    rw [partway.array]
    simp
  have found : locals.array[(front ++ small).length + large.length]? = some word := by
    rw [array, ← List.length_append, List.getElem?_append_right (Nat.le_refl _), Nat.sub_self]
    rfl
  by_cases holds : pivot ≤ word
  · -- the word stays where it is, at the end of its side
    refine ⟨small, large ++ [word], _, .first (.pass unfinished) rfl <|
      .first (.load .x .j partway.toInt_j found) rfl <|
      .first (.jumpIf (partway.piv ▸ holds) rfl) rfl <|
      .first (.inc .j) rfl <| .first (.jump rfl) rfl .refl, ?_, ?_⟩
    · refine ⟨?_, partway.lo, ?_, partway.i, ?_, partway.piv, partway.bounds, partway.below, ?_,
        partway.fits⟩
      · show locals.array = _
        rw [partway.array]
        simp
      · show locals.word .hi = _
        rw [partway.hi]
        simp only [List.length_append, List.length_cons, List.length_nil]
        congr 2
        omega
      · show locals.word .j + 1 = _
        rw [partway.j, ofInt_succ, List.length_append, List.length_singleton, Nat.add_assoc]
      · intro other member
        rcases List.mem_append.mp member with old | new
        · exact partway.notBelow other old
        · rw [List.mem_singleton.mp new]
          exact holds
    · rw [List.append_assoc]
  · -- the word changes places with the first that is not below the pivot
    obtain ⟨other, rotated, foundOther, perm, swapped⟩ :=
      exists_swap (front ++ small) large (todo ++ pivot :: back) word
    rw [← array] at foundOther swapped
    have insideI : (front ++ small).length < locals.array.length :=
      (List.getElem?_eq_some_iff.mp foundOther).1
    have insideJ : (front ++ small).length + large.length < locals.array.length :=
      (List.getElem?_eq_some_iff.mp found).1
    refine ⟨small ++ [word], rotated, _, .first (.pass unfinished) rfl <|
      .first (.load .x .j partway.toInt_j found) rfl <|
      .first (.pass (partway.piv ▸ holds)) rfl <|
      .first (.load .y .i partway.toInt_i foundOther) rfl <|
      .first (.store .i .x partway.toInt_i insideI) rfl <|
      .first (.store .j .y partway.toInt_j (by rw [List.length_set]; exact insideJ)) rfl <|
      .first (.inc .i) rfl <| .first (.inc .j) rfl <| .first (.jump rfl) rfl .refl, ?_, ?_⟩
    · refine ⟨?_, partway.lo, ?_, ?_, ?_, partway.piv, partway.bounds, ?_, ?_, ?_⟩
      · show (locals.array.set _ word).set _ other = _
        rw [swapped]
        simp
      · show locals.word .hi = _
        rw [partway.hi, perm.length_eq]
        simp only [List.length_append, List.length_cons, List.length_nil]
        congr 2
        omega
      · show locals.word .i + 1 = _
        rw [partway.i, ofInt_succ, List.length_append, List.length_singleton, Nat.add_assoc]
      · show locals.word .j + 1 = _
        rw [partway.j, ofInt_succ, perm.length_eq, List.length_append, List.length_singleton]
        congr 2
        omega
      · intro below member
        rcases List.mem_append.mp member with old | new
        · exact partway.below below old
        · rw [List.mem_singleton.mp new]
          exact Int64.not_le.mp holds
      · intro notBelow member
        exact partway.notBelow notBelow (perm.mem_iff.mp member)
      · show ((locals.array.set _ word).set _ other).length ≤ _
        rw [List.length_set, List.length_set]
        exact partway.fits
    · rw [List.append_assoc, List.append_assoc]
      refine List.Perm.append_left small ?_
      exact (perm.cons word).trans (List.perm_append_singleton word large).symm
/-- **The loop comes to its end**, with every word on its side. -/
theorem Partway.loop (partway : Partway front small large todo pivot back bounds locals) :
    ∃ smaller larger after, Walks (15, locals) (15, after) ∧
      Partway front smaller larger [] pivot back bounds after ∧
      (smaller ++ larger).Perm (small ++ large ++ todo) := by
  induction todo generalizing small large locals with
  | nil => exact ⟨small, large, locals, .refl, partway, by rw [List.append_nil]⟩
  | cons word todo ih =>
      obtain ⟨smaller, larger, middle, walks, partwayMiddle, perm⟩ := partway.round
      obtain ⟨smallest, largest, after, further, partwayAfter, permAfter⟩ := ih partwayMiddle
      refine ⟨smallest, largest, after, walks.trans further, partwayAfter, permAfter.trans ?_⟩
      rw [List.append_cons]
      exact perm.append_right todo

/-! ### The whole partition -/

/-- The words of a segment are on their sides, and the pivot is between them. -/
structure Parted (front small : List Int64) (pivot : Int64) (large back bounds : List Int64)
    (locals : Locals) : Prop where
  /-- The array, from its first word to its last. -/
  array : locals.array = front ++ small ++ pivot :: large ++ back
  /-- The segment starts behind `front`. -/
  lo : locals.word .lo = Int64.ofInt front.length
  /-- The segment ends with `large`. -/
  hi : locals.word .hi = Int64.ofInt (front.length + small.length + large.length : Nat)
  /-- The place of the pivot. -/
  i : locals.word .i = Int64.ofInt (front.length + small.length : Nat)
  /-- The positions in the argument are left alone. -/
  bounds : locals.bounds = bounds
  /-- One side is below the pivot. -/
  below : ∀ word ∈ small, word < pivot
  /-- The other side is not. -/
  notBelow : ∀ word ∈ large, pivot ≤ word

/-- After the loop, the pivot changes places with the first word that is not below it. -/
theorem Partway.finish (partway : Partway front small large [] pivot back bounds locals) :
    ∃ larger after, Walks (15, locals) (27, after) ∧
      Parted front small pivot larger back bounds after ∧ larger.Perm large := by
  have finished : locals.word .hi ≤ locals.word .j := partway.hi_le_j.mpr rfl
  have array : locals.array = (front ++ small) ++ large ++ pivot :: back := by
    rw [partway.array, List.append_nil]
  obtain ⟨other, rotated, found, perm, swapped⟩ := exists_swap (front ++ small) large back pivot
  rw [← array] at found swapped
  have inside : (front ++ small).length < locals.array.length :=
    (List.getElem?_eq_some_iff.mp found).1
  have toInt_hi : (locals.word .hi).toInt = ((front ++ small).length + large.length : Nat) := by
    have length := partway.length_array
    have fits := partway.fits
    rw [partway.hi, toInt_ofInt (by omega) (by omega), List.length_append]
    rfl
  refine ⟨rotated, _, .first (.jumpIf finished rfl) rfl <|
    .first (.load .x .i partway.toInt_i found) rfl <|
    .first (.store .i .piv partway.toInt_i inside) rfl <|
    .first (.store .hi .x toInt_hi ?_) rfl .refl, ?_, perm⟩
  · show _ < (locals.array.set _ (locals.word .piv)).length
    rw [List.length_set, array]
    simp only [List.length_append, List.length_cons]
    omega
  · refine ⟨?_, partway.lo, ?_, partway.i, partway.bounds, partway.below, ?_⟩
    · show (locals.array.set _ (locals.word .piv)).set _ other = _
      rw [partway.piv, swapped]
    · show locals.word .hi = _
      rw [partway.hi, perm.length_eq]
      rfl
    · intro word member
      exact partway.notBelow word (perm.mem_iff.mp member)

/-- **The partition** of a segment around its last word keeps the words of the segment, those below
the pivot in front of it and the others behind it. -/
theorem exists_partition {words : List Int64}
    (array : locals.array = front ++ (words ++ [pivot]) ++ back)
    (fits : locals.array.length ≤ 2 ^ 32)
    (lo : locals.word .lo = Int64.ofInt front.length)
    (hi : locals.word .hi = Int64.ofInt (front.length + words.length : Nat)) :
    ∃ small large after, Walks (12, locals) (27, after) ∧
      Parted front small pivot large back locals.bounds after ∧ (small ++ large).Perm words := by
  have length : locals.array.length = front.length + words.length + 1 + back.length := by
    rw [array]
    simp only [List.length_append, List.length_singleton]
    omega
  have toInt_hi : (locals.word .hi).toInt = (front.length + words.length : Nat) := by
    rw [hi, toInt_ofInt (by omega) (by omega)]
  have found : locals.array[front.length + words.length]? = some pivot := by
    rw [array]
    simp
  have start : Partway front [] [] words pivot back locals.bounds
      (((locals.set .piv pivot).set .i (locals.word .lo)).set .j (locals.word .lo)) := by
    refine ⟨?_, lo, hi, lo, lo, rfl, rfl, ?_, ?_, fits⟩
    · show locals.array = _
      rw [array]
      simp
    · intro word member
      cases member
    · intro word member
      cases member
  obtain ⟨small, large, middle, walks, partway, perm⟩ := start.loop
  obtain ⟨larger, after, further, parted, permLarge⟩ := partway.finish
  refine ⟨small, larger, after, .first (.load .piv .hi toInt_hi found) rfl <|
    .first (.copy .i .lo) rfl <| .first (.copy .j .lo) rfl <| walks.trans further, parted, ?_⟩
  exact (permLarge.append_left small).trans perm

end

end ScopeMachine.Samples
