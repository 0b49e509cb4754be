import ScopeMachine.Proofs.Heap

/-! # What reclaiming leaves

Reclaiming works through a list of variables that nothing refers to. Each one that is removed takes
its references along, so that others may come to the list. The counts that tell which are always
those of the store that is left.

* `Store.getElem?_refCounts` says that the counts are right at the start, and `Store.Counted` that
  they stay so;
* `Store.Prunes` says what may be removed: no root, and nothing that is still referred to;
* `Store.reclaim_induction` reduces reclaiming to the removal of one variable;
* `Store.prunes_reclaim` says that reclaiming removes nothing else, and `Store.get?_reclaim` that
  whatever is referred to stays, with what that refers to. -/

namespace ScopeMachine

namespace Store

/-! ### Counts -/

/-- Counting changes no size. -/
@[simp] theorem size_countOne (counts : Array Nat) (id : VarId) :
    (countOne counts id).size = counts.size := Array.size_modify ..

/-- Each identity is counted as often as it occurs. -/
theorem getElem?_foldl_countOne (ids : List VarId) (counts : Array Nat) (id : VarId) :
    (ids.foldl countOne counts)[id]? = counts[id]?.map (· + ids.count id) := by
  induction ids generalizing counts with
  | nil => simp
  | cons head ids ih =>
      rw [List.foldl_cons, ih, countOne, Array.getElem?_modify, List.count_cons]
      by_cases same : head = id
      · subst same
        simp [Option.map_map, Function.comp_def, Nat.add_assoc, Nat.add_comm 1]
      · simp [same]

/-- All references are counted, one after the other. -/
theorem refCounts_eq (store : Store) (roots : List VarId) :
    store.refCounts roots = (store.values.flatMap Variable.referents).foldl countOne
      (roots.foldl countOne (Array.replicate store.next 0)) := by
  rw [List.foldl_flatMap]
  rfl

/-- **The counts of a store are the numbers of references.** -/
theorem getElem?_refCounts (store : Store) (roots : List VarId) {id : VarId}
    (known : id < store.next) :
    (store.refCounts roots)[id]? = some (store.refCount roots id) := by
  rw [refCounts_eq, getElem?_foldl_countOne, getElem?_foldl_countOne, Array.getElem?_replicate,
    if_pos known, Option.map_some, Option.map_some, refCount, Nat.zero_add]

/-- There is a count for each identity. -/
theorem size_refCounts (store : Store) (roots : List VarId) :
    (store.refCounts roots).size = store.next := by
  have fold : ∀ (ids : List VarId) (counts : Array Nat),
      (ids.foldl countOne counts).size = counts.size := by
    intro ids counts
    induction ids generalizing counts with
    | nil => rfl
    | cons head ids ih => rw [List.foldl_cons, ih, size_countOne]
  rw [refCounts_eq, fold, fold, Array.size_replicate]

/-- Losing a reference takes one off its count, and what has none left comes to the list. -/
theorem loseOne_eq {counts after : Array Nat} {unreferenced list : List VarId} {id : VarId}
    (lost : loseOne (counts, unreferenced) id = (after, list)) :
    (∀ other, after[other]? = if other = id then counts[other]?.map (· - 1) else counts[other]?) ∧
      ((∀ other ∈ unreferenced, counts[other]? = some 0) →
        ∀ other ∈ list, after[other]? = some 0) := by
  unfold loseOne at lost
  dsimp only at lost
  split at lost
  next one =>
    cases lost
    have inside : id < counts.size := (Array.getElem?_eq_some_iff.mp one).1
    have each : ∀ other, (counts.setIfInBounds id 0)[other]? =
        if other = id then counts[other]?.map (· - 1) else counts[other]? := by
      intro other
      rw [Array.getElem?_setIfInBounds]
      by_cases same : other = id
      · subst same
        rw [if_pos rfl, if_pos inside, if_pos rfl, one]
        rfl
      · simp [same, Ne.symm same]
    refine ⟨each, ?_⟩
    intro none other member
    rw [each]
    rcases List.mem_cons.mp member with rfl | member
    · simp [one]
    · rw [none other member]
      simp
  next =>
    cases lost
    have each : ∀ other, (counts.modify id (· - 1))[other]? =
        if other = id then counts[other]?.map (· - 1) else counts[other]? := by
      intro other
      rw [Array.getElem?_modify]
      by_cases same : other = id
      · subst same
        simp
      · simp [same, Ne.symm same]
    refine ⟨each, ?_⟩
    intro none other member
    rw [each, none other member]
    simp

/-- Losing references takes them off the counts. -/
theorem foldl_loseOne_eq {released : List VarId} {counts after : Array Nat}
    {unreferenced list : List VarId}
    (lost : released.foldl loseOne (counts, unreferenced) = (after, list)) :
    (∀ id, after[id]? = counts[id]?.map (· - released.count id)) ∧
      ((∀ id ∈ unreferenced, counts[id]? = some 0) → ∀ id ∈ list, after[id]? = some 0) := by
  induction released generalizing counts unreferenced with
  | nil =>
      cases lost
      exact ⟨fun id => by simp, fun none => none⟩
  | cons head released ih =>
      rw [List.foldl_cons] at lost
      cases first : loseOne (counts, unreferenced) head with
      | mk middle others =>
          rw [first] at lost
          obtain ⟨once, comes⟩ := loseOne_eq first
          obtain ⟨rest, comesLater⟩ := ih lost
          refine ⟨?_, fun none => comesLater (comes none)⟩
          intro id
          rw [rest, once, List.count_cons]
          by_cases same : id = head
          · subst same
            simp [Option.map_map, Function.comp_def, Nat.sub_sub, Nat.add_comm]
          · simp [same, Ne.symm same]

/-! ### Removing -/

/-- What is left of a store when variables are removed that nothing needs. -/
structure Prunes (roots : List VarId) (before after : Store) : Prop where
  /-- Identities stay given out. -/
  next : after.next = before.next
  /-- What is left is as it was. -/
  found : ∀ {id : VarId} {var : Variable}, after.get? id = some var → before.get? id = some var
  /-- Roots are left. -/
  kept : ∀ {id : VarId}, id ∈ roots → after.get? id = before.get? id
  /-- References keep leading to variables. -/
  resolves : before.Resolves → after.Resolves

/-- Nothing has been removed. -/
theorem Prunes.refl (roots : List VarId) (store : Store) : Prunes roots store store :=
  ⟨rfl, fun found => found, fun _ => rfl, fun resolves => resolves⟩

/-- Something has been removed, and then something else. -/
theorem Prunes.trans {roots : List VarId} {first second third : Store}
    (left : Prunes roots first second) (right : Prunes roots second third) :
    Prunes roots first third :=
  ⟨right.next.trans left.next, fun found => left.found (right.found found),
    fun member => (right.kept member).trans (left.kept member),
    fun resolves => right.resolves (left.resolves resolves)⟩

/-- What is left of a sound store is sound. -/
theorem Prunes.sound {roots : List VarId} {before after : Store}
    (prunes : Prunes roots before after) (sound : before.Sound) : after.Sound :=
  ⟨fun found => sound.sized (prunes.found found), prunes.resolves sound.resolves⟩

/-- What is left keeps its shape. -/
theorem Prunes.ages {roots : List VarId} {before after : Store}
    (prunes : Prunes roots before after) : before.Ages after :=
  ⟨Nat.le_of_eq prunes.next.symm, fun {_ var} _ found => ⟨var, prunes.found found, rfl, rfl⟩⟩

/-- An identity that holds nothing can be removed without a change. -/
theorem erase_of_get?_eq_none {store : Store} {id : VarId} (gone : store.get? id = none) :
    store.erase id = store := by
  obtain ⟨cells⟩ := store
  unfold Slots.erase
  congr 1
  apply Array.ext_getElem?
  intro other
  rw [Array.getElem?_setIfInBounds]
  split
  next same =>
    subst same
    replace gone : cells[id]?.join = none := gone
    by_cases inside : id < cells.size
    · rw [if_pos inside]
      rw [Array.getElem?_eq_getElem inside] at gone ⊢
      exact congrArg some gone.symm
    · rw [if_neg inside, Array.getElem?_eq_none (Nat.le_of_not_lt inside)]
  next => rfl

section
variable {store : Store} {roots : List VarId} {id : VarId}

/-- A variable that is removed takes its references along. -/
theorem refCount_erase (store : Store) (roots : List VarId) (id other : VarId) :
    store.refCount roots other = refCount (store.erase id) roots other +
      (((store.get? id).map Variable.referents).getD []).count other := by
  cases found : store.get? id with
  | none =>
      rw [erase_of_get?_eq_none found]
      simp
  | some var =>
      obtain ⟨left, right, values, erased, -⟩ := Slots.exists_values_eq found
      unfold refCount
      rw [values, erased]
      simp only [List.flatMap_append, List.flatMap_cons, List.count_append, Option.map_some,
        Option.getD_some]
      omega

/-- Nothing refers to a variable: it is no root, and it is in no slot. -/
theorem refCount_eq_zero : store.refCount roots id = 0 ↔ id ∉ roots ∧
    ∀ owner var, store.get? owner = some var → some id ∉ var.owned := by
  have slots : (∀ var ∈ store.values, id ∉ var.referents) ↔
      ∀ owner var, store.get? owner = some var → some id ∉ var.owned := by
    simp only [Slots.mem_values, Variable.referents, List.mem_filterMap, Array.mem_toList_iff,
      id_eq, exists_eq_right, forall_exists_index]
    exact forall_comm
  rw [← slots]
  unfold refCount
  simp [Nat.add_eq_zero_iff, List.count_eq_zero]

/-- **What nothing refers to can be removed.** -/
theorem prunes_erase (none : store.refCount roots id = 0) :
    Prunes roots store (store.erase id) := by
  obtain ⟨unrooted, unreferred⟩ := refCount_eq_zero.mp none
  have get : ∀ {other var}, Slots.get? (store.erase id) other = some var →
      store.get? other = some var := by
    intro other var found
    rw [Slots.get?_erase] at found
    split at found
    · cases found
    · exact found
  refine ⟨Slots.next_erase store id, get, ?_, ?_⟩
  · intro other member
    have differs : other ≠ id := by
      rintro rfl
      exact unrooted member
    rw [Slots.get?_erase, if_neg differs]
  · intro resolves owner referent var found member
    have differs : referent ≠ id := by
      rintro rfl
      exact unreferred owner var (get found) member
    rw [Slots.get?_erase, if_neg differs]
    exact resolves (get found) member

end

/-! ### The list -/

/-- What is known while variables are removed: the counts are those of the store that is left, and
nothing refers to what is on the list. -/
structure Counted (roots unreferenced : List VarId) (counts : Array Nat) (store : Store) :
    Prop where
  /-- There is a count for each identity. -/
  size : counts.size = store.next
  /-- The counts are right. -/
  right : ∀ {id : VarId}, id < store.next → counts[id]? = some (store.refCount roots id)
  /-- Nothing refers to what is on the list. -/
  list : ∀ id ∈ unreferenced, counts[id]? = some 0

section
variable {roots unreferenced : List VarId} {counts : Array Nat} {store : Store}

/-- Nothing refers to the first on the list. -/
theorem Counted.refCount_head {id : VarId}
    (counted : Counted roots (id :: unreferenced) counts store) :
    store.refCount roots id = 0 := by
  have isZero := counted.list id List.mem_cons_self
  have known : id < store.next := by
    rw [← counted.size]
    exact (Array.getElem?_eq_some_iff.mp isZero).1
  rw [counted.right known] at isZero
  exact Option.some.inj isZero

/-- **The counts stay right** when the first on the list is removed. -/
theorem Counted.erase {id : VarId} (counted : Counted roots (id :: unreferenced) counts store)
    {after : Array Nat} {list : List VarId}
    (lost : (((store.get? id).map Variable.referents).getD []).foldl loseOne
      (counts, unreferenced) = (after, list)) :
    Counted roots list after (store.erase id) := by
  obtain ⟨each, comes⟩ := foldl_loseOne_eq lost
  refine ⟨?_, ?_, comes fun other member => counted.list other (List.mem_cons_of_mem _ member)⟩
  · rw [Slots.next_erase, ← counted.size]
    apply Nat.le_antisymm
    · apply Nat.le_of_not_lt
      intro longer
      have gone := each counts.size
      rw [Array.getElem?_eq_getElem longer, Array.getElem?_eq_none (Nat.le_refl _)] at gone
      cases gone
    · apply Nat.le_of_not_lt
      intro shorter
      have gone := each after.size
      rw [Array.getElem?_eq_getElem shorter, Array.getElem?_eq_none (Nat.le_refl _)] at gone
      cases gone
  · intro other known
    rw [Slots.next_erase] at known
    rw [each, counted.right known, refCount_erase store roots id other, Option.map_some,
      Nat.add_sub_cancel]

/-- What survives each removal survives working through the list. -/
theorem Counted.reclaimFrom {motive : Store → Prop}
    (erase : ∀ {left : Store} {id : VarId}, left.refCount roots id = 0 → motive left →
      motive (left.erase id))
    (counted : Counted roots unreferenced counts store) (start : motive store) (steps : Nat) :
    motive (reclaimFrom steps unreferenced counts store) := by
  induction steps generalizing unreferenced counts store with
  | zero => exact start
  | succ steps ih =>
      cases unreferenced with
      | nil => exact start
      | cons id unreferenced =>
          cases lost : (((store.get? id).map Variable.referents).getD []).foldl loseOne
              (counts, unreferenced) with
          | mk after list =>
              have rest := ih (counted.erase lost) (erase counted.refCount_head start)
              unfold Store.reclaimFrom
              dsimp only
              rw [lost]
              exact rest

end

/-- **What survives each removal of a variable that nothing refers to survives reclaiming.** -/
theorem reclaim_induction {motive : Store → Prop} {store : Store} {roots : List VarId}
    (start : motive store)
    (erase : ∀ {left : Store} {id : VarId}, left.refCount roots id = 0 → motive left →
      motive (left.erase id)) : motive (store.reclaim roots) := by
  refine Counted.reclaimFrom erase
    ⟨size_refCounts store roots, getElem?_refCounts store roots, ?_⟩ start store.next
  intro id member
  exact beq_iff_eq.mp (List.mem_filter.mp member).2

/-- **Reclaiming removes only what nothing needs.** -/
theorem prunes_reclaim (store : Store) (roots : List VarId) :
    Prunes roots store (store.reclaim roots) :=
  reclaim_induction (Prunes.refl roots store) fun none prunes => prunes.trans (prunes_erase none)

/-- **Reclaiming keeps what is referred to**, and what is referred to by that. -/
theorem get?_reclaim {store : Store} {roots : List VarId} (Kept : VarId → Prop)
    (referred : ∀ {id : VarId}, Kept id → id ∈ roots ∨
      ∃ owner var, Kept owner ∧ store.get? owner = some var ∧ some id ∈ var.owned)
    {id : VarId} (kept : Kept id) : Slots.get? (store.reclaim roots) id = store.get? id := by
  have all : ∀ id, Kept id → Slots.get? (store.reclaim roots) id = store.get? id := by
    refine reclaim_induction (motive := fun left => ∀ id, Kept id → left.get? id = store.get? id)
      (fun _ _ => rfl) ?_
    intro left id none same other isKept
    -- what refers to it is still there, so it is not the one that is removed
    have differs : other ≠ id := by
      rintro rfl
      obtain ⟨unrooted, unreferred⟩ := refCount_eq_zero.mp none
      rcases referred isKept with member | ⟨owner, var, isOwner, found, member⟩
      · exact unrooted member
      · exact unreferred owner var ((same owner isOwner).trans found) member
    rw [Slots.get?_erase, if_neg differs]
    exact same other isKept
  exact all id kept

end Store

end ScopeMachine
