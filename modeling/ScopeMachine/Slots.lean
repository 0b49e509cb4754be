/-! # Tables with stable identities

A `Slots` table hands out a new identity for each value that enters it. An identity is never given
out twice, so it still tells its value apart after the value has left.

* `Slots.insert` adds a value under the identity `Slots.next`;
* `Slots.get?`, `Slots.modify` and `Slots.erase` find, change and remove a value. -/

namespace ScopeMachine

/-- Values by identity; an identity whose value has left holds nothing. -/
structure Slots (α : Type) where
  /-- The values, in the order in which they entered. -/
  cells : Array (Option α)
deriving DecidableEq

namespace Slots

variable {α : Type}

/-- A table without values. -/
def empty : Slots α := ⟨#[]⟩

/-- The identity of the value that enters next. -/
def next (slots : Slots α) : Nat := slots.cells.size

/-- The value with a given identity. -/
def get? (slots : Slots α) (id : Nat) : Option α := slots.cells[id]?.join

/-- Add a value. -/
def insert (slots : Slots α) (value : α) : Slots α := ⟨slots.cells.push (some value)⟩

/-- Change the value with a given identity, if it is there. -/
@[inline] def modify (slots : Slots α) (id : Nat) (change : α → α) : Slots α :=
  ⟨slots.cells.modify id (Option.map change)⟩

/-- Put a value under an identity that has been given out. -/
def put (slots : Slots α) (id : Nat) (value : α) : Slots α :=
  ⟨slots.cells.setIfInBounds id (some value)⟩

/-- Remove the value with a given identity. -/
def erase (slots : Slots α) (id : Nat) : Slots α := ⟨slots.cells.setIfInBounds id none⟩

/-- The values that are there, with their identities. -/
def entries (slots : Slots α) : List (Nat × α) :=
  slots.cells.toList.zipIdx.filterMap fun entry => entry.1.map fun value => (entry.2, value)

/-- The values that are there. -/
def values (slots : Slots α) : List α := slots.cells.toList.filterMap id

/-- Nothing is in a table without values. -/
@[simp] theorem get?_empty (id : Nat) : (empty : Slots α).get? id = none := by
  simp [empty, get?]

/-- A value that entered is found under its identity, and all else as before. -/
theorem get?_insert (slots : Slots α) (value : α) (id : Nat) :
    (slots.insert value).get? id = if id = slots.next then some value else slots.get? id := by
  simp only [get?, insert, next, Array.getElem?_push]
  by_cases same : id = slots.cells.size <;> simp [same]

/-- A changed value is found under its identity, and all else as before. -/
theorem get?_modify (slots : Slots α) (target : Nat) (change : α → α) (id : Nat) :
    (slots.modify target change).get? id =
      if id = target then (slots.get? id).map change else slots.get? id := by
  simp only [get?, modify, Array.getElem?_modify]
  by_cases same : target = id
  · subst same
    cases slots.cells[target]? <;> simp
  · simp [same, Ne.symm same]

/-- A value that is changed twice is changed once. -/
theorem modify_modify (slots : Slots α) (id : Nat) (first second : α → α) :
    (slots.modify id first).modify id second =
      slots.modify id fun value => second (first value) := by
  unfold modify
  congr 1
  apply Array.ext_getElem?
  intro other
  simp only [Array.getElem?_modify]
  by_cases same : id = other <;> simp [same, Function.comp_def]

/-- A removed value is gone, and all else is as before. -/
theorem get?_erase (slots : Slots α) (target id : Nat) :
    (slots.erase target).get? id = if id = target then none else slots.get? id := by
  simp only [get?, erase, Array.getElem?_setIfInBounds]
  by_cases same : target = id
  · subst same
    by_cases inside : target < slots.cells.size <;> simp [inside]
  · simp [same, Ne.symm same]

/-- A value that has been put is found under its identity, and all else as before. -/
theorem get?_put (slots : Slots α) (target : Nat) (value : α) (id : Nat) :
    (slots.put target value).get? id =
      if id = target ∧ target < slots.next then some value else slots.get? id := by
  simp only [get?, put, next, Array.getElem?_setIfInBounds]
  by_cases same : target = id
  · subst same
    by_cases inside : target < slots.cells.size <;> simp [inside]
  · simp [same, Ne.symm same]

/-- Identities that have not been given out hold nothing. -/
theorem get?_eq_none_of_next_le {slots : Slots α} {id : Nat} (unused : slots.next ≤ id) :
    slots.get? id = none := by
  rw [get?, Array.getElem?_eq_none unused]
  rfl

/-- A value that is there has an identity that has been given out. -/
theorem lt_next_of_get? {slots : Slots α} {id : Nat} {value : α}
    (found : slots.get? id = some value) : id < slots.next := by
  apply Nat.lt_of_not_le
  intro unused
  rw [get?_eq_none_of_next_le unused] at found
  cases found

/-- A value that enters takes the next identity. -/
@[simp] theorem next_insert (slots : Slots α) (value : α) :
    (slots.insert value).next = slots.next + 1 := Array.size_push ..

/-- Changing a value gives out no identity. -/
@[simp] theorem next_modify (slots : Slots α) (id : Nat) (change : α → α) :
    (slots.modify id change).next = slots.next := Array.size_modify ..

/-- Removing a value gives no identity back. -/
@[simp] theorem next_erase (slots : Slots α) (id : Nat) : (slots.erase id).next = slots.next :=
  Array.size_setIfInBounds ..

/-- The values that are there are those with an identity. -/
theorem mem_values {slots : Slots α} {value : α} :
    value ∈ slots.values ↔ ∃ id, slots.get? id = some value := by
  simp only [values, get?, List.mem_filterMap, id, exists_eq_right, Array.mem_toList_iff,
    Array.mem_iff_getElem?, Option.join_eq_some_iff]

/-- The values before and after one of them. -/
theorem exists_values_eq {slots : Slots α} {key : Nat} {value : α}
    (found : slots.get? key = some value) :
    ∃ left right, slots.values = left ++ value :: right ∧
      (slots.erase key).values = left ++ right ∧
      ∀ change, (slots.modify key change).values = left ++ change value :: right := by
  obtain ⟨cells⟩ := slots
  have cell : cells.toList[key]? = some (some value) := by
    rw [Array.getElem?_toList]
    exact Option.join_eq_some_iff.mp found
  obtain ⟨inside, isValue⟩ := List.getElem?_eq_some_iff.mp cell
  have split :
      cells.toList = cells.toList.take key ++ some value :: cells.toList.drop (key + 1) := by
    rw [← isValue, ← List.drop_eq_getElem_cons inside, List.take_append_drop]
  refine ⟨(cells.toList.take key).filterMap id, (cells.toList.drop (key + 1)).filterMap id,
    ?_, ?_, ?_⟩
  · unfold values
    rw [congrArg (List.filterMap id) split, List.filterMap_append]
    rfl
  · unfold values erase
    rw [Array.toList_setIfInBounds, List.set_eq_take_append_cons_drop, if_pos inside,
      List.filterMap_append]
    rfl
  · intro change
    unfold values modify
    rw [Array.toList_modify, List.modify_eq_take_cons_drop inside, isValue, List.filterMap_append]
    rfl
section
variable [DecidableEq α] (slots : Slots α) (wanted : α)

/-- How often a value is there after another has entered. -/
theorem count_values_insert (value : α) :
    (slots.insert value).values.count wanted =
      slots.values.count wanted + if value = wanted then 1 else 0 := by
  have values : (slots.insert value).values = slots.values ++ [value] := by
    simp [Slots.values, insert]
  rw [values, List.count_append, List.count_singleton]
  simp

/-- How often a value is there after another has been removed. -/
theorem count_values_erase {slots : Slots α} {key : Nat} {value : α}
    (found : slots.get? key = some value) (wanted : α) :
    (slots.erase key).values.count wanted + (if value = wanted then 1 else 0) =
      slots.values.count wanted := by
  obtain ⟨left, right, values, erased, -⟩ := exists_values_eq found
  rw [values, erased, List.count_append, List.count_append, List.count_cons]
  simp only [beq_iff_eq]
  omega

/-- How often a value is there after another has been changed. -/
theorem count_values_modify {slots : Slots α} {key : Nat} {value : α}
    (found : slots.get? key = some value) (change : α → α) (wanted : α) :
    (slots.modify key change).values.count wanted + (if value = wanted then 1 else 0) =
      slots.values.count wanted + (if change value = wanted then 1 else 0) := by
  obtain ⟨left, right, values, -, modified⟩ := exists_values_eq found
  rw [values, modified, List.count_append, List.count_append, List.count_cons, List.count_cons]
  simp only [beq_iff_eq]
  omega

end

end Slots

end ScopeMachine
