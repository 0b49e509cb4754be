import ScopeMachine.Variable

/-! # Elements of variables

The payload and the slots of a variable are kept back to back, so an element is a row of each. A
variable whose arrays are as long as its shape says stays so, whatever is written into it, and each
slot keeps its place within the element.

* `Variable.Sized` says that the arrays are as long as the shape says;
* `Variable.SlotsHold` says of every reference in a slot what the type of the slot asks for;
* `Variable.SlotsHold.putElement` and `Variable.SlotsHold.putOwnedRef` say what keeps it so. -/

namespace ScopeMachine

/-! ### Rows -/

section
variable {α : Type} {values : Array α} {count width index : Nat}

/-- A row of an array has its width. -/
theorem size_row (sized : values.size = count * width) (inside : index < count) :
    (values.extract (index * width) ((index + 1) * width)).size = width := by
  have within : (index + 1) * width ≤ count * width := Nat.mul_le_mul_right width inside
  have split : (index + 1) * width = index * width + width := Nat.succ_mul index width
  rw [Array.size_extract, sized]
  omega

/-- What is in a row is in the array. -/
theorem getElem?_row {offset : Nat} {value : α}
    (found : (values.extract (index * width) ((index + 1) * width))[offset]? = some value) :
    offset < width ∧ values[index * width + offset]? = some value := by
  have split : (index + 1) * width = index * width + width := Nat.succ_mul index width
  rw [Array.getElem?_extract] at found
  split at found
  · exact ⟨by omega, found⟩
  · cases found

end

/-! ### Shapes -/

/-- Types of the same shape have elements of the same size with the same slots. -/
theorem VarType.sameShape_iff {left right : VarType} :
    left.sameShape right = true ↔ left.elementBytes = right.elementBytes ∧
      left.ownedRefs = right.ownedRefs ∧ left.nativeRefs = right.nativeRefs := by
  simp [VarType.sameShape, and_assoc]

namespace Shape

/-- Shapes are the same for elements of the same size with the same slots. -/
theorem same_iff {left right : Shape} :
    left.same right = true ↔ left.elementBytes = right.elementBytes ∧
      left.ownedRefs = right.ownedRefs ∧ left.nativeRefs = right.nativeRefs := by
  simp [same, and_assoc]

/-- A shape is the same as itself. -/
@[simp] theorem same_self (shape : Shape) : shape.same shape = true := same_iff.mpr ⟨rfl, rfl, rfl⟩

/-- Shapes that are the same as those of types of the same shape are the same. -/
theorem same_of_sameShape {left right : Shape} {first second : VarType}
    (isFirst : left.same first = true) (isSecond : right.same second = true)
    (types : first.sameShape second = true) : left.same right = true := by
  rw [same_iff] at *
  obtain ⟨bytes, owned, natives⟩ := VarType.sameShape_iff.mp types
  exact ⟨isFirst.1.trans ((congrArg UInt32.toUInt64 bytes).trans isSecond.1.symm),
    isFirst.2.1.trans (owned.trans isSecond.2.1.symm),
    isFirst.2.2.trans (natives.trans isSecond.2.2.symm)⟩

end Shape

/-- The size of an element is a word of 64 bits. -/
theorem Layout.elementBytes_lt (layout : Layout) : layout.elementBytes < UInt64.size :=
  layout.shape.elementBytes.toNat_lt

/-! ### Sizes -/

namespace Variable

section
variable {start width size : Nat}

/-- The end of a part is the sum, as far as the sum is a word. -/
theorem partEnd_eq (fits : start + width < UInt64.size) : partEnd start width = start + width :=
  Nat.mod_eq_of_lt fits

/-- **A part that is too wide is noticed**, also where its end is no word: the sum then comes out
below the start. -/
theorem beyond_partEnd_iff (isWidth : width < UInt64.size) (isSize : size < UInt64.size) :
    (partEnd start width < start ∨ size < partEnd start width) ↔ size < start + width := by
  by_cases fits : start + width < UInt64.size
  · rw [partEnd_eq fits]
    omega
  · have isEnd : partEnd start width < UInt64.size := Nat.mod_lt _ (by decide)
    have below : partEnd start width < start := by
      rcases Nat.lt_or_ge start UInt64.size with isStart | large
      · have once : start + width - UInt64.size < UInt64.size := by omega
        rw [partEnd, Nat.mod_eq_sub_mod (Nat.le_of_not_lt fits), Nat.mod_eq_of_lt once]
        omega
      · exact Nat.lt_of_lt_of_le isEnd large
    exact iff_of_true (.inl below) (by omega)

end

/-- The arrays of a variable are as long as its shape says. -/
structure Sized (var : Variable) : Prop where
  /-- The payload. -/
  payload : var.payload.size = var.count * var.layout.elementBytes
  /-- The owned slots. -/
  owned : var.owned.size = var.count * var.layout.ownedWidth
  /-- The native slots. -/
  natives : var.natives.size = var.count * var.layout.nativeWidth

/-- A fresh variable has the size that its shape says. -/
theorem sized_zeroed (layout : Layout) (count : Nat) : (zeroed layout count).Sized :=
  ⟨Array.size_replicate, Array.size_replicate, Array.size_replicate⟩

section
variable {var : Variable}

/-- Writing bytes keeps the size. -/
theorem Sized.writeBytes (sized : var.Sized) (element position : Nat) (bytes : Array UInt8) :
    (var.writeBytes element position bytes).Sized :=
  ⟨(size_overwrite ..).trans sized.payload, sized.owned, sized.natives⟩

/-- Copying bytes keeps the size. -/
theorem Sized.copyPayload (sized : var.Sized) (bytes : Array UInt8) :
    (var.copyPayload bytes).Sized :=
  ⟨(size_overwrite ..).trans sized.payload, sized.owned, sized.natives⟩

/-- Storing a reference keeps the size. -/
theorem Sized.putOwnedRef (sized : var.Sized) (element slot : Nat) (referent : Option VarId) :
    (var.putOwnedRef element slot referent).Sized :=
  ⟨sized.payload, Array.size_setIfInBounds.trans sized.owned, sized.natives⟩

/-- Storing an element keeps the size. -/
theorem Sized.putElement (sized : var.Sized) (index : Nat) (element : Element) :
    (var.putElement index element).Sized :=
  ⟨(size_overwrite ..).trans sized.payload, (size_overwrite ..).trans sized.owned,
    (size_overwrite ..).trans sized.natives⟩

/-- The payload of an element has the width that the layout says. -/
theorem Sized.size_bytes? (sized : var.Sized) {index : Nat} {bytes : Array UInt8}
    (found : var.bytes? index = some bytes) : bytes.size = var.layout.elementBytes := by
  unfold bytes? at found
  split at found
  next inside =>
    cases found
    exact size_row sized.payload inside
  next => cases found

/-- The size of the payload of an element is a word of 64 bits. -/
theorem size_bytes?_lt {index : Nat} {bytes : Array UInt8}
    (found : var.bytes? index = some bytes) : bytes.size < UInt64.size := by
  unfold bytes? at found
  split at found
  · cases found
    refine Nat.lt_of_le_of_lt ?_ var.layout.elementBytes_lt
    rw [Array.size_extract, Nat.succ_mul]
    omega
  · cases found

/-- There is a payload for each element. -/
theorem bytes?_isSome {index : Nat} : (var.bytes? index).isSome = decide (index < var.count) := by
  unfold bytes?
  by_cases inside : index < var.count <;> simp [inside]

/-- An element is there exactly if its index is below the number of elements, and then it is a row
of each array. -/
theorem element?_eq {index : Nat} (inside : index < var.count) :
    var.element? index = some
      { payload := var.payload.extract (index * var.layout.elementBytes)
          ((index + 1) * var.layout.elementBytes)
        owned := var.owned.extract (index * var.layout.ownedWidth)
          ((index + 1) * var.layout.ownedWidth)
        natives := var.natives.extract (index * var.layout.nativeWidth)
          ((index + 1) * var.layout.nativeWidth) } := by
  unfold element? bytes?
  rw [if_pos inside]
  rfl

/-- No element is there beyond their number. -/
theorem element?_eq_none {index : Nat} (outside : var.count ≤ index) :
    var.element? index = none := by
  unfold element? bytes?
  rw [if_neg (by omega)]
  rfl

/-- **Elements of the same shape fit** wherever there is one. -/
theorem Sized.fits_of_same {target : Variable} (sized : var.Sized)
    (same : target.layout.shape.same var.layout.shape = true) {position : Nat} {element : Element}
    (copied : var.element? position = some element) (index : Nat) :
    target.fits index element = decide (index < target.count) := by
  have inside : position < var.count := by
    apply Nat.lt_of_not_le
    intro outside
    rw [element?_eq_none outside] at copied
    cases copied
  obtain ⟨bytes, owned, natives⟩ := Shape.same_iff.mp same
  rw [element?_eq inside] at copied
  cases copied
  unfold fits
  rw [size_row sized.payload inside, size_row sized.owned inside, size_row sized.natives inside]
  simp [Layout.elementBytes, Layout.ownedWidth, Layout.nativeWidth, bytes, owned, natives]

end

/-! ### Slots -/

/-- Every reference in an owned slot has the property that the type of the slot asks for. -/
def SlotsHold (var : Variable) (holds : VarTypeId → VarId → Prop) : Prop :=
  ∀ ⦃index : Nat⦄ ⦃referent : VarId⦄, var.owned[index]? = some (some referent) →
    ∀ vtype, var.layout.shape.ownedRefs[index % var.layout.ownedWidth]? = some vtype →
      holds vtype referent

section
variable {var : Variable} {holds : VarTypeId → VarId → Prop}

/-- A fresh variable refers to nothing. -/
theorem bare_zeroed (layout : Layout) (count : Nat) (referent : VarId) :
    some referent ∉ (zeroed layout count).owned := by
  intro member
  cases Array.eq_of_mem_replicate member

/-- Empty slots hold nothing. -/
theorem slotsHold_zeroed (layout : Layout) (count : Nat) :
    (zeroed layout count).SlotsHold holds := by
  intro index referent found
  exact absurd (Array.mem_of_getElem? found) (bare_zeroed layout count referent)

/-- Slots hold what is weaker. -/
theorem SlotsHold.mono {weaker : VarTypeId → VarId → Prop} (slots : var.SlotsHold holds)
    (weakens : ∀ vtype referent, some referent ∈ var.owned → holds vtype referent →
      weaker vtype referent) : var.SlotsHold weaker := by
  intro index referent found vtype declared
  exact weakens vtype referent (Array.mem_of_getElem? found) (slots found vtype declared)

/-- A slot that holds something has a type. -/
theorem exists_vtype_of_ownedRef? {element slot : Nat} {referent : VarId}
    (found : var.ownedRef? element slot = some referent) :
    ∃ vtype, var.layout.shape.ownedRefs[slot]? = some vtype := by
  unfold Variable.ownedRef? ownedIndex? at found
  split at found
  next inside => exact ⟨_, Array.getElem?_eq_getElem inside.2⟩
  next => cases found

/-- What a slot holds, by element and slot. -/
theorem SlotsHold.ownedRef? (slots : var.SlotsHold holds) {element slot : Nat} {referent : VarId}
    (found : var.ownedRef? element slot = some referent) {vtype : VarTypeId}
    (declared : var.layout.shape.ownedRefs[slot]? = some vtype) : holds vtype referent := by
  unfold Variable.ownedRef? ownedIndex? at found
  split at found
  next inside =>
    rw [Option.bind_some, Option.join_eq_some_iff] at found
    refine slots found vtype ?_
    rw [Nat.mul_add_mod_of_lt inside.2]
    exact declared
  next => cases found

/-- Writing bytes leaves the slots as they are. -/
theorem SlotsHold.writeBytes (slots : var.SlotsHold holds) (element position : Nat)
    (bytes : Array UInt8) : (var.writeBytes element position bytes).SlotsHold holds := by
  intro index referent found
  exact slots found

/-- Copying bytes leaves the slots as they are. -/
theorem SlotsHold.copyPayload (slots : var.SlotsHold holds) (bytes : Array UInt8) :
    (var.copyPayload bytes).SlotsHold holds := by
  intro index referent found
  exact slots found

/-- Storing a reference of the right type. -/
theorem SlotsHold.putOwnedRef (slots : var.SlotsHold holds) {element slot : Nat}
    {referent : Option VarId}
    (right : ∀ id, referent = some id → ∀ vtype, var.layout.shape.ownedRefs[slot]? = some vtype →
      holds vtype id) (inside : slot < var.layout.ownedWidth) :
    (var.putOwnedRef element slot referent).SlotsHold holds := by
  intro index id found vtype declared
  replace found :
      (var.owned.setIfInBounds (element * var.layout.ownedWidth + slot) referent)[index]? =
        some (some id) := found
  rw [Array.getElem?_setIfInBounds] at found
  split at found
  next isIndex =>
    subst isIndex
    have isReferent : referent = some id := by
      split at found
      · exact Option.some.inj found
      · cases found
    refine right id isReferent vtype ?_
    replace declared : var.layout.shape.ownedRefs[(element * var.layout.ownedWidth + slot) %
      var.layout.ownedWidth]? = some vtype := declared
    rwa [Nat.mul_add_mod_of_lt inside] at declared
  next => exact slots found vtype declared

/-- **Storing an element of the same shape.** Each slot of the element keeps its place. -/
theorem SlotsHold.putElement {source : Variable} (slots : var.SlotsHold holds)
    (others : source.SlotsHold holds)
    (same : var.layout.shape.ownedRefs = source.layout.shape.ownedRefs)
    {position : Nat} {element : Element} (copied : source.element? position = some element)
    (index : Nat) : (var.putElement index element).SlotsHold holds := by
  have width : source.layout.ownedWidth = var.layout.ownedWidth := by
    unfold Layout.ownedWidth
    rw [same]
  have row : element.owned = source.owned.extract (position * source.layout.ownedWidth)
      ((position + 1) * source.layout.ownedWidth) := by
    unfold element? at copied
    obtain ⟨payload, -, rfl⟩ := Option.map_eq_some_iff.mp copied
    rfl
  intro place id found vtype declared
  replace found : (overwrite var.owned (index * var.layout.ownedWidth) element.owned)[place]? =
      some (some id) := found
  replace declared :
      var.layout.shape.ownedRefs[place % var.layout.ownedWidth]? = some vtype := declared
  rw [getElem?_overwrite] at found
  split at found
  next within =>
    rw [row] at found
    obtain ⟨offset, isThere⟩ := getElem?_row found
    refine others isThere vtype ?_
    -- the place within the element is the same on both sides
    rw [Nat.mul_add_mod_of_lt offset, ← same]
    have split : place =
        index * var.layout.ownedWidth + (place - index * var.layout.ownedWidth) := by
      omega
    rw [split, Nat.mul_add_mod_of_lt (width ▸ offset)] at declared
    exact declared
  next => exact slots found vtype declared

end

end Variable

end ScopeMachine
