import ScopeMachine.Proofs.Sequencing
import ScopeMachine.Proofs.Windows
import ScopeMachine.Proofs.Words

/-! # Elements, one at a time

The rows of all elements lie back to back in three arrays with strides of their own, any of which
can be zero. An element that is stored is found again, all others are as they were, and so is what a
word at the front of an element does not reach. Accesses are written here as they happen, one array
after the other on a variable that stays as it is left, so that a store that is refused could have
changed something; it has not.

* `extract_overwrite`, `extract_overwrite_apart` and `getElem?_row_overwrite` say what is found in
  an array after a part of it has been written over;
* `Variable.ChangedAt` says that one element may have changed and that nothing else has, and
  `Element.AlikeBehindWord` that of an element only the word at its front has;
* `InPlace` are the accesses that write as they go, and `InPlace.storeElement_eq` and
  `InPlace.setWord_eq` say what they come to;
* `elements_exact_and_local` puts this together. -/

namespace ScopeMachine

/-! ### Rows that are written over -/

section
variable {α : Type} {cells values : Array α} {start count width index other : Nat}

/-- What has been written over a part is found there. -/
theorem extract_overwrite (inside : start + values.size ≤ cells.size) :
    (overwrite cells start values).extract start (start + values.size) = values := by
  apply Array.ext_getElem?
  intro position
  rw [Array.getElem?_extract, size_overwrite]
  by_cases within : position < values.size
  · rw [if_pos (by omega), getElem?_overwrite, if_pos (by omega), Nat.add_sub_cancel_left]
  · rw [if_neg (by omega), Array.getElem?_eq_none (by omega)]

/-- What lies apart from the part that is written over is as before. -/
theorem extract_overwrite_apart {first last : Nat}
    (apart : last ≤ start ∨ start + values.size ≤ first) :
    (overwrite cells start values).extract first last = cells.extract first last := by
  apply Array.ext_getElem?
  intro position
  rw [Array.getElem?_extract, Array.getElem?_extract, size_overwrite]
  split
  · rw [getElem?_overwrite, if_neg (by omega)]
  · rfl

/-- The rows of different elements lie apart, whatever their width. -/
theorem rows_apart (differ : other ≠ index) (width : Nat) :
    (other + 1) * width ≤ index * width ∨ (index + 1) * width ≤ other * width := by
  rcases Nat.lt_or_gt_of_ne differ with before | behind
  · exact .inl (Nat.mul_le_mul_right width before)
  · exact .inr (Nat.mul_le_mul_right width behind)

/-- A row that has been written is found in its place. -/
theorem row_overwrite (sized : cells.size = count * width) (inside : index < count)
    (full : values.size = width) :
    (overwrite cells (index * width) values).extract (index * width) ((index + 1) * width) =
      values := by
  have within : (index + 1) * width ≤ cells.size := sized ▸ Nat.mul_le_mul_right width inside
  rw [Nat.succ_mul] at within ⊢
  subst full
  exact extract_overwrite within

/-- Writing at the front of a row leaves all other rows as they are. -/
theorem row_overwrite_other (differ : other ≠ index) (narrow : values.size ≤ width) :
    (overwrite cells (index * width) values).extract (other * width) ((other + 1) * width) =
      cells.extract (other * width) ((other + 1) * width) := by
  apply extract_overwrite_apart
  -- what is written ends where its row does, or before
  have stop : (index + 1) * width = index * width + width := Nat.succ_mul index width
  have apart := rows_apart differ width
  omega

/-- Writing at the front of a row leaves what is behind it in the row as it is. -/
theorem getElem?_row_overwrite {offset : Nat} (behind : values.size ≤ offset) :
    ((overwrite cells (index * width) values).extract (index * width)
      ((index + 1) * width))[offset]? =
      (cells.extract (index * width) ((index + 1) * width))[offset]? := by
  rw [Array.getElem?_extract, Array.getElem?_extract, size_overwrite]
  split
  · rw [getElem?_overwrite, if_neg (by omega)]
  · rfl

end

/-- A word is found where it has been written. -/
theorem wordAt_overwrite {bytes : Array UInt8} {start : Nat} (inside : start + 8 ≤ bytes.size)
    (word : Int64) : wordAt (overwrite bytes start (wordToBytes word)) start = word := by
  apply wordAt_eq
  intro offset within
  rw [getElem?_overwrite, size_wordToBytes, if_pos (by omega), Nat.add_sub_cancel_left]

/-! ### Changes to one element -/

/-- Of an element, nothing but the word at its front has changed. -/
structure Element.AlikeBehindWord (before after : Element) : Prop where
  /-- The bytes behind the word. -/
  payload : ∀ offset, wordBytes ≤ offset → after.payload[offset]? = before.payload[offset]?
  /-- The owned slots. -/
  owned : after.owned = before.owned
  /-- The native slots. -/
  natives : after.natives = before.natives

namespace Variable

/-- There is no place for a copied element: no such position, or a row that is not as wide as the
layout says. -/
def Misfits (var : Variable) (index : Nat) (value : Element) : Prop :=
  var.count ≤ index ∨ value.payload.size ≠ var.layout.elementBytes ∨
    value.owned.size ≠ var.layout.ownedWidth ∨ value.natives.size ≠ var.layout.nativeWidth

instance (var : Variable) (index : Nat) (value : Element) : Decidable (var.Misfits index value) :=
  inferInstanceAs (Decidable (_ ∨ _))

/-- At most one element has changed: no array has become longer or shorter, and the elements at all
other positions are as before. -/
structure ChangedAt (before : Variable) (index : Nat) (after : Variable) : Prop where
  /-- The shape of the elements. -/
  layout : after.layout = before.layout
  /-- The number of elements. -/
  count : after.count = before.count
  /-- The number of bytes. -/
  payload : after.payload.size = before.payload.size
  /-- The number of owned slots. -/
  owned : after.owned.size = before.owned.size
  /-- The number of native slots. -/
  natives : after.natives.size = before.natives.size
  /-- The elements at other positions. -/
  others : ∀ other, other ≠ index → after.element? other = before.element? other

/-- The row of owned slots of an element. -/
def ownedRow (var : Variable) (index : Nat) : Array (Option VarId) :=
  var.owned.extract (index * var.layout.ownedWidth) ((index + 1) * var.layout.ownedWidth)

section
variable {var before after : Variable} {index other : Nat} {value : Element}

/-- What has changed in one element has the size that its shape says, if it had it before. -/
theorem ChangedAt.sized (changed : before.ChangedAt index after) (sized : before.Sized) :
    after.Sized := by
  constructor
  · rw [changed.payload, changed.count, changed.layout, sized.payload]
  · rw [changed.owned, changed.count, changed.layout, sized.owned]
  · rw [changed.natives, changed.count, changed.layout, sized.natives]

/-- An element fits unless there is no place for it. -/
theorem fits_iff : var.fits index value = true ↔ ¬ var.Misfits index value := by
  simp [fits, Misfits, and_assoc]

/-- What is known of an element that fits. -/
theorem widths_of_fits (fits : var.fits index value = true) :
    index < var.count ∧ value.payload.size = var.layout.elementBytes ∧
      value.owned.size = var.layout.ownedWidth ∧ value.natives.size = var.layout.nativeWidth := by
  simpa [Variable.fits, and_assoc] using fits

/-- The row of owned slots is the one that a copy of the element has. -/
theorem owned_element? (inside : index < var.count) :
    (var.element? index).map Element.owned = some (var.ownedRow index) := by
  rw [element?_eq inside]
  rfl

/-- Elements with the same rows are the same. -/
theorem element?_congr (layout : after.layout = before.layout) (count : after.count = before.count)
    (payload : after.payload.extract (other * before.layout.elementBytes)
        ((other + 1) * before.layout.elementBytes) =
      before.payload.extract (other * before.layout.elementBytes)
        ((other + 1) * before.layout.elementBytes))
    (owned : after.owned.extract (other * before.layout.ownedWidth)
        ((other + 1) * before.layout.ownedWidth) =
      before.owned.extract (other * before.layout.ownedWidth)
        ((other + 1) * before.layout.ownedWidth))
    (natives : after.natives.extract (other * before.layout.nativeWidth)
        ((other + 1) * before.layout.nativeWidth) =
      before.natives.extract (other * before.layout.nativeWidth)
        ((other + 1) * before.layout.nativeWidth)) :
    after.element? other = before.element? other := by
  unfold element? bytes?
  rw [layout, count, payload, owned, natives]

/-- **A stored element is found again**, payload and slots alike. -/
theorem Sized.element?_putElement (sized : var.Sized) (fits : var.fits index value = true) :
    (var.putElement index value).element? index = some value := by
  obtain ⟨inside, payload, owned, natives⟩ := widths_of_fits fits
  have present : index < (var.putElement index value).count := inside
  rw [element?_eq present]
  dsimp only [Variable.putElement]
  rw [row_overwrite sized.payload inside payload, row_overwrite sized.owned inside owned,
    row_overwrite sized.natives inside natives]

/-- **A stored element leaves all others as they are**, since each of its rows takes the place of a
row of the same width. -/
theorem changedAt_putElement (fits : var.fits index value = true) :
    var.ChangedAt index (var.putElement index value) := by
  obtain ⟨-, payload, owned, natives⟩ := widths_of_fits fits
  refine ⟨rfl, rfl, size_overwrite .., size_overwrite .., size_overwrite .., ?_⟩
  intro other differ
  apply element?_congr
  · rfl
  · rfl
  -- one row in each array, each with the stride of that array
  · exact row_overwrite_other differ (Nat.le_of_eq payload)
  · exact row_overwrite_other differ (Nat.le_of_eq owned)
  · exact row_overwrite_other differ (Nat.le_of_eq natives)

/-- **Bytes at the front of an element leave all others as they are.** -/
theorem changedAt_writeBytes {bytes : Array UInt8} (narrow : bytes.size ≤ var.layout.elementBytes) :
    var.ChangedAt index (var.writeBytes index 0 bytes) := by
  refine ⟨rfl, rfl, size_overwrite .., rfl, rfl, ?_⟩
  intro other differ
  apply element?_congr
  · rfl
  · rfl
  · exact row_overwrite_other differ narrow
  -- the slots have not been written at all
  · rfl
  · rfl

/-- **Bytes at the front of an element leave the rest of it as it is.** -/
theorem alikeBehindWord_writeBytes {bytes : Array UInt8} (inside : index < var.count)
    (short : bytes.size ≤ wordBytes) :
    ∃ old new, var.element? index = some old ∧
      (var.writeBytes index 0 bytes).element? index = some new ∧ old.AlikeBehindWord new := by
  have present : index < (var.writeBytes index 0 bytes).count := inside
  refine ⟨_, _, element?_eq inside, element?_eq present, ?_, rfl, rfl⟩
  intro offset behind
  exact getElem?_row_overwrite (Nat.le_trans short behind)

/-- An element holds a word if it is there and is wide enough. -/
theorem hasWord_iff :
    var.hasWord index = true ↔ index < var.count ∧ wordBytes ≤ var.layout.elementBytes := by
  simp [hasWord]

/-- Writing bytes does not change whether there is a word. -/
theorem hasWord_writeBytes (element position : Nat) (bytes : Array UInt8) :
    (var.writeBytes element position bytes).hasWord index = var.hasWord index := rfl

/-- **A stored word is found again.** -/
theorem Sized.word?_putWord (sized : var.Sized) (holds : var.hasWord index = true) (word : Int64) :
    (var.putWord index word).word? index = some word := by
  obtain ⟨inside, wide⟩ := hasWord_iff.mp holds
  -- the eight bytes of the word are within the row, and the row is within the payload
  have row : (index + 1) * var.layout.elementBytes ≤ var.payload.size :=
    sized.payload ▸ Nat.mul_le_mul_right _ inside
  rw [Nat.succ_mul] at row
  rw [putWord, word?, hasWord_writeBytes, if_pos holds]
  dsimp only [Variable.writeBytes]
  rw [Nat.add_zero, wordAt_overwrite (Nat.le_trans (Nat.add_le_add_left wide _) row)]

end

end Variable

/-! ### Accesses in place -/

/-- Accesses to a variable that write as they go. The variable stays as it has been left, also where
there is no result. -/
abbrev InPlace := EStateM Slip Variable

namespace InPlace

/-- What comes of direct access. -/
def risk {α : Type} : Except Slip α → InPlace α
  | .ok value => pure value
  | .error slip => throw slip

/-- Store a copied element and give the owned slots that it takes the place of. Bytes and natives
are copied over those that were there, and references are put in the place of those that were. -/
def storeElement (index : Nat) (value : Element) : InPlace (Option (Array (Option VarId))) := do
  let var ← get
  if value.owned.size ≠ var.layout.ownedWidth ∨ value.natives.size ≠ var.layout.nativeWidth then
    return none
  match Abrupt.window? var index with
  | none => return none
  | some bytes =>
      if bytes.width ≠ value.payload.size then return none
      let payload ← risk (Window.copy var.payload bytes value.payload)
      modify fun var => { var with payload }
      let replaced ← risk (Window.within (index * var.layout.ownedWidth)
        ((index + 1) * var.layout.ownedWidth) var.owned.size)
      let row := Window.read var.owned replaced
      let owned := Window.splice var.owned replaced value.owned
      modify fun var => { var with owned }
      let covered ← risk (Window.within (index * var.layout.nativeWidth)
        ((index + 1) * var.layout.nativeWidth) var.natives.size)
      let natives ← risk (Window.copy var.natives covered value.natives)
      modify fun var => { var with natives }
      return some row

/-- Store a word at the front of an element. -/
def setWord (index : Nat) (word : Int64) : InPlace (Except Error Unit) := do
  let var ← get
  match Abrupt.front? var index with
  | none => return .error (.range (.noWord index var.count))
  | some front =>
      let payload ← risk (Window.copy var.payload front (wordToBytes word))
      modify fun var => { var with payload }
      return .ok ()

section
variable {var : Variable} {index : Nat} {value : Element}

/-- Where storing an element all at once does not slip, storing it in place comes to the same, and
gives the row that was there. -/
theorem storeElement_of_ok {result : Option Variable}
    (done : Abrupt.storeElement var index value = .ok result) :
    storeElement index value var =
      .ok (result.map fun _ => var.ownedRow index) (result.getD var) := by
  unfold Abrupt.storeElement at done
  unfold storeElement
  rw [get_bind_apply]
  -- the checks are the same, and nothing is written before the last of them
  split at done
  next other =>
    cases done
    rw [if_pos other]
    rfl
  next same =>
    rw [if_neg same]
    split at done
    next isBytes =>
      cases done
      rw [isBytes]
      rfl
    next bytes isBytes =>
      rw [isBytes]
      dsimp only
      split at done
      next other =>
        cases done
        rw [if_pos other]
        rfl
      next samePayload =>
        rw [if_neg samePayload]
        -- all parts are there, so each write follows the one before
        obtain ⟨payload, isPayload, done⟩ := bind_eq_ok.mp done
        obtain ⟨replaced, isReplaced, done⟩ := bind_eq_ok.mp done
        obtain ⟨covered, isCovered, done⟩ := bind_eq_ok.mp done
        obtain ⟨natives, isNatives, done⟩ := bind_eq_ok.mp done
        cases done
        obtain ⟨start, stop⟩ := Window.of_within isReplaced
        have row : Window.read var.owned replaced = var.ownedRow index := by
          rw [Window.read, start, stop]
          rfl
        rw [isPayload, isReplaced, isCovered]
        show (risk (Window.copy var.natives covered value.natives) >>= _) _ = _
        rw [isNatives, row]
        rfl

/-- **Storing an element in place** comes with no slip, writes an element that fits, and leaves the
variable alone otherwise. -/
theorem storeElement_eq (sized : var.Sized) (index : Nat) (value : Element) :
    storeElement index value var =
      .ok ((var.storeElement index value).map fun _ => var.ownedRow index)
        ((var.storeElement index value).getD var) :=
  storeElement_of_ok (Abrupt.storeElement_eq sized index value)

/-- Without the row of natives that the layout says there is a slip, and the bytes have been written
by then. -/
example : storeElement 0 ⟨#[7], #[], #[none]⟩ ⟨⟨⟨1⟩, ⟨some 1, 1, #[], #[⟨0⟩]⟩⟩, 1, #[0], #[], #[]⟩ =
    .error (.outside 0 1 0) ⟨⟨⟨1⟩, ⟨some 1, 1, #[], #[⟨0⟩]⟩⟩, 1, #[7], #[], #[]⟩ := rfl

/-- Where storing a word all at once does not slip, storing it in place comes to the same. -/
theorem setWord_of_ok {word : Int64} {result : Option Variable}
    (done : Abrupt.setWord var index word = .ok result) :
    setWord index word var =
      .ok (orError (.range (.noWord index var.count)) (result.map fun _ => ()))
        (result.getD var) := by
  unfold Abrupt.setWord at done
  unfold setWord
  rw [get_bind_apply]
  split at done
  next isFront =>
    cases done
    rw [isFront]
    rfl
  next front isFront =>
    obtain ⟨payload, isPayload, done⟩ := bind_eq_ok.mp done
    cases done
    rw [isFront]
    dsimp only
    rw [isPayload]
    rfl

/-- **Storing a word in place** comes with no slip and to what storing it comes to. -/
theorem setWord_eq (sized : var.Sized) (index : Nat) (word : Int64) :
    setWord index word var =
      match var.setWord index word with
      | .ok after => .ok (.ok ()) after
      | .error error => .ok (.error error) var := by
  rw [setWord_of_ok (Abrupt.setWord_eq sized index word), Variable.setWord]
  by_cases holds : var.hasWord index = true
  · rw [if_pos holds, if_pos holds]
    rfl
  · rw [if_neg holds, if_neg holds]
    rfl

end

end InPlace

/-- **Access to elements is exact and local.** In a variable that is as large as its layout says,
with rows of whatever widths:

* direct access gives the copies and the words that are there;
* an element is not stored exactly if it is beyond the last one or a row is not as wide as the
  layout says, and then nothing has changed. Otherwise it is found again, all other elements are as
  before, no array has become longer or shorter, and what comes back is the row of owned slots that
  it has taken the place of;
* a word is not stored exactly if there is no such element or elements are shorter than a word, and
  then nothing has changed. Otherwise it is found again, all other elements are as before, and of
  its own element so are the bytes behind the word and the slots. -/
theorem elements_exact_and_local {var : Variable} (sized : var.Sized) (index : Nat) :
    (Abrupt.element var index = .ok (var.element? index) ∧
      Abrupt.word var index = .ok (var.word? index)) ∧
    (∀ value : Element,
      (InPlace.storeElement index value var = .ok none var ↔ var.Misfits index value) ∧
      (var.storeElement index value = none ↔ var.Misfits index value) ∧
      (¬ var.Misfits index value → ∃ row after,
        InPlace.storeElement index value var = .ok (some row) after ∧
        var.storeElement index value = some after ∧
        (var.element? index).map Element.owned = some row ∧
        after.element? index = some value ∧ var.ChangedAt index after ∧ after.Sized)) ∧
    (∀ word : Int64,
      (InPlace.setWord index word var = .ok (.error (.range (.noWord index var.count))) var ↔
        var.count ≤ index ∨ var.layout.elementBytes < wordBytes) ∧
      (var.setWord index word = .error (.range (.noWord index var.count)) ↔
        var.count ≤ index ∨ var.layout.elementBytes < wordBytes) ∧
      (index < var.count ∧ wordBytes ≤ var.layout.elementBytes → ∃ after,
        InPlace.setWord index word var = .ok (.ok ()) after ∧
        var.setWord index word = .ok after ∧
        after.word? index = some word ∧ var.ChangedAt index after ∧ after.Sized ∧
        ∃ old new, var.element? index = some old ∧ after.element? index = some new ∧
          old.AlikeBehindWord new)) := by
  refine ⟨⟨Abrupt.element_eq sized index, Abrupt.word_eq sized index⟩, ?_, ?_⟩
  · intro value
    rw [InPlace.storeElement_eq sized, Variable.storeElement]
    by_cases misfits : var.Misfits index value
    · have refused : var.fits index value ≠ true := fun fits => Variable.fits_iff.mp fits misfits
      rw [if_neg refused]
      exact ⟨iff_of_true rfl misfits, iff_of_true rfl misfits, fun suits => absurd misfits suits⟩
    · have fits : var.fits index value = true := Variable.fits_iff.mpr misfits
      have changed := Variable.changedAt_putElement fits
      rw [if_pos fits]
      -- a store that comes back with a row has not been refused
      refine ⟨iff_of_false nofun misfits, iff_of_false nofun misfits, fun _ => ?_⟩
      exact ⟨_, _, rfl, rfl, Variable.owned_element? (Variable.widths_of_fits fits).1,
        sized.element?_putElement fits, changed, changed.sized sized⟩
  · intro word
    rw [InPlace.setWord_eq sized, Variable.setWord]
    by_cases holds : var.hasWord index = true
    · obtain ⟨inside, wide⟩ := Variable.hasWord_iff.mp holds
      have present : ¬ (var.count ≤ index ∨ var.layout.elementBytes < wordBytes) := by omega
      have short : (wordToBytes word).size ≤ wordBytes := Nat.le_refl 8
      have changed : var.ChangedAt index (var.putWord index word) :=
        Variable.changedAt_writeBytes (Nat.le_trans short wide)
      rw [if_pos holds]
      refine ⟨iff_of_false nofun present, iff_of_false nofun present, fun _ => ?_⟩
      exact ⟨_, rfl, rfl, sized.word?_putWord holds word, changed, changed.sized sized,
        Variable.alikeBehindWord_writeBytes inside short⟩
    · have lacks : ¬ (index < var.count ∧ wordBytes ≤ var.layout.elementBytes) :=
        fun both => holds (Variable.hasWord_iff.mpr both)
      have missing : var.count ≤ index ∨ var.layout.elementBytes < wordBytes := by omega
      rw [if_neg holds]
      exact ⟨iff_of_true rfl missing, iff_of_true rfl missing, fun both => absurd both lacks⟩

namespace Samples

/-- Three elements of ten bytes, two owned slots and one native slot. -/
def shelf : Variable where
  layout := ⟨⟨1⟩, ⟨some 3, 10, #[⟨1⟩, ⟨1⟩], #[⟨0⟩]⟩⟩
  count := 3
  payload := #[0, 1, 2, 3, 4, 5, 6, 7, 8, 9, 10, 11, 12, 13, 14, 15, 16, 17, 18, 19, 20, 21, 22, 23,
    24, 25, 26, 27, 28, 29]
  owned := #[some 0, none, some 1, some 2, none, some 3]
  natives := #[none, some .bump, none]

/-- An element to be put on the shelf. -/
def parcel : Element := ⟨Array.replicate 10 255, #[none, some 7], #[some .zero]⟩

end Samples

/-- The element in the middle is replaced and gives back its own row; there is no fourth element to
be replaced; and a word leaves the two bytes behind it. -/
theorem shelf_exact :
    Samples.shelf.Sized ∧
    (∃ after, InPlace.storeElement 1 Samples.parcel Samples.shelf =
        .ok (some #[some 1, some 2]) after ∧
      after.element? 1 = some Samples.parcel ∧
      after.element? 2 =
        some ⟨#[20, 21, 22, 23, 24, 25, 26, 27, 28, 29], #[none, some 3], #[none]⟩) ∧
    InPlace.storeElement 3 Samples.parcel Samples.shelf = .ok none Samples.shelf ∧
    (∃ after new, InPlace.setWord 1 (-2) Samples.shelf = .ok (.ok ()) after ∧
      after.word? 1 = some (-2) ∧ after.element? 1 = some new ∧ new.payload[8]? = some 18 ∧
      new.owned = #[some 1, some 2]) := by
  have sized : Samples.shelf.Sized := ⟨rfl, rfl, rfl⟩
  have middle := elements_exact_and_local sized 1
  refine ⟨sized, ?_, ?_, ?_⟩
  · obtain ⟨row, after, stored, -, isRow, here, changed, -⟩ :=
      (middle.2.1 Samples.parcel).2.2 (by decide)
    have isMiddle : (Samples.shelf.element? 1).map Element.owned = some #[some 1, some 2] := by
      decide
    cases isMiddle.symm.trans isRow
    refine ⟨after, stored, here, (changed.others 2 (by decide)).trans ?_⟩
    decide
  · exact ((elements_exact_and_local sized 3).2.1 Samples.parcel).1.mpr (by decide)
  · obtain ⟨after, stored, -, here, -, -, old, new, isOld, isNew, alike⟩ :=
      (middle.2.2 (-2)).2.2 (by decide)
    have before : Samples.shelf.element? 1 =
        some ⟨#[10, 11, 12, 13, 14, 15, 16, 17, 18, 19], #[some 1, some 2], #[some .bump]⟩ := by
      decide
    cases before.symm.trans isOld
    exact ⟨after, new, stored, here, isNew, alike.payload 8 (by decide), alike.owned⟩

end ScopeMachine
