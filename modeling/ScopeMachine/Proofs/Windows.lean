import ScopeMachine.Proofs.Elements

/-! # Parts of arrays, accessed directly

The payload and the slots of a variable are reached through parts of arrays, at positions that come
from its layout. Here this is written with direct access: a part that is not inside its array, a
copy between parts of different sizes and a sum that is no word are slips, which come with no
result. A variable that is as large as its layout says has no slips, and gives what it gives without
direct access.

* `Window` is a part of an array, and `Slip` says what goes wrong without one;
* `Abrupt.sum` is the sum of an offset and a width, which has to be a word;
* `Window.copy` and `Window.splice` put values in the place of a part, and `Window.copy_eq` and
  `Window.splice_eq` say that as many values are written over it;
* `Abrupt.word_eq`, `Abrupt.setWord_eq`, `Abrupt.copyPayload_eq`, `Abrupt.ownedRef_eq`,
  `Abrupt.replaceOwnedRef_eq`, `Abrupt.element_eq` and `Abrupt.storeElement_eq` say that variables
  are accessed without slips. -/

namespace ScopeMachine

/-! ### Parts of arrays -/

/-- What goes wrong where an array is accessed directly. -/
inductive Slip where
  /-- A range is not inside its array. -/
  | outside (start stop size : Nat)
  /-- What is copied is not as large as what it is copied over. -/
  | unequal (target source : Nat)
  /-- A sum is no word of 64 bits. -/
  | overflow (left right : Nat)
deriving DecidableEq

/-- A part of an array of a given size. -/
structure Window (size : Nat) where
  /-- The first position. -/
  start : Nat
  /-- The position behind the last one. -/
  stop : Nat
  /-- The part does not end before it starts. -/
  ordered : start ≤ stop
  /-- The part is inside the array. -/
  inside : stop ≤ size

namespace Window

variable {α : Type} {size start stop : Nat}

/-- The part of an array with a given range, if the range is inside. -/
def within? (start stop size : Nat) : Option (Window size) :=
  if range : start ≤ stop ∧ stop ≤ size then some ⟨start, stop, range.1, range.2⟩ else none

/-- The part of an array with a given range, which has to be inside. -/
def within (start stop size : Nat) : Except Slip (Window size) :=
  match within? start stop size with
  | some window => .ok window
  | none => .error (.outside start stop size)

/-- All of an array. -/
def all (size : Nat) : Window size := ⟨0, size, Nat.zero_le size, Nat.le_refl size⟩

/-- The number of cells of a part. -/
def width (window : Window size) : Nat := window.stop - window.start

/-- A part of a part, if its range is inside. -/
def part? (window : Window size) (start stop : Nat) : Option (Window size) :=
  if range : start ≤ stop ∧ stop ≤ window.width then
    some ⟨window.start + start, window.start + stop, Nat.add_le_add_left range.1 _, by
      have within := window.inside
      have ordered := window.ordered
      unfold width at range
      omega⟩
  else none

/-- The values of a part. -/
def read (cells : Array α) (window : Window cells.size) : Array α :=
  cells.extract window.start window.stop

/-- Put values in the place of a part, however many there are. -/
def splice (cells : Array α) (window : Window cells.size) (values : Array α) : Array α :=
  cells.extract 0 window.start ++ values ++ cells.extract window.stop cells.size

/-- Copy values over a part, which has to be as large. -/
def copy (cells : Array α) (window : Window cells.size) (values : Array α) :
    Except Slip (Array α) :=
  if values.size = window.width then .ok (splice cells window values)
  else .error (.unequal window.width values.size)

/-- A range that is inside is a part. -/
theorem within?_eq (ordered : start ≤ stop) (inside : stop ≤ size) :
    within? start stop size = some ⟨start, stop, ordered, inside⟩ := dif_pos ⟨ordered, inside⟩

/-- A range that is inside can be had. -/
theorem within_eq (ordered : start ≤ stop) (inside : stop ≤ size) :
    within start stop size = .ok ⟨start, stop, ordered, inside⟩ := by
  rw [within, within?_eq ordered inside]

/-- A range that can be had is a part with its ends. -/
theorem of_within {window : Window size} (had : within start stop size = .ok window) :
    window.start = start ∧ window.stop = stop := by
  unfold within within? at had
  by_cases range : start ≤ stop ∧ stop ≤ size
  · rw [dif_pos range] at had
    cases had
    exact ⟨rfl, rfl⟩
  · rw [dif_neg range] at had
    cases had

/-- A part of a part that is wide enough. -/
theorem exists_part (window : Window size) (ordered : start ≤ stop)
    (inside : stop ≤ window.width) :
    ∃ part, window.part? start stop = some part ∧ part.start = window.start + start ∧
      part.stop = window.start + stop ∧ part.width = stop - start :=
  ⟨_, dif_pos ⟨ordered, inside⟩, rfl, rfl, Nat.add_sub_add_left ..⟩

/-- A part that is not wide enough. -/
theorem part?_eq_none {window : Window size} (start : Nat) (narrow : window.width < stop) :
    window.part? start stop = none :=
  dif_neg fun range => Nat.not_le_of_lt narrow range.2

/-- The values of a part are as many as it is wide. -/
theorem size_read (cells : Array α) (window : Window cells.size) :
    (read cells window).size = window.width := by
  rw [read, Array.size_extract, Nat.min_eq_left window.inside]
  rfl

/-- The values of a part of a part. -/
theorem read_part {cells : Array α} {window part : Window cells.size}
    (inside : stop ≤ window.width) (first : part.start = window.start + start)
    (last : part.stop = window.start + stop) :
    read cells part = (read cells window).extract start stop := by
  have ordered := window.ordered
  unfold width at inside
  rw [read, read, Array.extract_extract, first, last, Nat.min_eq_left (by omega)]

/-- **As many values in the place of a part** are written over it. -/
theorem splice_eq {cells values : Array α} {window : Window cells.size}
    (same : values.size = window.width) :
    splice cells window values = overwrite cells window.start values := by
  have inside := window.inside
  have ordered := window.ordered
  unfold width at same
  apply Array.ext_getElem?
  intro position
  unfold splice
  rw [getElem?_overwrite, Array.append_assoc, Array.getElem?_append, Array.getElem?_append,
    Array.size_extract]
  -- before the part, in the part, and behind it
  by_cases before : position < window.start
  · rw [if_pos (by omega), if_neg (by omega), Array.getElem?_extract, if_pos (by omega),
      Nat.zero_add]
  · rw [if_neg (by omega)]
    by_cases among : position < window.start + values.size
    · rw [if_pos (by omega), if_pos (by omega)]
      congr 1
      omega
    · rw [if_neg (by omega), if_neg (by omega), Array.getElem?_extract]
      by_cases behind : position < cells.size
      · rw [if_pos (by omega)]
        congr 1
        omega
      · rw [if_neg (by omega), Array.getElem?_eq_none (by omega)]

/-- As many values are copied over a part. -/
theorem copy_eq {cells values : Array α} {window : Window cells.size}
    (same : values.size = window.width) :
    copy cells window values = .ok (overwrite cells window.start values) := by
  rw [copy, if_pos same, splice_eq same]

end Window

/-! ### Variables -/

namespace Abrupt

section
variable {α : Type}

/-- The value at a position, which has to be inside. -/
def cell (cells : Array α) (position : Nat) : Except Slip α :=
  match cells[position]? with
  | some value => .ok value
  | none => .error (.outside position (position + 1) cells.size)

/-- Another value at a position, which has to be inside. -/
def setCell (cells : Array α) (position : Nat) (value : α) : Except Slip (Array α) :=
  if position < cells.size then .ok (cells.setIfInBounds position value)
  else .error (.outside position (position + 1) cells.size)

end

/-- The sum of an offset and a width. Products of positions and strides need no such care: there are
arrays of that size. An offset and a width need not be those of anything. -/
def sum (left right : Nat) : Except Slip Nat :=
  if left + right < UInt64.size then .ok (left + right) else .error (.overflow left right)

/-- Where a sum is a word, it is the end of a part. -/
theorem sum_eq {start width : Nat} (fits : start + width < UInt64.size) :
    sum start width = .ok (Variable.partEnd start width) := by
  rw [sum, if_pos fits, Variable.partEnd_eq fits]

/-- A sum that is no word is a slip. -/
theorem sum_eq_error {left right : Nat} (exceeds : UInt64.size ≤ left + right) :
    sum left right = .error (.overflow left right) := if_neg (Nat.not_lt_of_le exceeds)

/-- The payload of an element as a part of the whole payload, if there is such a part. -/
def window? (var : Variable) (element : Nat) : Option (Window var.payload.size) :=
  if var.count ≤ element then none
  else Window.within? (element * var.layout.elementBytes)
    ((element + 1) * var.layout.elementBytes) var.payload.size

/-- The bytes of the word at the front of an element, if it has as many. -/
def front? (var : Variable) (element : Nat) : Option (Window var.payload.size) :=
  (window? var element).bind fun window => window.part? 0 wordBytes

/-- The word at the front of an element, by way of a copy of its bytes. -/
def word (var : Variable) (element : Nat) : Except Slip (Option Int64) :=
  match front? var element with
  | none => .ok none
  | some front => do
      let raw ← Window.copy (Array.replicate wordBytes 0) (Window.all _)
        (Window.read var.payload front)
      return some (wordAt raw 0)

/-- Store a word at the front of an element. -/
def setWord (var : Variable) (element : Nat) (word : Int64) : Except Slip (Option Variable) :=
  match front? var element with
  | none => .ok none
  | some front => do
      let payload ← Window.copy var.payload front (wordToBytes word)
      return some { var with payload }

/-- Copy bytes over the front of the whole payload, as far as both reach. -/
def copyPayload (var : Variable) (bytes : Array UInt8) : Except Slip Variable := do
  let common := min var.payload.size bytes.size
  let target ← Window.within 0 common var.payload.size
  let source ← Window.within 0 common bytes.size
  let payload ← Window.copy var.payload target (Window.read bytes source)
  return { var with payload }

/-- What an owned slot refers to. -/
def ownedRef (var : Variable) (element slot : Nat) : Except Slip (Option VarId) :=
  match var.ownedIndex? element slot with
  | none => .ok none
  | some index => cell var.owned index

/-- Store a reference in an owned slot. -/
def replaceOwnedRef (var : Variable) (element slot : Nat) (referent : Option VarId) :
    Except Slip (Option Variable) :=
  match var.ownedIndex? element slot with
  | none => .ok none
  | some index => do
      let owned ← setCell var.owned index referent
      return some { var with owned }

/-- A copy of an element. -/
def element (var : Variable) (index : Nat) : Except Slip (Option Element) :=
  match window? var index with
  | none => .ok none
  | some bytes => do
      let owned ← Window.within (index * var.layout.ownedWidth)
        ((index + 1) * var.layout.ownedWidth) var.owned.size
      let natives ← Window.within (index * var.layout.nativeWidth)
        ((index + 1) * var.layout.nativeWidth) var.natives.size
      return some ⟨Window.read var.payload bytes, Window.read var.owned owned,
        Window.read var.natives natives⟩

/-- Store a copied element: bytes and natives are copied, and references are put in the place of
those that were there. -/
def storeElement (var : Variable) (index : Nat) (value : Element) :
    Except Slip (Option Variable) :=
  if value.owned.size ≠ var.layout.ownedWidth ∨ value.natives.size ≠ var.layout.nativeWidth then
    .ok none
  else
    match window? var index with
    | none => .ok none
    | some bytes =>
        if bytes.width ≠ value.payload.size then .ok none
        else do
          let payload ← Window.copy var.payload bytes value.payload
          let replaced ← Window.within (index * var.layout.ownedWidth)
            ((index + 1) * var.layout.ownedWidth) var.owned.size
          let owned := Window.splice var.owned replaced value.owned
          let covered ← Window.within (index * var.layout.nativeWidth)
            ((index + 1) * var.layout.nativeWidth) var.natives.size
          let natives ← Window.copy var.natives covered value.natives
          return some { var with payload, owned, natives }

section
variable {var : Variable} {index : Nat}

/-- A row of an array with a row for each element is a part of it. -/
theorem within_row {α : Type} {values : Array α} {count width : Nat}
    (sized : values.size = count * width) (present : index < count) :
    ∃ window : Window values.size,
      Window.within? (index * width) ((index + 1) * width) values.size = some window ∧
      Window.within (index * width) ((index + 1) * width) values.size = .ok window ∧
      window.start = index * width ∧ window.stop = (index + 1) * width ∧
      window.width = width := by
  have ordered : index * width ≤ (index + 1) * width := Nat.mul_le_mul_right width (Nat.le_succ _)
  have inside : (index + 1) * width ≤ values.size := sized ▸ Nat.mul_le_mul_right width present
  refine ⟨⟨_, _, ordered, inside⟩, Window.within?_eq ordered inside,
    Window.within_eq ordered inside, rfl, rfl, ?_⟩
  show (index + 1) * width - index * width = width
  rw [Nat.succ_mul, Nat.add_sub_cancel_left]

/-- Each element has its payload. -/
theorem exists_window (sized : var.Sized) (present : index < var.count) :
    ∃ window, window? var index = some window ∧
      window.start = index * var.layout.elementBytes ∧
      window.width = var.layout.elementBytes ∧
      var.bytes? index = some (Window.read var.payload window) := by
  obtain ⟨window, isWindow, -, start, stop, width⟩ := within_row sized.payload present
  refine ⟨window, ?_, start, width, ?_⟩
  · rw [window?, if_neg (Nat.not_le_of_lt present)]
    exact isWindow
  · rw [Variable.bytes?, if_pos present, Window.read, start, stop]

/-- There is no payload beyond the number of elements. -/
theorem window?_eq_none (missing : var.count ≤ index) : window? var index = none := if_pos missing

/-- An element that holds a word has its bytes at the front. -/
theorem exists_front (sized : var.Sized) (holds : var.hasWord index = true) :
    ∃ front, front? var index = some front ∧
      front.start = index * var.layout.elementBytes ∧ front.width = wordBytes := by
  obtain ⟨present, wide⟩ : index < var.count ∧ wordBytes ≤ var.layout.elementBytes := by
    simpa [Variable.hasWord] using holds
  obtain ⟨window, isWindow, start, width, -⟩ := exists_window sized present
  obtain ⟨part, isPart, first, -, size⟩ :=
    window.exists_part (Nat.zero_le wordBytes) (width.symm ▸ wide)
  refine ⟨part, ?_, first.trans start, size⟩
  rw [front?, isWindow]
  exact isPart

/-- An element that does not hold a word has too few bytes, or is not there. -/
theorem front?_eq_none (sized : var.Sized) (lacks : var.hasWord index = false) :
    front? var index = none := by
  unfold front?
  by_cases present : index < var.count
  · obtain ⟨window, isWindow, -, width, -⟩ := exists_window sized present
    have narrow : var.layout.elementBytes < wordBytes := by
      simpa [Variable.hasWord, present] using lacks
    rw [isWindow]
    exact Window.part?_eq_none 0 (width.symm ▸ narrow)
  · rw [window?_eq_none (Nat.le_of_not_lt present)]
    rfl

/-- A word can be read from a copy of its bytes. -/
theorem wordAt_extract (bytes : Array UInt8) (start : Nat) :
    wordAt (bytes.extract start (start + wordBytes)) 0 = wordAt bytes start := by
  have same : ∀ offset, offset < wordBytes →
      (bytes.extract start (start + wordBytes))[0 + offset]? = bytes[start + offset]? := by
    intro offset within
    rw [Array.getElem?_extract, Nat.zero_add]
    split
    · rfl
    · rw [Array.getElem?_eq_none (by omega)]
  unfold wordAt
  dsimp only
  rw [same 0 (by decide), same 1 (by decide), same 2 (by decide), same 3 (by decide),
    same 4 (by decide), same 5 (by decide), same 6 (by decide), same 7 (by decide)]

/-- **Words are read without slips.** -/
theorem word_eq (sized : var.Sized) (index : Nat) : word var index = .ok (var.word? index) := by
  unfold word Variable.word?
  cases holds : var.hasWord index with
  | false =>
      rw [front?_eq_none sized holds]
      rfl
  | true =>
      obtain ⟨front, isFront, start, width⟩ := exists_front sized holds
      have stop : front.stop = front.start + wordBytes := by
        have ordered := front.ordered
        unfold Window.width at width
        omega
      -- all of the copy is written over, so it is the bytes of the word
      have full : (Window.read var.payload front).size =
          (Array.replicate wordBytes (0 : UInt8)).size :=
        (Window.size_read _ front).trans (width.trans Array.size_replicate.symm)
      rw [isFront]
      dsimp only
      rw [Window.copy_eq full, Window.all, overwrite_all _ _ full, Window.read, stop]
      show Except.ok (some (wordAt _ 0)) = _
      rw [wordAt_extract, start]
      rfl

/-- **Words are written without slips.** -/
theorem setWord_eq (sized : var.Sized) (index : Nat) (word : Int64) :
    setWord var index word =
      .ok (if var.hasWord index then some (var.putWord index word) else none) := by
  unfold setWord
  cases holds : var.hasWord index with
  | false =>
      rw [front?_eq_none sized holds]
      rfl
  | true =>
      obtain ⟨front, isFront, start, width⟩ := exists_front sized holds
      rw [isFront]
      dsimp only
      rw [Window.copy_eq (width.symm ▸ rfl), start]
      rfl

/-- **Payloads are copied without slips**, whatever their sizes. -/
theorem copyPayload_eq (var : Variable) (bytes : Array UInt8) :
    copyPayload var bytes = .ok (var.copyPayload bytes) := by
  unfold copyPayload Variable.copyPayload
  dsimp only
  rw [Window.within_eq (Nat.zero_le _) (Nat.min_le_left _ _),
    Window.within_eq (Nat.zero_le _) (Nat.min_le_right _ _)]
  dsimp only [bind, Except.bind]
  -- what is read is as long as what it is copied over, since both stop at the shorter end
  have taken : Window.read bytes
      ⟨0, min var.payload.size bytes.size, Nat.zero_le _, Nat.min_le_right _ _⟩ =
      bytes.take var.payload.size := by
    rw [Window.read, Array.take_eq_extract]
    apply Array.ext_getElem?
    intro position
    rw [Array.getElem?_extract, Array.getElem?_extract]
    congr 1
    simp only [eq_iff_iff]
    omega
  rw [taken, Window.copy_eq (by simp [Window.width, Nat.min_comm])]
  rfl

/-- The slots that a variable has are inside. -/
theorem lt_of_ownedIndex? (sized : var.Sized) {slot position : Nat}
    (isIndex : var.ownedIndex? index slot = some position) : position < var.owned.size := by
  unfold Variable.ownedIndex? at isIndex
  split at isIndex
  next inside =>
    cases isIndex
    have row : (index + 1) * var.layout.ownedWidth ≤ var.count * var.layout.ownedWidth :=
      Nat.mul_le_mul_right _ inside.1
    rw [sized.owned]
    rw [Nat.succ_mul] at row
    omega
  next => cases isIndex

/-- **References are read without slips.** -/
theorem ownedRef_eq (sized : var.Sized) (index slot : Nat) :
    ownedRef var index slot = .ok (var.ownedRef? index slot) := by
  unfold ownedRef Variable.ownedRef?
  cases isIndex : var.ownedIndex? index slot with
  | none => rfl
  | some position =>
      have isThere := Array.getElem?_eq_getElem (lt_of_ownedIndex? sized isIndex)
      dsimp only
      rw [cell, isThere, Option.bind_some, isThere]
      rfl

/-- **References are stored without slips.** -/
theorem replaceOwnedRef_eq (sized : var.Sized) (index slot : Nat) (referent : Option VarId) :
    replaceOwnedRef var index slot referent =
      .ok ((var.ownedIndex? index slot).map fun _ => var.putOwnedRef index slot referent) := by
  unfold replaceOwnedRef
  cases isIndex : var.ownedIndex? index slot with
  | none => rfl
  | some position =>
      dsimp only
      rw [setCell, if_pos (lt_of_ownedIndex? sized isIndex)]
      unfold Variable.ownedIndex? at isIndex
      split at isIndex
      · cases isIndex
        rfl
      · cases isIndex

/-- **Elements are copied without slips.** -/
theorem element_eq (sized : var.Sized) (index : Nat) :
    element var index = .ok (var.element? index) := by
  unfold element
  by_cases present : index < var.count
  · obtain ⟨window, isWindow, -, -, isBytes⟩ := exists_window sized present
    obtain ⟨owned, -, isOwned, ownedStart, ownedStop, -⟩ := within_row sized.owned present
    obtain ⟨natives, -, isNatives, nativesStart, nativesStop, -⟩ :=
      within_row sized.natives present
    rw [isWindow, Variable.element?, isBytes]
    dsimp only
    rw [isOwned, isNatives]
    simp only [bind, Except.bind, pure, Except.pure, Window.read, ownedStart, ownedStop,
      nativesStart, nativesStop, Option.map_some]
  · rw [window?_eq_none (Nat.le_of_not_lt present),
      Variable.element?_eq_none (Nat.le_of_not_lt present)]

/-- Without the row of slots that the layout says, there is a slip. -/
example :
    element { Variable.zeroed ⟨⟨1⟩, ⟨some 1, 0, #[VarTypeId.word], #[]⟩⟩ 1 with owned := #[] } 0 =
      .error (.outside 0 1 0) := rfl

/-- **Elements are stored without slips**, whatever their shape. -/
theorem storeElement_eq (sized : var.Sized) (index : Nat) (value : Element) :
    storeElement var index value = .ok (var.storeElement index value) := by
  unfold storeElement Variable.storeElement
  by_cases slots : value.owned.size ≠ var.layout.ownedWidth ∨
      value.natives.size ≠ var.layout.nativeWidth
  · rw [if_pos slots, if_neg]
    rcases slots with other | other <;> simp [Variable.fits, other]
  · rw [if_neg slots]
    obtain ⟨sameOwned, sameNatives⟩ : value.owned.size = var.layout.ownedWidth ∧
        value.natives.size = var.layout.nativeWidth := by
      constructor <;> omega
    by_cases present : index < var.count
    · -- the widths have been compared with those of the layout, which are those of the rows
      obtain ⟨bytes, isBytes, start, width, -⟩ := exists_window sized present
      obtain ⟨owned, -, isOwned, ownedStart, -, ownedWidth⟩ := within_row sized.owned present
      obtain ⟨natives, -, isNatives, nativesStart, -, nativesWidth⟩ :=
        within_row sized.natives present
      rw [isBytes]
      dsimp only
      rw [width]
      by_cases samePayload : value.payload.size = var.layout.elementBytes
      · have fits : var.fits index value = true := by
          simp [Variable.fits, present, samePayload, sameOwned, sameNatives]
        rw [if_neg (not_not_intro samePayload.symm), if_pos fits,
          Window.copy_eq (samePayload.trans width.symm), isOwned, isNatives]
        dsimp only [bind, Except.bind]
        rw [Window.copy_eq (sameNatives.trans nativesWidth.symm),
          Window.splice_eq (sameOwned.trans ownedWidth.symm), start, ownedStart, nativesStart]
        rfl
      · rw [if_pos (Ne.symm samePayload), if_neg]
        simp [Variable.fits, samePayload]
    · rw [window?_eq_none (Nat.le_of_not_lt present), if_neg]
      simp [Variable.fits, present]

end

end Abrupt

end ScopeMachine
