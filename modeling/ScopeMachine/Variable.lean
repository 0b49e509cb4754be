import ScopeMachine.Error
import ScopeMachine.Module

/-! # Variables

A variable is a row of elements. Each element has a payload of bytes, a row of owned slots that
refer to other variables, and a row of native slots. Payloads and slots of all elements are kept
back to back, with strides given by the variable's layout.

* `Variable.bytes?`, `Variable.word?` and `Variable.setWord` reach the payload;
* `Variable.element?` and `Variable.storeElement` copy whole elements;
* `Variable.ownedRef?`, `Variable.setOwnedRef`, `Variable.nativeRef?` and `Variable.setNativeRef`
  reach the slots. -/

namespace ScopeMachine

/-! ### Layouts -/

/-- The shape of a variable's elements, and their number if it is fixed. It comes from a variable
type, or an embedding program has made it up: the sizes of types have 32 bits, those of shapes
64. -/
structure Shape where
  /-- The number of elements, if it is fixed. -/
  fixedCount? : Option Nat
  /-- The number of payload bytes of one element. -/
  elementBytes : UInt64
  /-- The types of the variables that the owned slots of an element refer to. -/
  ownedRefs : Array VarTypeId
  /-- The types of the procedures that the native slots of an element refer to. -/
  nativeRefs : Array ProcTypeId
deriving DecidableEq

namespace Shape

/-- The shape of the variables of a type. -/
def ofType (type : VarType) : Shape where
  fixedCount? := if type.isDynamic then none else some type.elementCount.toNat
  elementBytes := type.elementBytes.toUInt64
  ownedRefs := type.ownedRefs
  nativeRefs := type.nativeRefs

instance : Coe VarType Shape := ⟨ofType⟩

/-- Whether elements of the two shapes have the same payload size and the same slots. -/
def same (left right : Shape) : Bool :=
  left.elementBytes == right.elementBytes && left.ownedRefs == right.ownedRefs
    && left.nativeRefs == right.nativeRefs

end Shape

/-- The shape of a variable, and the identifier of the type that it passes for. -/
structure Layout where
  /-- The identifier of the type. -/
  vtype : VarTypeId
  /-- The shape. -/
  shape : Shape
deriving DecidableEq

namespace Layout

/-- The number of elements of every variable with the layout, if it is fixed. -/
def fixedCount? (layout : Layout) : Option Nat := layout.shape.fixedCount?

/-- The number of payload bytes of one element. -/
def elementBytes (layout : Layout) : Nat := layout.shape.elementBytes.toNat

/-- The number of owned slots of one element. -/
def ownedWidth (layout : Layout) : Nat := layout.shape.ownedRefs.size

/-- The number of native slots of one element. -/
def nativeWidth (layout : Layout) : Nat := layout.shape.nativeRefs.size

/-- Whether elements of the two layouts have the same shape. -/
def sameShape (left right : Layout) : Bool := left.shape.same right.shape

/-- The number of elements to allocate when `count` are asked for; zero asks for the fixed
number. -/
def resolveCount (layout : Layout) (count : Nat) : Except Error Nat :=
  match layout.fixedCount? with
  | none => .ok count
  | some fixed =>
      if count = 0 ∨ count = fixed then .ok fixed
      else .error (.argument (.elementCount layout.vtype fixed count))

end Layout

/-! ### Variables -/

/-- The identity of a variable. -/
abbrev VarId := Nat

/-- The natives that a slot can refer to. The machine moves them and never applies them. -/
inductive Native where
  /-- Add one to the first word. -/
  | bump
  /-- Fill the payload with zeros. -/
  | zero
  /-- Report failure. -/
  | fail
  /-- Copy bytes of the embedding program's choice over the payload, under a name of its choice. -/
  | load (name : String) (bytes : Array UInt8)
deriving DecidableEq

/-- A variable. -/
structure Variable where
  /-- The shape of the elements. -/
  layout : Layout
  /-- The number of elements. -/
  count : Nat
  /-- The payloads of the elements, back to back. -/
  payload : Array UInt8
  /-- The owned slots of the elements, back to back. -/
  owned : Array (Option VarId)
  /-- The native slots of the elements, back to back. -/
  natives : Array (Option Native)
deriving DecidableEq

/-- A copy of one element. -/
structure Element where
  /-- The payload. -/
  payload : Array UInt8
  /-- The owned slots. -/
  owned : Array (Option VarId)
  /-- The native slots. -/
  natives : Array (Option Native)
deriving DecidableEq

/-- Write `values` over the part of an array that starts at `start`. -/
def overwrite {α : Type} (target : Array α) (start : Nat) (values : Array α) : Array α :=
  (values.foldl (fun (written, position) value =>
    (written.setIfInBounds position value, position + 1)) (target, start)).1

section
variable {α : Type} (target values : Array α) (start : Nat)

/-- Writing over an array keeps its size. -/
@[simp] theorem size_overwrite : (overwrite target start values).size = target.size := by
  unfold overwrite
  rw [← Array.foldl_toList]
  generalize values.toList = rest
  induction rest generalizing target start with
  | nil => rfl
  | cons value rest ih =>
      rw [List.foldl_cons, ih, Array.size_setIfInBounds]

/-- What is written is found where it was written, and all else is as before. -/
theorem getElem?_overwrite (position : Nat) :
    (overwrite target start values)[position]? =
      if start ≤ position ∧ position < start + values.size ∧ position < target.size then
        values[position - start]?
      else target[position]? := by
  have isValue : values[position - start]? = values.toList[position - start]? :=
    Array.getElem?_toList.symm
  unfold overwrite
  rw [← Array.foldl_toList, isValue, ← Array.length_toList]
  clear isValue
  generalize values.toList = rest
  induction rest generalizing target start with
  | nil =>
      rw [List.foldl_nil, if_neg (by simp only [List.length_nil]; omega)]
  | cons value rest ih =>
      rw [List.foldl_cons, ih, Array.size_setIfInBounds, Array.getElem?_setIfInBounds,
        List.length_cons]
      by_cases here : position = start
      · subst here
        rw [if_neg (by omega), if_pos rfl]
        by_cases inside : position < target.size
        · rw [if_pos inside, if_pos ⟨Nat.le_refl _, by omega, inside⟩, Nat.sub_self]
          rfl
        · rw [if_neg inside, if_neg (by omega), Array.getElem?_eq_none (by omega)]
      · rw [if_neg (Ne.symm here)]
        by_cases later : start + 1 ≤ position ∧ position < start + 1 + rest.length ∧
            position < target.size
        · rw [if_pos later, if_pos (by omega),
            show position - start = position - (start + 1) + 1 by omega, List.getElem?_cons_succ]
        · rw [if_neg later, if_neg (by omega)]

/-- Writing over all of an array. -/
theorem overwrite_all (full : values.size = target.size) : overwrite target 0 values = values := by
  apply Array.ext_getElem?
  intro position
  rw [getElem?_overwrite, Nat.sub_zero]
  split
  · rfl
  · rw [Array.getElem?_eq_none (by omega), Array.getElem?_eq_none (by omega)]

end

/-! ### Words as bytes -/

/-- The eight bytes of a word, the lowest first. -/
def wordToBytes (word : Int64) : Array UInt8 :=
  let bits := word.toUInt64
  #[bits.toUInt8, (bits / 0x100).toUInt8, (bits / 0x10000).toUInt8, (bits / 0x1000000).toUInt8,
    (bits / 0x100000000).toUInt8, (bits / 0x10000000000).toUInt8,
    (bits / 0x1000000000000).toUInt8, (bits / 0x100000000000000).toUInt8]

/-- The word whose bytes start at `start`, the lowest first. -/
def wordAt (bytes : Array UInt8) (start : Nat) : Int64 :=
  let byteAt (offset : Nat) : UInt64 := (bytes[start + offset]?.getD 0).toUInt64
  (byteAt 0 + byteAt 1 * 0x100 + byteAt 2 * 0x10000 + byteAt 3 * 0x1000000
    + byteAt 4 * 0x100000000 + byteAt 5 * 0x10000000000 + byteAt 6 * 0x1000000000000
    + byteAt 7 * 0x100000000000000).toInt64

namespace Variable

/-- A variable of `count` elements, all zero and null. -/
def zeroed (layout : Layout) (count : Nat) : Variable where
  layout
  count
  payload := Array.replicate (count * layout.elementBytes) 0
  owned := Array.replicate (count * layout.ownedWidth) none
  natives := Array.replicate (count * layout.nativeWidth) none

/-- Whether there are no elements. -/
def isEmpty (var : Variable) : Bool := var.count == 0

/-! ### Payload -/

/-- The payload of an element. -/
def bytes? (var : Variable) (element : Nat) : Option (Array UInt8) :=
  if element < var.count then
    some (var.payload.extract (element * var.layout.elementBytes)
      ((element + 1) * var.layout.elementBytes))
  else none

/-- Write bytes over an element's payload, from a position within the element. -/
def writeBytes (var : Variable) (element position : Nat) (bytes : Array UInt8) : Variable :=
  { var with
    payload := overwrite var.payload (element * var.layout.elementBytes + position) bytes }

/-- Where a part of `width` bytes ends that starts at a position. Positions are words of 64 bits:
the end of a part that is too wide comes before its start. -/
def partEnd (start width : Nat) : Nat := (start + width) % UInt64.size

/-- Whether an element exists and holds a word. -/
def hasWord (var : Variable) (element : Nat) : Bool :=
  element < var.count && wordBytes ≤ var.layout.elementBytes

/-- The word at the front of an element. -/
def word? (var : Variable) (element : Nat) : Option Int64 :=
  if var.hasWord element then
    some (wordAt var.payload (element * var.layout.elementBytes))
  else none

/-- Store a word at the front of an element that holds one. -/
def putWord (var : Variable) (element : Nat) (word : Int64) : Variable :=
  var.writeBytes element 0 (wordToBytes word)

/-- Store a word at the front of an element. -/
def setWord (var : Variable) (element : Nat) (word : Int64) : Except Error Variable :=
  if var.hasWord element then .ok (var.putWord element word)
  else .error (.range (.noWord element var.count))

/-- The words of all elements, if elements hold a word. -/
def words (var : Variable) : List Int64 :=
  (List.range var.count).filterMap var.word?

/-- Copy bytes over the front of the whole payload, as far as both reach. -/
def copyPayload (var : Variable) (bytes : Array UInt8) : Variable :=
  { var with payload := overwrite var.payload 0 (bytes.take var.payload.size) }

/-! ### Owned slots -/

/-- The position of an owned slot, if the variable has it. -/
def ownedIndex? (var : Variable) (element slot : Nat) : Option Nat :=
  if element < var.count ∧ slot < var.layout.ownedWidth then
    some (element * var.layout.ownedWidth + slot)
  else none

/-- The variable that an owned slot refers to. -/
def ownedRef? (var : Variable) (element slot : Nat) : Option VarId :=
  (var.ownedIndex? element slot).bind fun index => var.owned[index]?.join

/-- Store a reference in an owned slot that the variable has. -/
def putOwnedRef (var : Variable) (element slot : Nat) (referent : Option VarId) : Variable :=
  { var with
    owned := var.owned.setIfInBounds (element * var.layout.ownedWidth + slot) referent }

/-- The owned slots that refer to a variable. -/
def referents (var : Variable) : List VarId := var.owned.toList.filterMap id

/-! ### Native slots -/

/-- The native that a slot refers to. -/
def nativeRef? (var : Variable) (element slot : Nat) : Option Native :=
  if element < var.count ∧ slot < var.layout.nativeWidth then
    var.natives[element * var.layout.nativeWidth + slot]?.join
  else none

/-- Store a native in a slot. -/
def setNativeRef (var : Variable) (element slot : Nat) (native : Option Native) :
    Except Error Variable :=
  if element < var.count ∧ slot < var.layout.nativeWidth then
    .ok { var with
      natives := var.natives.setIfInBounds (element * var.layout.nativeWidth + slot) native }
  else .error (.range (.noNativeSlot slot element))

/-- Apply a native to a variable. -/
def applyNative (var : Variable) : Native → Except Error Variable
  | .bump => var.setWord 0 ((var.word? 0).getD 0 + 1)
  | .zero => .ok { var with payload := Array.replicate var.payload.size 0 }
  | .fail => .error (.misuse .nativeFailed)
  | .load _ bytes => .ok (var.copyPayload bytes)

/-! ### Elements -/

/-- A copy of an element. -/
def element? (var : Variable) (index : Nat) : Option Element :=
  (var.bytes? index).map fun payload =>
    { payload
      owned := var.owned.extract (index * var.layout.ownedWidth)
        ((index + 1) * var.layout.ownedWidth)
      natives := var.natives.extract (index * var.layout.nativeWidth)
        ((index + 1) * var.layout.nativeWidth) }

/-- Whether a copied element can be stored: the position exists and the shapes agree. -/
def fits (var : Variable) (index : Nat) (element : Element) : Bool :=
  index < var.count && element.payload.size == var.layout.elementBytes
    && element.owned.size == var.layout.ownedWidth
    && element.natives.size == var.layout.nativeWidth

/-- Store a copied element that fits. -/
def putElement (var : Variable) (index : Nat) (element : Element) : Variable :=
  { var with
    payload := overwrite var.payload (index * var.layout.elementBytes) element.payload
    owned := overwrite var.owned (index * var.layout.ownedWidth) element.owned
    natives := overwrite var.natives (index * var.layout.nativeWidth) element.natives }

/-- Store a copied element, if it fits. -/
def storeElement (var : Variable) (index : Nat) (element : Element) : Option Variable :=
  if var.fits index element then some (var.putElement index element) else none

/-! ### Text -/

/-- The contents of a variable as one line of text. -/
def text (var : Variable) : String :=
  "Variable \x7b vtype: VarTypeId(" ++ var.layout.vtype.index.toNat.repr ++ "), count: "
    ++ var.count.repr ++ ", data: ["
    ++ String.intercalate ", " (var.payload.toList.map fun byte => byte.toNat.repr)
    ++ "], refs: " ++ var.referents.length.repr ++ " \x7d"

end Variable

/-- The name of a native. -/
def Native.name : Native → String
  | bump => "bump"
  | zero => "zero"
  | fail => "fail"
  | load name _ => name

/-- The native with a given name, among those that need nothing but a name. -/
def Native.ofName? (name : String) : Option Native :=
  [bump, zero, fail].find? fun native => native.name == name

end ScopeMachine
