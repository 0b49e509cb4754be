import Mathlib.Algebra.Group.Nat.Defs
import ScopeMachine.Proofs.Elements

/-! # Variables that hold words

The payload of a variable whose elements are words is the bytes of the words, back to back. Reading,
writing and copying elements of such a variable is reading, writing and copying words of a list.

* `bytesOf` lays words out as bytes, and `wordAt_bytesOf`, `extract_bytesOf` and `overwrite_bytesOf`
  say that each word keeps to its own eight bytes;
* `Variable.ofWords` is the variable that holds a list of words, and `Variable.word?_ofWords`,
  `Variable.element?_ofWords`, `Variable.putElement_ofWords` and their like describe the operations
  on variables as operations on the list. -/

namespace ScopeMachine

/-! ### Words and bytes -/

/-- A number of 64 bits is the sum of its digits to the base 256, each at its place. -/
theorem sum_digits {number : Nat} (small : number < 2 ^ 64) :
    number % 256 + number / 256 % 256 * 256 + number / 65536 % 256 * 65536
      + number / 16777216 % 256 * 16777216 + number / 4294967296 % 256 * 4294967296
      + number / 1099511627776 % 256 * 1099511627776
      + number / 281474976710656 % 256 * 281474976710656
      + number / 72057594037927936 % 256 * 72057594037927936 = number := by
  omega

/-- A word of 64 bits is the sum of its bytes, each at its place. -/
theorem sum_bytes (bits : UInt64) :
    bits.toUInt8.toUInt64 + (bits / 0x100).toUInt8.toUInt64 * 0x100
      + (bits / 0x10000).toUInt8.toUInt64 * 0x10000
      + (bits / 0x1000000).toUInt8.toUInt64 * 0x1000000
      + (bits / 0x100000000).toUInt8.toUInt64 * 0x100000000
      + (bits / 0x10000000000).toUInt8.toUInt64 * 0x10000000000
      + (bits / 0x1000000000000).toUInt8.toUInt64 * 0x1000000000000
      + (bits / 0x100000000000000).toUInt8.toUInt64 * 0x100000000000000 = bits := by
  have small : bits.toNat < 2 ^ 64 := UInt64.toNat_lt bits
  apply UInt64.toNat_inj.mp
  simp only [UInt64.toNat_add, UInt64.toNat_mul, UInt64.toNat_div, UInt64.toNat_toUInt8,
    UInt8.toNat_toUInt64, UInt64.reduceToNat, Nat.mod_add_mod, Nat.add_mod_mod]
  rw [sum_digits small]
  exact Nat.mod_eq_of_lt small

/-- A word is found where its bytes are. -/
theorem wordAt_eq {bytes : Array UInt8} {start : Nat} {word : Int64}
    (same : ∀ offset < 8, bytes[start + offset]? = (wordToBytes word)[offset]?) :
    wordAt bytes start = word := by
  unfold wordAt
  dsimp only
  rw [same 0 (by decide), same 1 (by decide), same 2 (by decide), same 3 (by decide),
    same 4 (by decide), same 5 (by decide), same 6 (by decide), same 7 (by decide)]
  exact congrArg UInt64.toInt64 (sum_bytes word.toUInt64)

/-- A word has eight bytes. -/
theorem size_wordToBytes (word : Int64) : (wordToBytes word).size = 8 := rfl

/-- The bytes of some words, back to back. -/
def bytesOf (words : List Int64) : Array UInt8 :=
  (words.flatMap fun word => (wordToBytes word).toList).toArray

/-- The bytes of the first word come first. -/
theorem bytesOf_cons (word : Int64) (words : List Int64) :
    bytesOf (word :: words) = wordToBytes word ++ bytesOf words := by
  apply Array.ext'
  simp [bytesOf]

/-- There are eight bytes for each word. -/
@[simp] theorem size_bytesOf (words : List Int64) : (bytesOf words).size = words.length * 8 := by
  induction words with
  | nil => rfl
  | cons word words ih =>
      rw [bytesOf_cons, Array.size_append, ih, size_wordToBytes, List.length_cons]
      omega

/-- Each byte is one of the word that it belongs to. -/
theorem getElem?_bytesOf (words : List Int64) (index : Nat) {offset : Nat} (inside : offset < 8) :
    (bytesOf words)[index * 8 + offset]? =
      words[index]?.bind fun word => (wordToBytes word)[offset]? := by
  induction words generalizing index with
  | nil => rfl
  | cons word words ih =>
      rw [bytesOf_cons, Array.getElem?_append, size_wordToBytes]
      cases index with
      | zero =>
          rw [if_pos (by omega), Nat.zero_mul, Nat.zero_add]
          rfl
      | succ index =>
          rw [if_neg (by omega), show (index + 1) * 8 + offset - 8 = index * 8 + offset by omega,
            ih]
          rfl

/-- A word is read from its bytes. -/
theorem wordAt_bytesOf {words : List Int64} {index : Nat} {word : Int64}
    (found : words[index]? = some word) : wordAt (bytesOf words) (index * 8) = word := by
  refine wordAt_eq fun offset inside => ?_
  rw [getElem?_bytesOf words index inside, found]
  rfl

/-- The bytes of one word, cut out. -/
theorem extract_bytesOf {words : List Int64} {index : Nat} {word : Int64}
    (found : words[index]? = some word) :
    (bytesOf words).extract (index * 8) (index * 8 + 8) = wordToBytes word := by
  have within : index < words.length := (List.getElem?_eq_some_iff.mp found).1
  apply Array.ext_getElem?
  intro offset
  rw [Array.getElem?_extract, size_bytesOf]
  by_cases inside : offset < 8
  · rw [if_pos (by omega), getElem?_bytesOf words index inside, found]
    rfl
  · rw [if_neg (by omega), Array.getElem?_eq_none (by rw [size_wordToBytes]; omega)]

/-- Writing over the bytes of one word replaces that word. -/
theorem overwrite_bytesOf (words : List Int64) (index : Nat) (word : Int64) :
    overwrite (bytesOf words) (index * 8) (wordToBytes word) = bytesOf (words.set index word) := by
  apply Array.ext_getElem?
  intro position
  rw [getElem?_overwrite, size_wordToBytes, size_bytesOf]
  -- each position lies in the bytes of the word number `position / 8`
  have split : position / 8 * 8 + position % 8 = position := by omega
  have inside : position % 8 < 8 := Nat.mod_lt _ (by decide)
  rw [← split, getElem?_bytesOf _ _ inside, getElem?_bytesOf _ _ inside, List.getElem?_set]
  by_cases here : index = position / 8
  · rw [if_pos here]
    by_cases within : index < words.length
    · rw [if_pos within, if_pos (by omega),
        show position / 8 * 8 + position % 8 - index * 8 = position % 8 by omega]
      rfl
    · rw [if_neg within, if_neg (by omega), List.getElem?_eq_none (by omega)]
  · rw [if_neg here, if_neg (by omega)]

/-- Bytes that are zero are words that are zero. -/
theorem replicate_eq_bytesOf (count : Nat) :
    Array.replicate (count * 8) (0 : UInt8) = bytesOf (List.replicate count 0) := by
  induction count with
  | zero => rfl
  | succ count ih =>
      rw [List.replicate_succ, bytesOf_cons, ← ih, show (count + 1) * 8 = 8 + count * 8 by omega,
        ← Array.replicate_append_replicate]
      rfl

/-- A list is what is found at its positions, one after the other. -/
theorem filterMap_range {α : Type} {items : List α} {find : Nat → Option α}
    (finds : ∀ index < items.length, find index = items[index]?) :
    (List.range items.length).filterMap find = items := by
  induction items generalizing find with
  | nil => rfl
  | cons item items ih =>
      have first : find 0 = some item := finds 0 (Nat.succ_pos _)
      rw [List.length_cons, List.range_succ_eq_map, List.filterMap_cons_some first,
        List.filterMap_map, ih]
      intro index inside
      exact finds (index + 1) (Nat.succ_lt_succ inside)

/-! ### Variables of words -/

/-- The elements of a layout are words, without slots. -/
structure Layout.HoldsWords (layout : Layout) : Prop where
  /-- An element has the bytes of one word. -/
  bytes : layout.elementBytes = 8
  /-- An element has no owned slot. -/
  owned : layout.ownedWidth = 0
  /-- An element has no native slot. -/
  natives : layout.nativeWidth = 0

/-- An element that holds a word. -/
def Element.ofWord (word : Int64) : Element := ⟨wordToBytes word, #[], #[]⟩

namespace Variable

/-- A variable that holds some words, one in each element. -/
def ofWords (layout : Layout) (words : List Int64) : Variable :=
  ⟨layout, words.length, bytesOf words, #[], #[]⟩

/-- Copying the payload of a variable of as many words. -/
theorem copyPayload_ofWords (layout : Layout) {words others : List Int64}
    (same : others.length = words.length) :
    (ofWords layout words).copyPayload (bytesOf others) = ofWords layout others := by
  unfold copyPayload ofWords
  have all : (bytesOf others).take (bytesOf words).size = bytesOf others := by
    rw [size_bytesOf, ← same, ← size_bytesOf]
    exact Array.extract_size
  dsimp only
  rw [all, overwrite_all _ _ (by rw [size_bytesOf, size_bytesOf, same]), same]

section
variable {layout : Layout} (holds : layout.HoldsWords) {words : List Int64} {index : Nat}
  {word : Int64}
include holds

/-- A fresh variable holds zeros. -/
theorem zeroed_eq_ofWords (count : Nat) :
    zeroed layout count = ofWords layout (List.replicate count 0) := by
  unfold zeroed ofWords
  rw [holds.bytes, holds.owned, holds.natives, replicate_eq_bytesOf, List.length_replicate]
  rfl

/-- There is a word in each element. -/
theorem hasWord_ofWords (inside : index < words.length) :
    (ofWords layout words).hasWord index = true := by
  unfold hasWord
  rw [Bool.and_eq_true, decide_eq_true_iff, decide_eq_true_iff]
  exact ⟨inside, holds.bytes ▸ Nat.le_refl 8⟩

/-- The word in an element. -/
theorem word?_ofWords (found : words[index]? = some word) :
    (ofWords layout words).word? index = some word := by
  unfold word?
  rw [if_pos (hasWord_ofWords holds (List.getElem?_eq_some_iff.mp found).1)]
  show some (wordAt (bytesOf words) (index * layout.elementBytes)) = some word
  rw [holds.bytes, wordAt_bytesOf found]

/-- The payload of an element. -/
theorem bytes?_ofWords (found : words[index]? = some word) :
    (ofWords layout words).bytes? index = some (wordToBytes word) := by
  unfold bytes?
  have inside : index < (ofWords layout words).count := (List.getElem?_eq_some_iff.mp found).1
  rw [if_pos inside]
  show some ((bytesOf words).extract (index * layout.elementBytes)
    ((index + 1) * layout.elementBytes)) = some (wordToBytes word)
  rw [holds.bytes, Nat.succ_mul, extract_bytesOf found]

/-- Storing a word. -/
theorem putWord_ofWords (words : List Int64) (index : Nat) (word : Int64) :
    (ofWords layout words).putWord index word = ofWords layout (words.set index word) := by
  unfold putWord writeBytes ofWords
  dsimp only
  rw [holds.bytes, Nat.add_zero, overwrite_bytesOf, List.length_set]

/-- A copy of an element. -/
theorem element?_ofWords (found : words[index]? = some word) :
    (ofWords layout words).element? index = some (Element.ofWord word) := by
  unfold element?
  rw [bytes?_ofWords holds found, Option.map_some]
  unfold Element.ofWord ofWords
  rw [Array.extract_empty, Array.extract_empty]

/-- An element with a word can be stored wherever there is one. -/
theorem fits_ofWords (inside : index < words.length) (word : Int64) :
    (ofWords layout words).fits index (Element.ofWord word) = true := by
  have isInside : decide (index < (ofWords layout words).count) = true := decide_eq_true inside
  unfold fits
  rw [isInside]
  show ((8 == layout.elementBytes) && (0 == layout.ownedWidth) && (0 == layout.nativeWidth)) = true
  rw [holds.bytes, holds.owned, holds.natives]
  rfl

/-- Storing an element with a word. -/
theorem putElement_ofWords (words : List Int64) (index : Nat) (word : Int64) :
    (ofWords layout words).putElement index (Element.ofWord word) =
      ofWords layout (words.set index word) := by
  unfold putElement ofWords Element.ofWord
  dsimp only
  rw [holds.bytes, overwrite_bytesOf, List.length_set]
  rfl

/-- The words of a variable are those that it holds. -/
theorem words_ofWords (words : List Int64) : (ofWords layout words).words = words := by
  refine filterMap_range fun index inside => ?_
  rw [List.getElem?_eq_getElem inside]
  exact word?_ofWords holds (List.getElem?_eq_getElem inside)

end

end Variable

end ScopeMachine
