import Mathlib.Algebra.GroupWithZero.Nat
import ScopeMachine.Flags.Text
import ScopeMachine.ModuleId
import ScopeMachine.Proofs.Spelling

/-! # Texts of flag sets and of identities

Flag sets and module identities are exchanged as texts. What is written is read back, bits without a
name included, and a text that is read as a flag set is blank or a list of items between bars.

* `Flags.Item` says what one item may be, and `Flags.Listed` what a text may be;
* `Flags.listed_of_parse?` is what is read as a flag set;
* `Flags.parse?_text` and `ModuleId.parse?_text` are the round trips. -/

namespace ScopeMachine

/-! ### Reading all items -/

/-- What is read from each item, if all are read. -/
theorem mapM_eq_some_map {α β : Type} {read : α → Option β} {value : α → β} {items : List α}
    (reads : ∀ item ∈ items, read item = some (value item)) :
    items.mapM read = some (items.map value) := by
  induction items with
  | nil => rfl
  | cons item items ih =>
      obtain ⟨first, others⟩ := List.forall_mem_cons.mp reads
      rw [List.mapM_cons, first, ih others]
      rfl

/-- If all items are read, each of them is. -/
theorem exists_of_mapM {α β : Type} {read : α → Option β} {items : List α} {values : List β}
    (all : items.mapM read = some values) : ∀ item ∈ items, ∃ value, read item = some value := by
  induction items generalizing values with
  | nil => exact List.forall_mem_nil _
  | cons item items ih =>
      rw [List.mapM_cons] at all
      obtain ⟨value, isValue, all⟩ := Option.bind_eq_some_iff.mp all
      obtain ⟨others, areOthers, -⟩ := Option.bind_eq_some_iff.mp all
      exact List.forall_mem_cons.mpr ⟨⟨value, isValue⟩, ih areOthers⟩

/-! ### Parts of a text -/

namespace Text

variable {separator : Char}

/-- There is always a first part. -/
theorem splitAt_eq_cons (separator : Char) (text : List Char) :
    ∃ part parts, splitAt separator text = part :: parts := by
  cases text with
  | nil => exact ⟨[], [], rfl⟩
  | cons c text =>
      rw [splitAt]
      by_cases isSeparator : c = separator
      · rw [if_pos isSeparator]
        exact ⟨_, _, rfl⟩
      · rw [if_neg isSeparator]
        cases splitAt separator text with
        | nil => exact ⟨_, _, rfl⟩
        | cons part parts => exact ⟨_, _, rfl⟩

/-- A separator starts a new part. -/
theorem splitAt_separator (separator : Char) (text : List Char) :
    splitAt separator (separator :: text) = [] :: splitAt separator text := by
  rw [splitAt, if_pos rfl]

/-- Any other character goes in front of the first part. -/
theorem splitAt_cons {c : Char} (notSeparator : c ≠ separator) {text part : List Char}
    {parts : List (List Char)} (rest : splitAt separator text = part :: parts) :
    splitAt separator (c :: text) = (c :: part) :: parts := by
  rw [splitAt, if_neg notSeparator, rest]

/-- Characters without a separator go in front of the first part. -/
theorem splitAt_append {front : List Char} (notSeparator : ∀ c ∈ front, c ≠ separator)
    {text part : List Char} {parts : List (List Char)}
    (rest : splitAt separator text = part :: parts) :
    splitAt separator (front ++ text) = (front ++ part) :: parts := by
  induction front with
  | nil => exact rest
  | cons c front ih =>
      have others := ih fun other mem => notSeparator other (List.mem_cons_of_mem _ mem)
      exact splitAt_cons (notSeparator c List.mem_cons_self) others

/-- The parts are the text, with separators between them. -/
theorem intercalate_splitAt (separator : Char) (text : List Char) :
    List.intercalate [separator] (splitAt separator text) = text := by
  induction text with
  | nil => rfl
  | cons c text ih =>
      obtain ⟨part, parts, split⟩ := splitAt_eq_cons separator text
      rw [split] at ih
      by_cases isSeparator : c = separator
      · subst isSeparator
        rw [splitAt_separator, split, List.intercalate_cons_cons, ih]
        rfl
      · rw [splitAt_cons isSeparator split]
        cases parts with
        | nil =>
            rw [List.intercalate_singleton] at ih ⊢
            rw [ih]
        | cons next parts =>
            rw [List.intercalate_cons_cons] at ih ⊢
            rw [List.cons_append, List.cons_append, ih]

/-- Parts that are joined by a separator are found again, if it occurs in none of them. -/
theorem splitAt_intercalate {parts : List (List Char)} (nonempty : parts ≠ [])
    (notSeparator : ∀ part ∈ parts, ∀ c ∈ part, c ≠ separator) :
    splitAt separator (List.intercalate [separator] parts) = parts := by
  induction parts with
  | nil => exact absurd rfl nonempty
  | cons part parts ih =>
      have inPart := notSeparator part List.mem_cons_self
      cases parts with
      | nil =>
          have alone : splitAt separator (part ++ []) = [part ++ []] := splitAt_append inPart rfl
          rw [List.append_nil] at alone
          rw [List.intercalate_singleton, alone]
      | cons next parts =>
          have others := ih (by simp) fun other mem =>
            notSeparator other (List.mem_cons_of_mem _ mem)
          rw [List.intercalate_cons_cons, List.append_assoc, List.singleton_append,
            splitAt_append inPart (splitAt_separator _ _), others, List.append_nil]

/-! ### Blanks around a text -/

/-- A text is its trimmed form with blanks around it. -/
theorem exists_eq_trimBlank (text : List Char) :
    ∃ before after, text = before ++ trimBlank text ++ after ∧
      (∀ c ∈ before, isBlank c = true) ∧ ∀ c ∈ after, isBlank c = true := by
  let front := text.dropWhile isBlank
  refine ⟨text.takeWhile isBlank, (front.reverse.takeWhile isBlank).reverse, ?_, ?_, ?_⟩
  · have back : trimBlank text ++ (front.reverse.takeWhile isBlank).reverse = front := by
      show (front.reverse.dropWhile isBlank).reverse ++ _ = front
      rw [← List.reverse_append, List.takeWhile_append_dropWhile, List.reverse_reverse]
    rw [List.append_assoc, back, List.takeWhile_append_dropWhile]
  · exact List.all_eq_true.mp List.all_takeWhile
  · intro c mem
    exact List.all_eq_true.mp List.all_takeWhile c (List.mem_reverse.mp mem)

/-- Nothing remains of a text that is blank, and of no other. -/
theorem isEmpty_trimBlank_iff (text : List Char) :
    (trimBlank text).isEmpty = true ↔ ∀ c ∈ text, isBlank c = true := by
  constructor
  · intro empty
    obtain ⟨before, after, around, blankBefore, blankAfter⟩ := exists_eq_trimBlank text
    rw [List.isEmpty_iff.mp empty, List.append_nil] at around
    rw [around, List.forall_mem_append]
    exact ⟨blankBefore, blankAfter⟩
  · intro blank
    have front : (text ++ []).dropWhile isBlank = [] := List.dropWhile_append_of_pos blank
    rw [List.append_nil] at front
    rw [trimBlank, front]
    rfl

/-- Nothing is removed from a text without blanks. -/
theorem dropWhile_eq_self {text : List Char} (solid : ∀ c ∈ text, isBlank c = false) :
    text.dropWhile isBlank = text := by
  cases text with
  | nil => rfl
  | cons c text =>
      exact List.dropWhile_cons_of_neg (by rw [solid c List.mem_cons_self]; decide)

/-- Blanks in front are removed. -/
theorem trimBlank_blanks {before : List Char} (blank : ∀ c ∈ before, isBlank c = true)
    (text : List Char) : trimBlank (before ++ text) = trimBlank text := by
  rw [trimBlank, List.dropWhile_append_of_pos blank]
  rfl

/-- Of a text without blanks and blanks behind it, the text remains. -/
theorem trimBlank_append {c : Char} {text after : List Char}
    (solid : ∀ other ∈ c :: text, isBlank other = false)
    (blank : ∀ other ∈ after, isBlank other = true) :
    trimBlank (c :: text ++ after) = c :: text := by
  have front : (c :: text ++ after).dropWhile isBlank = c :: text ++ after :=
    List.dropWhile_cons_of_neg (by rw [solid c List.mem_cons_self]; decide)
  have back : (c :: text).reverse.dropWhile isBlank = (c :: text).reverse :=
    dropWhile_eq_self fun other mem => solid other (List.mem_reverse.mp mem)
  have behind : ∀ other ∈ after.reverse, isBlank other = true := fun other mem =>
    blank other (List.mem_reverse.mp mem)
  rw [trimBlank, front, List.reverse_append, List.dropWhile_append_of_pos behind, back,
    List.reverse_reverse]

/-- Items that are joined by a separator with blanks around it are found again. -/
theorem map_trimBlank_splitAt {items : List (List Char)} (nonempty : items ≠ [])
    (solid : ∀ item ∈ items, item ≠ [] ∧ ∀ c ∈ item, c ≠ '|' ∧ isBlank c = false) :
    (splitAt '|' (List.intercalate [' ', '|', ' '] items)).map trimBlank = items := by
  induction items with
  | nil => exact absurd rfl nonempty
  | cons item items ih =>
      obtain ⟨inhabited, plain⟩ := solid item List.mem_cons_self
      obtain ⟨c, tail, rfl⟩ := List.exists_cons_of_ne_nil inhabited
      have notBlank : ∀ other ∈ c :: tail, isBlank other = false := fun other mem =>
        (plain other mem).2
      have notBar : ∀ other ∈ c :: tail, other ≠ '|' := fun other mem => (plain other mem).1
      cases items with
      | nil =>
          have alone : splitAt '|' (c :: tail ++ []) = [c :: tail ++ []] :=
            splitAt_append notBar rfl
          have trimmed : trimBlank (c :: tail ++ []) = c :: tail :=
            trimBlank_append notBlank (List.forall_mem_nil _)
          rw [List.append_nil] at alone trimmed
          rw [List.intercalate_singleton, alone, List.map_singleton, trimmed]
      | cons next items =>
          have others := ih (by simp) fun other mem => solid other (List.mem_cons_of_mem _ mem)
          obtain ⟨part, parts, split⟩ :=
            splitAt_eq_cons '|' (List.intercalate [' ', '|', ' '] (next :: items))
          have first : splitAt '|' (c :: tail ++ ([' '] ++ '|' ::
              (' ' :: List.intercalate [' ', '|', ' '] (next :: items)))) =
              (c :: tail ++ [' ']) :: ([' '] ++ part) :: parts := by
            have blankBar : ∀ c ∈ [' '], c ≠ '|' := List.forall_mem_singleton.mpr (by decide)
            refine splitAt_append notBar (splitAt_append blankBar ?_)
            rw [splitAt_separator, splitAt_cons (by decide) split]
            rfl
          have blank : ∀ c ∈ [' '], isBlank c = true := List.forall_mem_singleton.mpr rfl
          have padded : trimBlank ([' '] ++ part) = trimBlank part :=
            trimBlank_blanks blank part
          rw [split] at others
          rw [List.intercalate_cons_cons, List.append_assoc]
          refine (congrArg (List.map trimBlank) first).trans ?_
          rw [List.map_cons, List.map_cons, trimBlank_append notBlank blank,
            padded, ← List.map_cons, others]

end Text

/-! ### Flag sets -/

/-- Hexadecimal digits are digits. -/
theorem Text.isSome_hexValue?_of_hexNumber? {digits : List Char} {value : Nat}
    (denotes : hexNumber? digits = some value) :
    digits ≠ [] ∧ ∀ c ∈ digits, (hexValue? c).isSome = true := by
  unfold hexNumber? at denotes
  cases digits with
  | nil => cases denotes
  | cons first digits =>
      refine ⟨by simp, ?_⟩
      rw [if_neg (by simp)] at denotes
      generalize first :: digits = all at denotes
      generalize 0 = start at denotes
      induction all generalizing start with
      | nil => exact List.forall_mem_nil _
      | cons c rest ih =>
          rw [List.foldlM_cons] at denotes
          obtain ⟨next, isNext, denotes⟩ := Option.bind_eq_some_iff.mp denotes
          obtain ⟨digit, isDigit, -⟩ := Option.map_eq_some_iff.mp isNext
          rw [List.forall_mem_cons, isDigit]
          exact ⟨rfl, ih next denotes⟩

namespace Flags

variable {kind : FlagKind}

/-- One item of a written flag set, and the bits that it stands for: a name, or `0x` and the digits
of a byte, perhaps behind a plus sign. -/
inductive Item (kind : FlagKind) : List Char → UInt8 → Prop
  /-- A name. -/
  | name {entry : String × UInt8} (named : entry ∈ kind.table) : Item kind entry.1.toList entry.2
  /-- A number. -/
  | number {sign digits : List Char} {value : Nat} (signed : sign = [] ∨ sign = ['+'])
      (denotes : Text.hexNumber? digits = some value) (small : value < 256) :
      Item kind ('0' :: 'x' :: (sign ++ digits)) (UInt8.ofNat value)

/-- A text that is blank, or items between bars with blanks around them. -/
def Listed (IsItem : List Char → Prop) (text : List Char) : Prop :=
  (∀ c ∈ text, Text.isBlank c = true) ∨
    ∃ parts, text = List.intercalate ['|'] parts ∧ ∀ part ∈ parts, ∃ before item after,
      part = before ++ item ++ after ∧ (∀ c ∈ before, Text.isBlank c = true) ∧
        (∀ c ∈ after, Text.isBlank c = true) ∧ IsItem item

/-- A number behind `0x` is one of a byte. -/
theorem byte_of_denoted {digits : List Char} {bits : UInt8}
    (read : (Text.hexNumber? digits >>= fun value =>
      if value < 256 then some (UInt8.ofNat value) else none) = some bits) :
    ∃ value, Text.hexNumber? digits = some value ∧ value < 256 ∧ bits = UInt8.ofNat value := by
  obtain ⟨value, denotes, read⟩ := Option.bind_eq_some_iff.mp read
  split at read
  next small => exact ⟨value, denotes, small, (Option.some.inj read).symm⟩
  next => cases read

/-- What is read as an item is one. -/
theorem item_of_itemBits? {item : List Char} {bits : UInt8}
    (read : itemBits? kind item = some bits) : Item kind item bits := by
  unfold itemBits? at read
  split at read
  next digits =>
    dsimp only at read
    split at read
    next digits =>
      obtain ⟨value, denotes, small, rfl⟩ := byte_of_denoted read
      exact .number (.inr rfl) denotes small
    next =>
      obtain ⟨value, denotes, small, rfl⟩ := byte_of_denoted read
      exact .number (.inl rfl) denotes small
  next =>
    obtain ⟨entry, found, rfl⟩ := Option.map_eq_some_iff.mp read
    have same : entry.1.toList = item := by simpa using List.find?_some found
    rw [← same]
    exact .name (List.mem_of_find?_eq_some found)

/-- Hexadecimal digits are neither blank nor a bar. -/
theorem solid_of_hexValue? {c : Char} (digit : (Text.hexValue? c).isSome = true) :
    c ≠ '|' ∧ Text.isBlank c = false := by
  have range : 48 ≤ c.toNat ∧ c.toNat ≤ 57 ∨ 97 ≤ c.toNat ∧ c.toNat ≤ 102 ∨
      65 ≤ c.toNat ∧ c.toNat ≤ 70 := by
    unfold Text.hexValue? at digit
    split at digit
    next decimal => exact .inl decimal
    split at digit
    next lower => exact .inr (.inl lower)
    split at digit
    next upper => exact .inr (.inr upper)
    next => cases digit
  constructor
  · rintro rfl
    revert range
    decide
  · unfold Text.isBlank
    simp only [Bool.or_eq_false_iff, Bool.and_eq_false_iff, decide_eq_false_iff_not,
      beq_eq_false_iff_ne]
    omega

/-- An item is not empty, and has no blanks and no bars. -/
theorem Item.solid {item : List Char} {bits : UInt8} (isItem : Item kind item bits) :
    item ≠ [] ∧ ∀ c ∈ item, c ≠ '|' ∧ Text.isBlank c = false := by
  cases isItem with
  | @name entry named =>
      have all : ∀ entry ∈ kind.table, entry.1.toList ≠ [] ∧
          (entry.1.toList.all fun c => c ≠ '|' ∧ Text.isBlank c = false) = true := by
        cases kind <;> decide
      obtain ⟨notEmpty, solid⟩ := all entry named
      exact ⟨notEmpty, fun c mem => of_decide_eq_true (List.all_eq_true.mp solid c mem)⟩
  | @number sign digits value signed denotes small =>
      obtain ⟨-, proper⟩ := Text.isSome_hexValue?_of_hexNumber? denotes
      refine ⟨by simp, ?_⟩
      rw [List.forall_mem_cons, List.forall_mem_cons, List.forall_mem_append]
      refine ⟨by decide, by decide, ?_, fun c mem => solid_of_hexValue? (proper c mem)⟩
      rcases signed with rfl | rfl
      · exact List.forall_mem_nil _
      · exact List.forall_mem_singleton.mpr (by decide)

/-- **A list is told from its parts**, if no item has blanks or bars. -/
theorem listed_iff {IsItem : List Char → Prop} (solid : ∀ item, IsItem item →
    item ≠ [] ∧ ∀ c ∈ item, c ≠ '|' ∧ Text.isBlank c = false) (text : List Char) :
    Listed IsItem text ↔ (∀ c ∈ text, Text.isBlank c = true) ∨
      ∀ part ∈ Text.splitAt '|' text, IsItem (Text.trimBlank part) := by
  constructor
  · rintro (blank | ⟨parts, rfl, items⟩)
    · exact .inl blank
    · by_cases none : parts = []
      · subst none
        exact .inl (List.forall_mem_nil _)
      · have notBar : ∀ c, Text.isBlank c = true → c ≠ '|' := by
          rintro c blank rfl
          cases blank
        have apart : ∀ part ∈ parts, ∀ c ∈ part, c ≠ '|' := by
          intro part mem
          obtain ⟨before, item, after, rfl, blankBefore, blankAfter, isItem⟩ := items part mem
          rw [List.forall_mem_append, List.forall_mem_append]
          exact ⟨⟨fun c mem => notBar c (blankBefore c mem), fun c mem =>
            ((solid item isItem).2 c mem).1⟩, fun c mem => notBar c (blankAfter c mem)⟩
        refine .inr fun part mem => ?_
        rw [Text.splitAt_intercalate none apart] at mem
        obtain ⟨before, item, after, rfl, blankBefore, blankAfter, isItem⟩ := items part mem
        obtain ⟨inhabited, plain⟩ := solid item isItem
        obtain ⟨c, tail, rfl⟩ := List.exists_cons_of_ne_nil inhabited
        rw [List.append_assoc, Text.trimBlank_blanks blankBefore,
          Text.trimBlank_append (fun c mem => (plain c mem).2) blankAfter]
        exact isItem
  · rintro (blank | items)
    · exact .inl blank
    · refine .inr ⟨_, (Text.intercalate_splitAt '|' text).symm, fun part mem => ?_⟩
      obtain ⟨before, after, around, blankBefore, blankAfter⟩ := Text.exists_eq_trimBlank part
      exact ⟨before, _, after, around, blankBefore, blankAfter, items part mem⟩

/-- **A text that is read as a flag set is blank or a list of items.** -/
theorem listed_of_parse? {text : String} {flags : Flags kind}
    (read : parse? kind text = some flags) :
    Listed (fun item => ∃ bits, Item kind item bits) text.toList := by
  unfold parse? at read
  dsimp only at read
  by_cases blank : (Text.trimBlank text.toList).isEmpty = true
  · exact .inl ((Text.isEmpty_trimBlank_iff _).mp blank)
  · rw [if_neg blank] at read
    obtain ⟨values, readAll, -⟩ := Option.bind_eq_some_iff.mp read
    refine (listed_iff (fun _ ⟨_, isItem⟩ => isItem.solid) _).mpr (.inr fun part mem => ?_)
    obtain ⟨bits, isItem⟩ := exists_of_mapM readAll _ (List.mem_map_of_mem mem)
    exact ⟨bits, item_of_itemBits? isItem⟩

/-! ### The round trip -/

/-- A name is read as its bit. -/
theorem itemBits?_name : ∀ {kind : FlagKind}, ∀ entry ∈ kind.table,
    itemBits? kind entry.1.toList = some entry.2 := by
  intro kind
  cases kind <;> decide

/-- What follows the mark of a number. -/
theorem itemBits?_hex (kind : FlagKind) (digits : List Char) :
    itemBits? kind ('0' :: 'x' :: digits) =
      (Text.hexNumber? (match digits with
        | '+' :: digits => digits
        | digits => digits) >>= fun value =>
          if value < 256 then some (UInt8.ofNat value) else none) := rfl

/-- Bits without a name are read from their digits. -/
theorem itemBits?_number (kind : FlagKind) {bits : UInt8} (nonzero : bits ≠ 0) :
    itemBits? kind ("0x" ++ Text.hexText bits.toNat).toList = some bits := by
  have positive : 0 < bits.toNat := by
    refine Nat.pos_of_ne_zero fun zero => nonzero ?_
    exact UInt8.toNat_inj.mp zero
  obtain ⟨digit, rest, isFirst, -, small⟩ := Text.toDigits_eq_cons 16 (by decide) positive
  have unsigned : Nat.digitChar digit ≠ '+' := by
    have all : ∀ digit < 16, Nat.digitChar digit ≠ '+' := by decide
    exact all digit small
  have denotes := Text.hexNumber?_toDigits bits.toNat
  have fits : bits.toNat < 256 := bits.toNat_lt
  have written : ("0x" ++ Text.hexText bits.toNat).toList =
      '0' :: 'x' :: Nat.toDigits 16 bits.toNat := by
    simp [Text.hexText]
  rw [written, itemBits?_hex]
  rw [isFirst] at denotes ⊢
  split
  next same =>
    rw [List.cons.injEq] at same
    exact absurd same.1 unsigned
  next =>
    rw [denotes]
    show (if bits.toNat < 256 then some (UInt8.ofNat bits.toNat) else none) = _
    rw [if_pos fits, UInt8.ofNat_toNat]

/-- The bits that the items of a flag set stand for. -/
def values (flags : Flags kind) : List UInt8 :=
  (kind.table.filter fun entry => flags.contains ⟨entry.2⟩).map Prod.snd
    ++ if flags.unnamed = 0 then [] else [flags.unnamed]

/-- The items that a flag set is written as are read as its bits. -/
theorem mapM_itemBits?_items (flags : Flags kind) :
    (flags.items.map String.toList).mapM (itemBits? kind) = some flags.values := by
  have names : (flags.names.map String.toList).mapM (itemBits? kind) =
      some ((kind.table.filter fun entry => flags.contains ⟨entry.2⟩).map Prod.snd) := by
    rw [names, List.map_map, List.mapM_map]
    exact mapM_eq_some_map fun entry mem => itemBits?_name entry (List.mem_filter.mp mem).1
  rw [items, List.map_append, List.mapM_append, names, values]
  by_cases none : flags.unnamed = 0
  · rw [if_pos none, if_pos none]
    rfl
  · have number := itemBits?_number kind none
    rw [if_neg none, if_neg none, List.map_singleton, List.mapM_cons, number]
    rfl

/-- The bits with a name and those without one make up the set. -/
theorem foldl_values (flags : Flags kind) : flags.values.foldl (· ||| ·) 0 = flags.bits := by
  have all : ∀ number < 256,
      (⟨UInt8.ofNat number⟩ : Flags kind).values.foldl (· ||| ·) 0 = UInt8.ofNat number := by
    cases kind <;> decide +kernel
  have same := all flags.bits.toNat flags.bits.toNat_lt
  rwa [UInt8.ofNat_toNat] at same

/-- **A flag set is read back from its text**, also if it has bits without a name. -/
theorem parse?_text (flags : Flags kind) : parse? kind flags.text = some flags := by
  have read := mapM_itemBits?_items flags
  have whole := foldl_values flags
  have solid : ∀ item ∈ flags.items.map String.toList,
      item ≠ [] ∧ ∀ c ∈ item, c ≠ '|' ∧ Text.isBlank c = false := by
    intro item mem
    obtain ⟨bits, isItem⟩ := exists_of_mapM read item mem
    exact (item_of_itemBits? isItem).solid
  have written : flags.text.toList =
      List.intercalate [' ', '|', ' '] (flags.items.map String.toList) :=
    String.toList_intercalate
  unfold parse?
  rw [written]
  generalize flags.items.map String.toList = items at read solid
  cases items with
  | nil =>
      rw [← Option.some.inj read] at whole
      have zero : flags = empty := by
        obtain ⟨bits⟩ := flags
        exact congrArg Flags.mk whole.symm
      rw [zero]
      rfl
  | cons item items =>
      have found := Text.map_trimBlank_splitAt (List.cons_ne_nil item items) solid
      -- the text is not blank, because its first item is not
      have notBlank : ¬(Text.trimBlank
          (List.intercalate [' ', '|', ' '] (item :: items))).isEmpty = true := by
        obtain ⟨inhabited, plain⟩ := solid item List.mem_cons_self
        obtain ⟨c, tail, rfl⟩ := List.exists_cons_of_ne_nil inhabited
        obtain ⟨rest, joined⟩ :=
          Json.intercalate_cons_eq_append [' ', '|', ' '] (c :: tail) items
        rw [joined, Text.isEmpty_trimBlank_iff]
        intro blank
        have isC := blank c (List.mem_append_left _ List.mem_cons_self)
        rw [(plain c List.mem_cons_self).2] at isC
        cases isC
      dsimp only
      rw [if_neg notBlank, found, read]
      show some (⟨flags.values.foldl (· ||| ·) 0⟩ : Flags kind) = _
      rw [whole]

end Flags

/-! ### Identities -/

namespace ModuleId

/-- The last hexadecimal digits of a number are read as its remainder. -/
theorem foldlM_nibbles (count number : Nat) :
    ((List.range count).map fun i =>
      Nat.digitChar (number >>> (4 * (count - 1 - i)) % 16)).foldlM
        (fun value c => (Text.hexValue? c).map (16 * value + ·)) 0 =
      some (number % 16 ^ count) := by
  induction count generalizing number with
  | zero => simp [Nat.mod_one]
  | succ count ih =>
      have front : (List.range count).map (fun i =>
          Nat.digitChar (number >>> (4 * (count + 1 - 1 - i)) % 16)) =
          (List.range count).map fun i =>
            Nat.digitChar ((number / 16) >>> (4 * (count - 1 - i)) % 16) := by
        refine List.map_congr_left fun i mem => ?_
        have inside := List.mem_range.mp mem
        have shift : 4 * (count + 1 - 1 - i) = 4 + 4 * (count - 1 - i) := by omega
        rw [shift, Nat.shiftRight_add, Nat.shiftRight_eq_div_pow number 4]
      have last : Text.hexValue? (Nat.digitChar (number % 16)) = some (number % 16) :=
        Text.hexValue?_digitChar _ (Nat.mod_lt _ (by decide))
      have parts : number % 16 ^ (count + 1) =
          16 * (number / 16 % 16 ^ count) + number % 16 := by
        rw [Nat.pow_succ', Nat.mod_mul, Nat.add_comm]
      rw [List.range_succ, List.map_append, front, List.foldlM_append, ih, List.map_singleton,
        Nat.add_sub_cancel, Nat.sub_self, Nat.mul_zero, Nat.shiftRight_zero, parts]
      simp [last]

/-- An identity has as many digits as it has groups of four bits. -/
theorem length_digits (id : ModuleId) : id.digits.length = 32 := by
  rw [digits, List.length_map, List.length_range]

/-- An identity is read from its digits. -/
theorem ofDigits?_digits (id : ModuleId) : ofDigits? id.digits = some id := by
  have inhabited : ¬id.digits.isEmpty = true := by
    rw [List.isEmpty_iff_length_eq_zero, length_digits]
    decide
  rw [ofDigits?, if_pos id.length_digits, Text.hexNumber?, if_neg inhabited, digits]
  have read := foldlM_nibbles 32 id.bits.toNat
  have small : id.bits.toNat % 16 ^ 32 = id.bits.toNat := Nat.mod_eq_of_lt id.bits.isLt
  rw [small] at read
  refine (congrArg (Option.map fun value => (⟨BitVec.ofNat 128 value⟩ : ModuleId)) read).trans ?_
  rw [Option.map_some, BitVec.ofNat_toNat, BitVec.setWidth_eq]

/-- Hyphens are removed from where they have been put. -/
theorem unhyphenate?_hyphenate {sizes : List Nat} {digits : List Char}
    (enough : sizes.sum ≤ digits.length) :
    unhyphenate? sizes (hyphenate sizes digits) = some digits := by
  induction sizes generalizing digits with
  | nil => rfl
  | cons size sizes ih =>
      cases sizes with
      | nil => rfl
      | cons next sizes =>
          rw [List.sum_cons] at enough
          have taken : (digits.take size).length = size := List.length_take_of_le (by omega)
          have others :
              unhyphenate? (next :: sizes) (hyphenate (next :: sizes) (digits.drop size)) =
                some (digits.drop size) := ih (by rw [List.length_drop]; omega)
          rw [hyphenate, unhyphenate?, List.drop_left' taken]
          · show (unhyphenate? (next :: sizes) _).map _ = _
            rw [others, Option.map_some, List.take_left' taken, List.take_append_drop]
          · exact List.cons_ne_nil _ _
          · exact List.cons_ne_nil _ _

/-- There is one hyphen between two groups. -/
theorem length_hyphenate (sizes : List Nat) (digits : List Char) :
    (hyphenate sizes digits).length = digits.length + (sizes.length - 1) := by
  induction sizes generalizing digits with
  | nil => rfl
  | cons size sizes ih =>
      cases sizes with
      | nil => rfl
      | cons next sizes =>
          rw [hyphenate, List.length_append, List.length_cons, ih, List.length_take,
            List.length_drop]
          · simp only [List.length_cons]
            omega
          · exact List.cons_ne_nil _ _

/-- The digits of an identity and the hyphens between their groups. -/
theorem length_toList_text (id : ModuleId) : id.text.toList.length = 36 := by
  rw [text, String.toList_ofList, length_hyphenate, length_digits]
  rfl

/-- **An identity is read back from its text.** -/
theorem parse?_text (id : ModuleId) : parse? id.text = some id := by
  have grouped : ofGroups? id.text.toList = some id := by
    rw [ofGroups?, text, String.toList_ofList,
      unhyphenate?_hyphenate (by rw [length_digits]; decide), Option.bind_some, ofDigits?_digits]
  rw [parse?, length_toList_text, if_neg (by decide), if_pos rfl, grouped]

end ModuleId

end ScopeMachine
