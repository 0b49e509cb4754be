import Mathlib.Algebra.Group.Nat.Defs
import ScopeMachine.Json.Reader
import ScopeMachine.Json.Writer

/-! # Reading what is written

A JSON value is read back from both of its written forms, whatever follows it and whatever blanks
stand before it, as long as it can be written at all: numbers that are kept as they are written and
texts that name no characters have no written form of their own.

* `Json.Exact` holds of the values that can be written;
* `Json.Spelled` says that characters are read as a value, and there is one lemma for each way of
  putting spelled values together;
* `Json.parse?_compact` and `Json.parse?_pretty` are the two written forms. -/

namespace ScopeMachine

/-! ### Digits -/

namespace Text

/-- The digits of a number are read as the number, in any base whose digits are read. -/
theorem foldlM_toDigits {base : Nat} {digit? : Char → Option Nat} (proper : 1 < base)
    (reads : ∀ digit < base, digit? (Nat.digitChar digit) = some digit) (number : Nat) :
    (Nat.toDigits base number).foldlM
      (fun value c => (digit? c).map (base * value + ·)) 0 = some number := by
  induction number using Nat.strongRecOn with
  | ind number ih =>
      rw [Nat.toDigits_eq_if proper]
      by_cases single : number < base
      · rw [if_pos single]
        simp [reads number single]
      · have smaller : number / base < number :=
          Nat.div_lt_self (by omega) proper
        have last : number % base < base := Nat.mod_lt _ (by omega)
        rw [if_neg single, List.foldlM_append, ih _ smaller]
        simp [reads _ last, Nat.div_add_mod]

/-- A decimal digit is read as its value. -/
theorem digitValue?_digitChar : ∀ digit < 10, digitValue? (Nat.digitChar digit) = some digit := by
  decide

/-- A hexadecimal digit is read as its value. -/
theorem hexValue?_digitChar : ∀ digit < 16, hexValue? (Nat.digitChar digit) = some digit := by
  decide

/-- The decimal digits of a number are read as the number. -/
theorem natural?_toDigits (number : Nat) : natural? (Nat.toDigits 10 number) = some number := by
  rw [natural?, if_neg (by simp [Nat.toDigits_ne_nil])]
  exact foldlM_toDigits (by decide) digitValue?_digitChar number

/-- The hexadecimal digits of a number are read as the number. -/
theorem hexNumber?_toDigits (number : Nat) : hexNumber? (Nat.toDigits 16 number) = some number := by
  rw [hexNumber?, if_neg (by simp [Nat.toDigits_ne_nil])]
  exact foldlM_toDigits (by decide) hexValue?_digitChar number

/-- The digits of a positive number start with a positive digit. -/
theorem toDigits_eq_cons (base : Nat) {number : Nat} (proper : 1 < base) (positive : 0 < number) :
    ∃ digit rest, Nat.toDigits base number = Nat.digitChar digit :: rest ∧ 0 < digit ∧
      digit < base := by
  induction number using Nat.strongRecOn with
  | ind number ih =>
      rw [Nat.toDigits_eq_if proper]
      by_cases single : number < base
      · rw [if_pos single]
        exact ⟨number, [], rfl, positive, single⟩
      · have remains : 0 < number / base := Nat.div_pos (by omega) (by omega)
        obtain ⟨digit, rest, isFirst, bounds⟩ :=
          ih _ (Nat.div_lt_self positive proper) remains
        rw [if_neg single, isFirst]
        exact ⟨digit, _, rfl, bounds⟩

end Text

namespace Json

/-! ### Blanks -/

/-- Whether a character is one that values may be separated by. -/
def isBlank (c : Char) : Bool := c = ' ' || c = '\n' || c = '\t' || c = '\r'

/-- Blanks in front are dropped. -/
theorem skipBlanks_append {blanks : List Char} (blank : ∀ c ∈ blanks, isBlank c = true)
    (chars : List Char) : skipBlanks (blanks ++ chars) = skipBlanks chars := by
  induction blanks with
  | nil => rfl
  | cons c blanks ih =>
      have isC : isBlank c = true := blank c List.mem_cons_self
      have rest : ∀ c ∈ blanks, isBlank c = true :=
        fun c mem => blank c (List.mem_cons_of_mem _ mem)
      show (c :: (blanks ++ chars)).dropWhile isBlank = _
      rw [List.dropWhile_cons_of_pos isC]
      exact ih rest

/-- Nothing is dropped before a character that is not blank. -/
theorem skipBlanks_cons {c : Char} (notBlank : isBlank c = false) (chars : List Char) :
    skipBlanks (c :: chars) = c :: chars := by
  show (c :: chars).dropWhile isBlank = _
  exact List.dropWhile_cons_of_neg (by rw [notBlank]; decide)

/-! ### Texts -/

/-- A control character is read from its four digits. -/
theorem hex4?_hexDigits4 : ∀ code < 32, Text.hexNumber? (hexDigits4 code) = some code := by
  decide

/-- A character is read from the way it is written. -/
theorem readUnits?_escapeChar (fuel : Nat) (units : List TextUnit) (c : Char) (rest : List Char) :
    readUnits? (fuel + 1) units (escapeChar c ++ rest) =
      readUnits? fuel (.char c :: units) rest := by
  unfold escapeChar
  split
  next isC => subst isC; rfl
  split
  next isC => subst isC; rfl
  split
  next isC => subst isC; rfl
  split
  next isC => subst isC; rfl
  split
  next isC => subst isC; rfl
  split
  next isC => subst isC; rfl
  split
  next isC => subst isC; rfl
  split
  next control =>
    have read : hex4? (hexDigits4 c.toNat ++ rest) = some (c.toNat, rest) := by
      show (Text.hexNumber? (hexDigits4 c.toNat)).map (fun value => (value, rest)) = _
      rw [hex4?_hexDigits4 _ control]
      rfl
    have unit : TextUnit.ofCode c.toNat = .char c := by
      rw [TextUnit.ofCode, if_neg (by omega), if_neg (by omega), Char.ofNat_toNat]
    show (hex4? (hexDigits4 c.toNat ++ rest) >>= _) = _
    rw [read]
    show readUnits? fuel (.ofCode c.toNat :: units) rest = _
    rw [unit]
  next notQuote notBackslash _ _ _ _ _ notControl =>
    rw [List.singleton_append, readUnits?, if_neg (by simp [notBackslash, notControl])]
    · exact notQuote
    · exact fun _ isU _ => notBackslash isU
    · exact fun _ _ isC _ => notBackslash isC

/-- A text is read from the way it is written. -/
theorem readUnits?_flatMap {chars : List Char} {fuel : Nat}
    (enough : (chars.flatMap escapeChar).length < fuel) (units : List TextUnit)
    (rest : List Char) :
    readUnits? fuel units (chars.flatMap escapeChar ++ '"' :: rest) =
      some (units.reverse ++ chars.map .char, rest) := by
  induction chars generalizing fuel units with
  | nil =>
      obtain ⟨fuel, rfl⟩ : ∃ less, fuel = less + 1 := ⟨fuel - 1, by simp at enough; omega⟩
      simp [readUnits?]
  | cons c chars ih =>
      have written : 0 < (escapeChar c).length := by
        unfold escapeChar
        repeat' split
        all_goals simp
      rw [List.flatMap_cons, List.length_append] at enough
      obtain ⟨fuel, rfl⟩ : ∃ less, fuel = less + 1 := ⟨fuel - 1, by omega⟩
      rw [List.flatMap_cons, List.append_assoc, readUnits?_escapeChar, ih (by omega)]
      simp

/-- Characters that stand for themselves are joined as they are. -/
theorem joinUnits?_map_char (chars : List Char) : joinUnits? (chars.map .char) = some chars := by
  induction chars with
  | nil => rfl
  | cons c chars ih => rw [List.map_cons, joinUnits?, ih, Option.map_some]

/-- The characters between the quotes of a written text. -/
theorem toList_quote (text : String) :
    (quote text).toList = '"' :: (text.toList.flatMap escapeChar ++ ['"']) := by
  rw [quote, String.toList_ofList]

/-- A text is read up to its closing quote. -/
theorem readText?_quote {text : String} {fuel : Nat}
    (enough : (quote text).toList.length ≤ fuel + 1) (rest : List Char) :
    readText? fuel (text.toList.flatMap escapeChar ++ '"' :: rest) = some (some text, rest) := by
  rw [toList_quote, List.length_cons, List.length_append, List.length_singleton] at enough
  rw [readText?, readUnits?_flatMap (by omega)]
  show some ((joinUnits? (text.toList.map .char)).map String.ofList, rest) = _
  rw [joinUnits?_map_char, Option.map_some, String.ofList_toList]

/-! ### Numbers -/

/-- What follows does not go on with a number. -/
def Ends (rest : List Char) : Prop :=
  ∀ c ∈ rest.head?, c.isDigit = false ∧ c ≠ '.' ∧ c ≠ 'e' ∧ c ≠ 'E'

/-- The digits of a number are taken as a whole. -/
theorem spanDigits_append {digits rest : List Char} (proper : ∀ c ∈ digits, c.isDigit = true)
    (ends : Ends rest) : spanDigits (digits ++ rest) = (digits, rest) := by
  have stops : rest.takeWhile Char.isDigit = [] ∧ rest.dropWhile Char.isDigit = rest := by
    cases rest with
    | nil => exact ⟨rfl, rfl⟩
    | cons c rest =>
        have notDigit : ¬c.isDigit = true := by
          rw [(ends c rfl).1]
          decide
        exact ⟨List.takeWhile_cons_of_neg notDigit, List.dropWhile_cons_of_neg notDigit⟩
  rw [spanDigits, List.takeWhile_append_of_pos proper, List.dropWhile_append_of_pos proper,
    stops.1, stops.2, List.append_nil]

/-- The digits of a natural number are read as they are. -/
theorem readWhole?_toDigits (number : Nat) {rest : List Char} (ends : Ends rest) :
    readWhole? (Nat.toDigits 10 number ++ rest) = some (Nat.toDigits 10 number, rest) := by
  have proper : ∀ c ∈ Nat.toDigits 10 number, c.isDigit = true := fun c =>
    Nat.isDigit_of_mem_toDigits (by decide) (by decide)
  rw [readWhole?, spanDigits_append proper ends]
  by_cases zero : number = 0
  · subst zero
    rfl
  · -- only zero itself starts with a zero
    obtain ⟨digit, tail, isFirst, positive, small⟩ :=
      Text.toDigits_eq_cons 10 (by decide) (Nat.pos_of_ne_zero zero)
    have notZero : Nat.digitChar digit ≠ '0' := by
      have : ∀ digit < 10, 0 < digit → Nat.digitChar digit ≠ '0' := by decide
      exact this digit small positive
    rw [isFirst]
    split
    next same => cases same
    next same =>
      rw [Prod.mk.injEq, List.cons.injEq] at same
      exact absurd same.1.1 notZero
    next same => rw [same]

/-- A whole number is read up to what follows it. -/
theorem readNumber?_toDigits (negative : Bool) (number : Nat) {rest : List Char}
    (ends : Ends rest) :
    readNumber? negative (Nat.toDigits 10 number ++ rest) =
      some (ofWhole negative (Nat.toDigits 10 number), rest) := by
  have fraction : readFraction? rest = some ([], rest) := by
    unfold readFraction?
    split
    next => exact absurd rfl (ends '.' rfl).2.1
    next => rfl
  have exponent : readExponent? rest = some ([], rest) := by
    cases rest with
    | nil => rfl
    | cons c rest =>
        obtain ⟨-, -, notE, notE'⟩ := ends c rfl
        rw [readExponent?.eq_def]
        exact if_neg (by simp [notE, notE'])
  rw [readNumber?, readWhole?_toDigits number ends]
  show (readFraction? rest >>= _) = _
  rw [fraction]
  show (readExponent? rest >>= _) = _
  rw [exponent]
  rfl

/-- A number that fits 64 bits is told from its digits. -/
theorem ofWhole_toDigits {negative : Bool} {number : Nat}
    (nonzero : negative = true → 0 < number ∧ number ≤ 2 ^ 63)
    (fits : negative = false → number < UInt64.size) :
    ofWhole negative (Nat.toDigits 10 number) =
      .int (if negative = true then -(number : Int) else number) := by
  have least : Int64.minValue.toInt = -9223372036854775808 := by decide
  have most : UInt64.size = 18446744073709551616 := rfl
  unfold ofWhole
  rw [Text.natural?_toDigits, Option.getD_some, least]
  cases negative with
  | true =>
      obtain ⟨positive, small⟩ := nonzero rfl
      rw [if_neg]
      simp only [if_true, Bool.true_and, Bool.or_eq_true, decide_eq_true_eq]
      omega
  | false =>
      have small := fits rfl
      rw [if_neg]
      simp only [Bool.false_and, Bool.false_eq_true, if_false, Bool.or_eq_true,
        decide_eq_true_eq, false_or]
      omega

/-! ### Spelled values -/

/-- The values that have a written form of their own. -/
inductive Exact : Json → Prop
  /-- Null. -/
  | null : Exact null
  /-- A truth value. -/
  | bool (value : Bool) : Exact (bool value)
  /-- An integer of 64 bits, signed or unsigned. -/
  | int {value : Int} (least : Int64.minValue.toInt ≤ value) (fits : value < UInt64.size) :
      Exact (int value)
  /-- A text. -/
  | str (text : String) : Exact (str text)
  /-- An array of such values. -/
  | arr {items : List Json} (exact : ∀ item ∈ items, Exact item) : Exact (arr items)
  /-- An object of such values. -/
  | obj {fields : List (String × Json)} (exact : ∀ field ∈ fields, Exact field.2) :
      Exact (obj fields)

/-- Characters that are read as a value, whatever blanks stand before them and whatever follows that
does not go on with a number. -/
structure Spelled (json : Json) (chars : List Char) : Prop where
  /-- They do not start with a blank or a closing bracket. -/
  first : ∃ c rest, chars = c :: rest ∧ isBlank c = false ∧ c ≠ ']'
  /-- They are read as the value. -/
  read : ∀ (fuel : Nat) (blanks rest : List Char), chars.length < fuel →
    (∀ c ∈ blanks, isBlank c = true) → Ends rest →
    readValue? fuel (blanks ++ chars ++ rest) = some (json, rest)

/-- A value is spelled if it is read from its first character on. -/
theorem spelled_of_cons {json : Json} {c : Char} {chars : List Char}
    (first : isBlank c = false ∧ c ≠ ']')
    (read : ∀ {fuel : Nat} {rest : List Char}, chars.length < fuel → Ends rest →
      readValue? (fuel + 1) (c :: (chars ++ rest)) = some (json, rest)) :
    Spelled json (c :: chars) := by
  refine ⟨⟨c, chars, rfl, first⟩, fun fuel blanks rest enough blank ends => ?_⟩
  obtain ⟨fuel, rfl⟩ : ∃ less, fuel = less + 1 := ⟨fuel - 1, by omega⟩
  rw [List.append_assoc, List.cons_append, readValue?, skipBlanks_append blank]
  have whole : readValue? (fuel + 1) (c :: (chars ++ rest)) = some (json, rest) :=
    read (by simpa using enough) ends
  rwa [readValue?] at whole

/-- Null. -/
theorem spelled_null : Spelled null "null".toList := by
  refine spelled_of_cons ⟨by decide, by decide⟩ fun _ _ => ?_
  rfl

/-- Truth values. -/
theorem spelled_bool (value : Bool) :
    Spelled (bool value) (if value then "true" else "false" : String).toList := by
  cases value with
  | true => exact spelled_of_cons ⟨by decide, by decide⟩ fun _ _ => rfl
  | false => exact spelled_of_cons ⟨by decide, by decide⟩ fun _ _ => rfl

/-- Texts. -/
theorem spelled_str (text : String) : Spelled (str text) (quote text).toList := by
  have written := toList_quote text
  rw [written]
  refine spelled_of_cons ⟨by decide, by decide⟩ fun {fuel rest} enough _ => ?_
  have read : readText? fuel (text.toList.flatMap escapeChar ++ ['"'] ++ rest) =
      some (some text, rest) := by
    rw [List.append_assoc, List.singleton_append]
    refine readText?_quote ?_ rest
    rw [written, List.length_cons]
    omega
  rw [readValue?, skipBlanks_cons (by decide)]
  show (readText? fuel (text.toList.flatMap escapeChar ++ ['"'] ++ rest) >>= _) = _
  rw [read]
  rfl

/-- A value that starts with a digit is a number. -/
theorem readValue?_digit (fuel : Nat) {digit : Nat} (small : digit < 10) (rest : List Char) :
    readValue? (fuel + 1) (Nat.digitChar digit :: rest) =
      readNumber? false (Nat.digitChar digit :: rest) := by
  match digit, small with
  | 0, _ | 1, _ | 2, _ | 3, _ | 4, _ | 5, _ | 6, _ | 7, _ | 8, _ | 9, _ => rfl

/-- The digits of a number start with a digit. -/
theorem toDigits_eq_digitChar_cons (number : Nat) :
    ∃ digit rest, Nat.toDigits 10 number = Nat.digitChar digit :: rest ∧ digit < 10 := by
  by_cases zero : number = 0
  · exact ⟨0, [], by rw [zero]; rfl, by decide⟩
  · obtain ⟨digit, rest, isFirst, -, small⟩ :=
      Text.toDigits_eq_cons 10 (by decide) (Nat.pos_of_ne_zero zero)
    exact ⟨digit, rest, isFirst, small⟩

/-- Natural numbers. -/
theorem spelled_natural {number : Nat} (fits : number < UInt64.size) :
    Spelled (int number) (Nat.toDigits 10 number) := by
  have whole : ofWhole false (Nat.toDigits 10 number) = .int number :=
    ofWhole_toDigits (fun absurd => by cases absurd) fun _ => fits
  obtain ⟨digit, tail, isFirst, small⟩ := toDigits_eq_digitChar_cons number
  have first : isBlank (Nat.digitChar digit) = false ∧ Nat.digitChar digit ≠ ']' := by
    have : ∀ digit < 10, isBlank (Nat.digitChar digit) = false ∧ Nat.digitChar digit ≠ ']' := by
      decide
    exact this digit small
  rw [isFirst]
  refine spelled_of_cons first fun {fuel rest} _ ends => ?_
  rw [readValue?_digit fuel small, ← List.cons_append, ← isFirst, readNumber?_toDigits _ _ ends,
    whole]

/-- Integers. -/
theorem spelled_int {value : Int} (least : Int64.minValue.toInt ≤ value)
    (fits : value < UInt64.size) : Spelled (int value) value.repr.toList := by
  have minimum : Int64.minValue.toInt = -9223372036854775808 := by decide
  cases value with
  | ofNat number =>
      show Spelled _ number.repr.toList
      rw [Nat.toList_repr]
      exact spelled_natural (Int.ofNat_lt.mp fits)
  | negSucc number =>
      have whole : ofWhole true (Nat.toDigits 10 (number + 1)) = .int (Int.negSucc number) :=
        ofWhole_toDigits (fun _ => ⟨by omega, by omega⟩) fun absurd => by cases absurd
      show Spelled _ ("-" ++ (number + 1).repr).toList
      rw [String.toList_append, Nat.toList_repr]
      refine spelled_of_cons ⟨by decide, by decide⟩ fun {fuel rest} _ ends => ?_
      show readNumber? true (Nat.toDigits 10 (number + 1) ++ rest) = _
      rw [readNumber?_toDigits _ _ ends, whole]

/-! ### Arrays and objects -/

/-- A blank, a comma or a closing bracket does not go on with a number. -/
theorem ends_cons {c : Char} (notNumber : c.isDigit = false ∧ c ≠ '.' ∧ c ≠ 'e' ∧ c ≠ 'E')
    (rest : List Char) : Ends (c :: rest) := by
  intro first isFirst
  cases isFirst
  exact notNumber

/-- Neither do blanks before such a character. -/
theorem ends_append {blanks rest : List Char} (blank : ∀ c ∈ blanks, isBlank c = true)
    (ends : Ends rest) : Ends (blanks ++ rest) := by
  cases blanks with
  | nil => exact ends
  | cons c blanks =>
      refine ends_cons ?_ _
      have isC := blank c List.mem_cons_self
      simp only [isBlank, Bool.or_eq_true, decide_eq_true_eq] at isC
      rcases isC with ((rfl | rfl) | rfl) | rfl <;> decide

section
variable {between close : List Char} (blankBetween : ∀ c ∈ between, isBlank c = true)
  (blankClose : ∀ c ∈ close, isBlank c = true)

include blankBetween blankClose

/-- Items are read one after the other, up to the closing bracket. -/
theorem readItems?_intercalate {spell : Json → List Char} {items : List Json}
    (spelled : ∀ item ∈ items, Spelled item (spell item)) (nonempty : items ≠ [])
    (fuel : Nat) (blanks rest : List Char) (read : List Json)
    (blank : ∀ c ∈ blanks, isBlank c = true)
    (enough : (List.intercalate (',' :: between) (items.map spell)).length + close.length + 2 ≤
      fuel) :
    readItems? fuel read
      (blanks ++ List.intercalate (',' :: between) (items.map spell) ++ (close ++ ']' :: rest)) =
      some (.arr (read.reverse ++ items), rest) := by
  induction items generalizing fuel blanks read with
  | nil => exact absurd rfl nonempty
  | cons item items ih =>
      obtain ⟨fuel, rfl⟩ : ∃ less, fuel = less + 1 := ⟨fuel - 1, by omega⟩
      have isItem := spelled item List.mem_cons_self
      cases items with
      | nil =>
          rw [List.map_singleton, List.intercalate_singleton] at enough ⊢
          rw [readItems?, isItem.read fuel blanks (close ++ ']' :: rest) (by omega) blank
            (ends_append blankClose (ends_cons (by decide) rest))]
          dsimp only [Option.bind_eq_bind, Option.bind_some]
          rw [skipBlanks_append blankClose, skipBlanks_cons (by decide)]
          simp
      | cons next items =>
          rw [List.map_cons, List.map_cons, List.intercalate_cons_cons, ← List.map_cons] at enough ⊢
          rw [List.length_append, List.length_append, List.length_cons] at enough
          have others := ih (fun other mem => spelled other (List.mem_cons_of_mem _ mem)) (by simp)
            fuel between (item :: read) blankBetween (by omega)
          have apart : blanks ++ (spell item ++ ',' :: between ++
              List.intercalate (',' :: between) ((next :: items).map spell)) ++
              (close ++ ']' :: rest) =
              blanks ++ spell item ++ ',' :: (between ++
                List.intercalate (',' :: between) ((next :: items).map spell) ++
                (close ++ ']' :: rest)) := by
            simp only [List.append_assoc, List.cons_append]
          rw [apart, readItems?,
            isItem.read fuel blanks _ (by omega) blank (ends_cons (by decide) _)]
          dsimp only [Option.bind_eq_bind, Option.bind_some]
          rw [skipBlanks_cons (by decide)]
          show readItems? fuel (item :: read) _ = _
          rw [others, List.reverse_cons, List.append_assoc, List.singleton_append]

end

/-- How a field is written, with blanks between the colon and the value. -/
def spellField (gap : List Char) (spell : Json → List Char) (field : String × Json) : List Char :=
  (quote field.1).toList ++ ':' :: (gap ++ spell field.2)

/-- The fields of an object, if every name names characters. -/
def named? (fields : List (Option String × Json)) : Option (List (String × Json)) :=
  fields.mapM fun field => field.1.map (·, field.2)

/-- A field is read up to what follows its value. -/
theorem readFields?_spellField {gap : List Char} {spell : Json → List Char}
    {field : String × Json} (blankGap : ∀ c ∈ gap, isBlank c = true)
    (spelled : Spelled field.2 (spell field.2)) (fuel : Nat) (blanks rest : List Char)
    (read : List (Option String × Json)) (blank : ∀ c ∈ blanks, isBlank c = true)
    (enough : (spellField gap spell field).length < fuel) (ends : Ends rest) :
    readFields? (fuel + 1) read (blanks ++ spellField gap spell field ++ rest) =
      match skipBlanks rest with
      | ',' :: rest => readFields? fuel ((some field.1, field.2) :: read) rest
      | '\x7d' :: rest =>
          some ((named? ((some field.1, field.2) :: read).reverse).elim .unreadable .obj, rest)
      | _ => none := by
  unfold spellField at enough ⊢
  rw [List.length_append, List.length_cons, List.length_append] at enough
  have text : readText? fuel (field.1.toList.flatMap escapeChar ++ '"' ::
      (':' :: (gap ++ spell field.2 ++ rest))) = some (some field.1, _) :=
    readText?_quote (by omega) _
  have value := spelled.read fuel gap rest (by omega) blankGap ends
  have apart : blanks ++ ((quote field.1).toList ++ ':' :: (gap ++ spell field.2)) ++ rest =
      blanks ++ '"' :: (field.1.toList.flatMap escapeChar ++ '"' ::
        (':' :: (gap ++ spell field.2 ++ rest))) := by
    rw [toList_quote]
    simp only [List.append_assoc, List.cons_append, List.nil_append]
  rw [apart, readFields?, skipBlanks_append blank, skipBlanks_cons (by decide)]
  show (readText? fuel _ >>= _) = _
  rw [text]
  dsimp only [Option.bind_eq_bind, Option.bind_some]
  rw [skipBlanks_cons (by decide)]
  show (readValue? fuel (gap ++ spell field.2 ++ rest) >>= _) = _
  rw [value]
  rfl

/-- The names that have been read are all there. -/
theorem named?_map (fields : List (String × Json)) :
    named? (fields.map fun field => (some field.1, field.2)) = some fields := by
  unfold named?
  induction fields with
  | nil => rfl
  | cons field fields ih => simp [ih]

section
variable {between close gap : List Char} (blankBetween : ∀ c ∈ between, isBlank c = true)
  (blankClose : ∀ c ∈ close, isBlank c = true) (blankGap : ∀ c ∈ gap, isBlank c = true)

include blankBetween blankClose blankGap

/-- Fields are read one after the other, up to the closing brace. -/
theorem readFields?_intercalate {spell : Json → List Char} {fields : List (String × Json)}
    (spelled : ∀ field ∈ fields, Spelled field.2 (spell field.2)) (nonempty : fields ≠ [])
    (fuel : Nat) (blanks rest : List Char) (read : List (String × Json))
    (blank : ∀ c ∈ blanks, isBlank c = true)
    (enough : (List.intercalate (',' :: between) (fields.map (spellField gap spell))).length +
      close.length + 2 ≤ fuel) :
    readFields? fuel (read.map fun field => (some field.1, field.2))
      (blanks ++ List.intercalate (',' :: between) (fields.map (spellField gap spell)) ++
        (close ++ '\x7d' :: rest)) =
      some (.obj (read.reverse ++ fields), rest) := by
  induction fields generalizing fuel blanks read with
  | nil => exact absurd rfl nonempty
  | cons field fields ih =>
      obtain ⟨fuel, rfl⟩ : ∃ less, fuel = less + 1 := ⟨fuel - 1, by omega⟩
      have isField := spelled field List.mem_cons_self
      cases fields with
      | nil =>
          rw [List.map_singleton, List.intercalate_singleton] at enough ⊢
          rw [readFields?_spellField blankGap isField fuel blanks _ _ blank (by omega)
            (ends_append blankClose (ends_cons (by decide) rest)),
            skipBlanks_append blankClose, skipBlanks_cons (by decide)]
          have named := named?_map (field :: read).reverse
          rw [List.map_reverse] at named
          show some ((named? (((field :: read).map fun field =>
            (some field.1, field.2)).reverse)).elim Json.unreadable Json.obj, rest) = _
          rw [named, List.reverse_cons]
          rfl
      | cons next fields =>
          rw [List.map_cons, List.map_cons, List.intercalate_cons_cons, ← List.map_cons] at enough ⊢
          rw [List.length_append, List.length_append, List.length_cons] at enough
          have others := ih (fun other mem => spelled other (List.mem_cons_of_mem _ mem)) (by simp)
            fuel between (field :: read) blankBetween (by omega)
          have apart : blanks ++ (spellField gap spell field ++ ',' :: between ++
              List.intercalate (',' :: between) ((next :: fields).map (spellField gap spell))) ++
              (close ++ '\x7d' :: rest) =
              blanks ++ spellField gap spell field ++ ',' :: (between ++
                List.intercalate (',' :: between) ((next :: fields).map (spellField gap spell)) ++
                (close ++ '\x7d' :: rest)) := by
            simp only [List.append_assoc, List.cons_append]
          rw [apart, readFields?_spellField blankGap isField fuel blanks _ _ blank (by omega)
            (ends_cons (by decide) _), skipBlanks_cons (by decide)]
          show readFields? fuel ((field :: read).map fun field => (some field.1, field.2)) _ = _
          rw [others, List.reverse_cons, List.append_assoc, List.singleton_append]

end

/-- Joined parts start with the first part. -/
theorem intercalate_cons_eq_append (separator part : List Char) (parts : List (List Char)) :
    ∃ rest, List.intercalate separator (part :: parts) = part ++ rest := by
  cases parts with
  | nil => exact ⟨[], by rw [List.intercalate_singleton, List.append_nil]⟩
  | cons next parts =>
      exact ⟨_, by rw [List.intercalate_cons_cons, List.append_assoc]⟩

/-- Parts between brackets, with commas and blanks between them; no blanks if there are no parts. -/
def bracketed (left right : Char) (between close : List Char) : List (List Char) → List Char
  | [] => [left, right]
  | part :: parts =>
      left :: (between ++ List.intercalate (',' :: between) (part :: parts) ++ (close ++ [right]))

/-- What follows the bracket of an array. -/
theorem readValue?_arr (fuel : Nat) (rest : List Char) :
    readValue? (fuel + 1) ('[' :: rest) =
      match skipBlanks rest with
      | ']' :: rest => some (arr [], rest)
      | rest => readItems? fuel [] rest := by
  rw [readValue?, skipBlanks_cons (by decide)]
  rfl

/-- What follows the bracket of an object. -/
theorem readValue?_obj (fuel : Nat) (rest : List Char) :
    readValue? (fuel + 1) ('\x7b' :: rest) =
      match skipBlanks rest with
      | '\x7d' :: rest => some (obj [], rest)
      | rest => readFields? fuel [] rest := by
  rw [readValue?, skipBlanks_cons (by decide)]
  rfl

section
variable {between close : List Char} (blankBetween : ∀ c ∈ between, isBlank c = true)
  (blankClose : ∀ c ∈ close, isBlank c = true)

include blankBetween blankClose

/-- Arrays that are not empty. -/
theorem spelled_arr_cons {spell : Json → List Char} {item : Json} {items : List Json}
    (spelled : ∀ other ∈ item :: items, Spelled other (spell other)) :
    Spelled (arr (item :: items)) ('[' :: (between ++
      List.intercalate (',' :: between) ((item :: items).map spell) ++ (close ++ [']']))) := by
  refine spelled_of_cons ⟨by decide, by decide⟩ fun {fuel rest} enough _ => ?_
  rw [List.length_append, List.length_append, List.length_append, List.length_singleton] at enough
  have readAll := readItems?_intercalate blankBetween blankClose spelled (by simp) fuel [] rest []
    (by simp) (by omega)
  have apart : between ++ List.intercalate (',' :: between) ((item :: items).map spell) ++
      (close ++ [']']) ++ rest = between ++ ([] ++
      List.intercalate (',' :: between) ((item :: items).map spell) ++ (close ++ ']' :: rest)) := by
    simp only [List.append_assoc, List.cons_append, List.nil_append]
  -- the first item starts neither with a blank nor with the bracket of an empty array
  obtain ⟨c, tail, starts, notBlank, notBracket⟩ :
      ∃ c tail, [] ++ List.intercalate (',' :: between) ((item :: items).map spell) ++
        (close ++ ']' :: rest) = c :: tail ∧ isBlank c = false ∧ c ≠ ']' := by
    obtain ⟨c, tail, isFirst, notBlank, notBracket⟩ := (spelled item List.mem_cons_self).first
    obtain ⟨others, joined⟩ :=
      intercalate_cons_eq_append (',' :: between) (spell item) (items.map spell)
    refine ⟨c, tail ++ others ++ (close ++ ']' :: rest), ?_, notBlank, notBracket⟩
    rw [List.map_cons, joined, isFirst, List.nil_append, List.cons_append, List.cons_append]
  rw [starts] at readAll
  rw [apart, starts, readValue?_arr, skipBlanks_append blankBetween, skipBlanks_cons notBlank]
  split
  next same =>
    rw [List.cons.injEq] at same
    exact absurd same.1 notBracket
  next => exact readAll

/-- Objects that are not empty. -/
theorem spelled_obj_cons {gap : List Char} (blankGap : ∀ c ∈ gap, isBlank c = true)
    {spell : Json → List Char} {field : String × Json} {fields : List (String × Json)}
    (spelled : ∀ other ∈ field :: fields, Spelled other.2 (spell other.2)) :
    Spelled (obj (field :: fields)) ('\x7b' :: (between ++
      List.intercalate (',' :: between) ((field :: fields).map (spellField gap spell)) ++
        (close ++ ['\x7d']))) := by
  refine spelled_of_cons ⟨by decide, by decide⟩ fun {fuel rest} enough _ => ?_
  rw [List.length_append, List.length_append, List.length_append, List.length_singleton] at enough
  have readAll := readFields?_intercalate blankBetween blankClose blankGap spelled (by simp) fuel []
    rest [] (by simp) (by omega)
  have apart : between ++
      List.intercalate (',' :: between) ((field :: fields).map (spellField gap spell)) ++
      (close ++ ['\x7d']) ++ rest = between ++ ([] ++
      List.intercalate (',' :: between) ((field :: fields).map (spellField gap spell)) ++
      (close ++ '\x7d' :: rest)) := by
    simp only [List.append_assoc, List.cons_append, List.nil_append]
  -- the first field starts with the quote of its name
  obtain ⟨tail, starts⟩ :
      ∃ tail, [] ++
        List.intercalate (',' :: between) ((field :: fields).map (spellField gap spell)) ++
        (close ++ '\x7d' :: rest) = '"' :: tail := by
    obtain ⟨others, joined⟩ := intercalate_cons_eq_append (',' :: between)
      (spellField gap spell field) (fields.map (spellField gap spell))
    rw [List.map_cons, joined, spellField, toList_quote]
    exact ⟨_, rfl⟩
  rw [starts] at readAll
  rw [apart, starts, readValue?_obj, skipBlanks_append blankBetween, skipBlanks_cons (by decide)]
  exact readAll

/-- Arrays. -/
theorem spelled_arr {spell : Json → List Char} {items : List Json}
    (spelled : ∀ item ∈ items, Spelled item (spell item)) :
    Spelled (arr items) (bracketed '[' ']' between close (items.map spell)) := by
  cases items with
  | nil => exact spelled_of_cons ⟨by decide, by decide⟩ fun _ _ => rfl
  | cons item items => exact spelled_arr_cons blankBetween blankClose spelled

/-- Objects. -/
theorem spelled_obj {gap : List Char} (blankGap : ∀ c ∈ gap, isBlank c = true)
    {spell : Json → List Char} {fields : List (String × Json)}
    (spelled : ∀ field ∈ fields, Spelled field.2 (spell field.2)) :
    Spelled (obj fields)
      (bracketed '\x7b' '\x7d' between close (fields.map (spellField gap spell))) := by
  cases fields with
  | nil => exact spelled_of_cons ⟨by decide, by decide⟩ fun _ _ => rfl
  | cons field fields => exact spelled_obj_cons blankBetween blankClose blankGap spelled

end

/-! ### The two written forms -/

-- the proofs below unfold the two mutual recursions by their equations
attribute [local simp] compact compactItems compactFields prettyAt prettyItems prettyFields

/-- The items of an array are written one by one. -/
theorem compactItems_eq_map (items : List Json) : compactItems items = items.map compact := by
  induction items with
  | nil => simp
  | cons item items ih => simp [ih]

/-- The fields of an object are written one by one. -/
theorem compactFields_eq_map (fields : List (String × Json)) :
    compactFields fields = fields.map fun field => quote field.1 ++ ":" ++ compact field.2 := by
  induction fields with
  | nil => simp
  | cons field fields ih => simp [ih]

/-- The items of an array are written one by one. -/
theorem prettyItems_eq_map (level : Nat) (items : List Json) :
    prettyItems level items = items.map (prettyAt level) := by
  induction items with
  | nil => simp
  | cons item items ih => simp [ih]

/-- The fields of an object are written one by one. -/
theorem prettyFields_eq_map (level : Nat) (fields : List (String × Json)) :
    prettyFields level fields =
      fields.map fun field => quote field.1 ++ ": " ++ prettyAt level field.2 := by
  induction fields with
  | nil => simp
  | cons field fields ih => simp [ih]

/-- The characters of parts joined without blanks. -/
theorem toList_joined (left right : Char) (parts : List String) :
    (String.singleton left ++ String.intercalate "," parts ++ String.singleton right).toList =
      bracketed left right [] [] (parts.map String.toList) := by
  rw [String.toList_append, String.toList_append, String.toList_intercalate]
  cases parts <;> simp [bracketed]

/-- The characters of parts on lines of their own. -/
theorem toList_block (level : Nat) (left right : Char) (parts : List String) :
    (block level (String.singleton left) (String.singleton right) parts).toList =
      bracketed left right (lineBreak (level + 1)).toList (lineBreak level).toList
        (parts.map String.toList) := by
  cases parts with
  | nil => simp [block, bracketed]
  | cons part parts =>
      simp [block, bracketed, String.toList_intercalate]

/-- A line break and the blanks of a level are blank. -/
theorem isBlank_of_mem_lineBreak (level : Nat) :
    ∀ c ∈ (lineBreak level).toList, isBlank c = true := by
  intro c mem
  rw [lineBreak, String.toList_append, List.mem_append] at mem
  rcases mem with newline | blank
  · cases List.mem_singleton.mp newline
    decide
  · rw [String.toList_ofList] at blank
    cases (List.mem_replicate.mp blank).2
    decide

/-- The characters of an array without blanks. -/
theorem toList_compact_arr (items : List Json) :
    (compact (arr items)).toList =
      bracketed '[' ']' [] [] (items.map fun item => item.compact.toList) := by
  rw [compact, compactItems_eq_map]
  refine (toList_joined '[' ']' _).trans ?_
  rw [List.map_map]
  rfl

/-- The characters of an object without blanks. -/
theorem toList_compact_obj (fields : List (String × Json)) :
    (compact (obj fields)).toList = bracketed '\x7b' '\x7d' [] []
      (fields.map (spellField [] fun value => value.compact.toList)) := by
  rw [compact, compactFields_eq_map]
  refine (toList_joined '\x7b' '\x7d' _).trans ?_
  have same : (String.toList ∘ fun field : String × Json =>
      quote field.1 ++ ":" ++ compact field.2) =
      spellField [] fun value => value.compact.toList := by
    funext field
    simp [spellField]
  rw [List.map_map, same]

/-- The characters of an array on lines of its own. -/
theorem toList_prettyAt_arr (level : Nat) (items : List Json) :
    (prettyAt level (arr items)).toList =
      bracketed '[' ']' (lineBreak (level + 1)).toList (lineBreak level).toList
        (items.map fun item => (item.prettyAt (level + 1)).toList) := by
  rw [prettyAt, prettyItems_eq_map]
  refine (toList_block level '[' ']' _).trans ?_
  rw [List.map_map]
  rfl

/-- The characters of an object on lines of its own. -/
theorem toList_prettyAt_obj (level : Nat) (fields : List (String × Json)) :
    (prettyAt level (obj fields)).toList =
      bracketed '\x7b' '\x7d' (lineBreak (level + 1)).toList (lineBreak level).toList
        (fields.map (spellField [' '] fun value => (value.prettyAt (level + 1)).toList)) := by
  rw [prettyAt, prettyFields_eq_map]
  refine (toList_block level '\x7b' '\x7d' _).trans ?_
  have same : (String.toList ∘ fun field : String × Json =>
      quote field.1 ++ ": " ++ prettyAt (level + 1) field.2) =
      spellField [' '] fun value => (value.prettyAt (level + 1)).toList := by
    funext field
    simp [spellField]
  rw [List.map_map, same]

/-- **The form without blanks is read as the value.** -/
theorem Exact.spelled_compact {json : Json} (exact : Exact json) :
    Spelled json json.compact.toList := by
  have none : ∀ c ∈ ([] : List Char), isBlank c = true := List.forall_mem_nil _
  induction exact with
  | null =>
      rw [compact]
      exact spelled_null
  | bool value =>
      rw [compact]
      exact spelled_bool value
  | int least fits =>
      rw [compact]
      exact spelled_int least fits
  | str text =>
      rw [compact]
      exact spelled_str text
  | arr _ ih =>
      rw [toList_compact_arr]
      exact spelled_arr none none ih
  | obj _ ih =>
      rw [toList_compact_obj]
      exact spelled_obj none none none ih

/-- **The form with one item on each line is read as the value.** -/
theorem Exact.spelled_prettyAt {json : Json} (exact : Exact json) (level : Nat) :
    Spelled json (json.prettyAt level).toList := by
  have lines := isBlank_of_mem_lineBreak
  induction exact generalizing level with
  | null =>
      rw [prettyAt]
      exact spelled_null
  | bool value =>
      rw [prettyAt]
      exact spelled_bool value
  | int least fits =>
      rw [prettyAt]
      exact spelled_int least fits
  | str text =>
      rw [prettyAt]
      exact spelled_str text
  | arr _ ih =>
      rw [toList_prettyAt_arr]
      exact spelled_arr (lines _) (lines _) fun item mem => ih item mem (level + 1)
  | obj _ ih =>
      rw [toList_prettyAt_obj]
      exact spelled_obj (lines _) (lines _) (List.forall_mem_singleton.mpr rfl) fun field mem =>
        ih field mem (level + 1)

/-- A text that spells a value holds the value. -/
theorem Spelled.parse? {json : Json} {text : String} (spelled : Spelled json text.toList) :
    parse? text = some json := by
  have read := spelled.read (text.toList.length + 2) [] [] (by omega) (List.forall_mem_nil _)
    (by simp [Ends])
  rw [List.nil_append, List.append_nil] at read
  rw [Json.parse?]
  show (readValue? (text.toList.length + 2) text.toList >>= _) = _
  rw [read]
  rfl

/-- A value is read back from its form without blanks. -/
theorem parse?_compact {json : Json} (exact : Exact json) : parse? json.compact = some json :=
  exact.spelled_compact.parse?

/-- A value is read back from its form with one item on each line. -/
theorem parse?_pretty {json : Json} (exact : Exact json) : parse? json.pretty = some json :=
  (exact.spelled_prettyAt 0).parse?

end Json

end ScopeMachine
